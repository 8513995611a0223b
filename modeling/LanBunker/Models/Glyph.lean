import Mathlib.Tactic.IntervalCases
import LanBunker.Bits.Packing
import LanBunker.Utf16.Units

/-!
# Glyphs

The mark of a player: a grid of five by five cells that mirrors left to right, and a color.  Both
come from a hash of the handle.
-/

namespace LanBunker

open Bits Utf16

def glyphSize : Nat := 5
def glyphCells : Nat := glyphSize * glyphSize

/-- Every bit a grid can set. -/
def glyphMask : BitVec 32 := ((1 : BitVec 32) <<< glyphCells) - 1

def halfColumns : Nat := 3
def centerColumn : Nat := 2
def minLitCells : Nat := 7
def corners : List Nat := [0, 4, 20, 24]

/-- The salt for the color hash. -/
def colorSalt : List Char := ['/', 'c', 'o', 'l', 'o', 'r']

inductive GlyphColor where
  | amber
  | cyan
  | violet
  | coral
  | lime
  | magenta
  | ice
  | gold
  | teal
  | orange
  | sky
  | mint
  deriving DecidableEq, Repr

/-- The order is part of the algorithm: the hash selects by index. -/
def glyphColors : List GlyphColor :=
  [.amber, .cyan, .violet, .coral, .lime, .magenta, .ice, .gold, .teal, .orange, .sky, .mint]

/-- The grid row by row as one integer. -/
structure GlyphBits where
  value : BitVec 32
  le_mask : value ≤ glyphMask
  deriving DecidableEq, Repr

namespace GlyphBits

def tryNew (value : BitVec 32) : Option GlyphBits :=
  if le_mask : value ≤ glyphMask then some ⟨value, le_mask⟩ else none

/-- The default. -/
def zero : GlyphBits := ⟨0, Nat.zero_le _⟩

end GlyphBits

structure Glyph where
  bits : GlyphBits
  color : GlyphColor
  deriving DecidableEq, Repr

def Glyph.cells (glyph : Glyph) : List Bool := unpack glyphCells glyph.bits.value

/-! ## The algorithm -/

section Generate

-- `str::to_lowercase`, the case mapping of Unicode.
variable (toLowercase : List Char → List Char)

/-- One step of the hash. -/
def fnvStep (hash : BitVec 32) (unit : UInt16) : BitVec 32 :=
  (hash ^^^ BitVec.ofNat 32 unit.toNat) * 16777619

/-- FNV-1a over the UTF-16 units of the lowercased seed. -/
def fnv1a (seed : List Char) : BitVec 32 :=
  (ofChars (toLowercase seed)).foldl fnvStep 2166136261

/-- The left three columns, from the low bits of the hash. -/
def halfOf (hash : BitVec 32) : List Bool := unpack (glyphSize * halfColumns) hash

/-- The cells of the centre column in a half. -/
def centerOf (half : List Bool) : List Bool :=
  (List.range glyphSize).map fun row => (half[row * halfColumns + centerColumn]?).getD false

/-- A dark centre column gets the middle cell of its spine. -/
def withSpine (half : List Bool) : List Bool :=
  if (centerOf half).any id then half else half.set (centerColumn + halfColumns * 2) true

/-- The column of the half that a column of the grid shows. -/
def mirrored (column : Nat) : Nat :=
  if centerColumn < column then glyphSize - 1 - column else column

/-- The whole grid, the right columns mirrored. -/
def gridOf (half : List Bool) : List Bool :=
  (List.range glyphCells).map fun index =>
    (half[index / glyphSize * halfColumns + mirrored (index % glyphSize)]?).getD false

def litCount (cells : List Bool) : Nat := (cells.filter id).length

/-- A mark with too few cells gets its corners. -/
def withCorners (cells : List Bool) : List Bool :=
  if litCount cells < minLitCells then
    corners.foldl (fun cells corner => cells.set corner true) cells
  else cells

/-- The grid of a hash. -/
def cellsOf (hash : BitVec 32) : List Bool := withCorners (gridOf (withSpine (halfOf hash)))

/-- The grid as one integer, before it is checked. -/
def rawOf (hash : BitVec 32) : BitVec 32 := pack (cellsOf hash)

def colorOf (hash : BitVec 32) : GlyphColor :=
  (glyphColors[hash.toNat % glyphColors.length]?).getD .amber

/-- The mark for a new account from a seed, normally the handle. -/
def generateGlyph (seed : List Char) : Glyph where
  bits := (GlyphBits.tryNew (rawOf (fnv1a toLowercase seed))).getD .zero
  color := colorOf (fnv1a toLowercase (seed ++ colorSalt))

end Generate

/-! ## The grid of any half -/

theorem litCount_nil : litCount [] = 0 := rfl

theorem litCount_cons (lit : Bool) (cells : List Bool) :
    litCount (lit :: cells) = lit.toNat + litCount cells := by
  cases lit
  · simp [litCount]
  · simp [litCount, Nat.add_comm]

/-- The left and the right of every row are the same. -/
def Mirrored (cells : List Bool) : Prop :=
  ∀ row < glyphSize, ∀ column < glyphSize,
    cells[row * glyphSize + column]? = cells[row * glyphSize + (glyphSize - 1 - column)]?

def CenterLit (cells : List Bool) : Prop :=
  ∃ row < glyphSize, cells[row * glyphSize + centerColumn]? = some true

/-- The places of a half beside the centre column, without the corners of the grid. -/
def sidePlaces : List Nat := [1, 3, 4, 6, 7, 9, 10, 13]

def centerPlaces : List Nat := [2, 5, 8, 11, 14]

section Grid

variable (cell : Nat → Bool)

theorem gridOf_eq : gridOf ((List.range (glyphSize * halfColumns)).map cell) =
    [cell 0, cell 1, cell 2, cell 1, cell 0,
      cell 3, cell 4, cell 5, cell 4, cell 3,
      cell 6, cell 7, cell 8, cell 7, cell 6,
      cell 9, cell 10, cell 11, cell 10, cell 9,
      cell 12, cell 13, cell 14, cell 13, cell 12] := rfl

/-- The grid with its corners lit. -/
def cornered : List Bool :=
  [true, cell 1, cell 2, cell 1, true,
    cell 3, cell 4, cell 5, cell 4, cell 3,
    cell 6, cell 7, cell 8, cell 7, cell 6,
    cell 9, cell 10, cell 11, cell 10, cell 9,
    true, cell 13, cell 14, cell 13, true]

theorem withCorners_eq :
    withCorners (gridOf ((List.range (glyphSize * halfColumns)).map cell)) =
      if litCount (gridOf ((List.range (glyphSize * halfColumns)).map cell)) < minLitCells
      then cornered cell else gridOf ((List.range (glyphSize * halfColumns)).map cell) := rfl

theorem withCorners_mirrored :
    Mirrored (withCorners (gridOf ((List.range (glyphSize * halfColumns)).map cell))) := by
  rw [withCorners_eq, gridOf_eq]
  split_ifs
  · intro row row_lt column column_lt
    rw [glyphSize] at row_lt column_lt
    interval_cases row <;> interval_cases column <;> rfl
  · intro row row_lt column column_lt
    rw [glyphSize] at row_lt column_lt
    interval_cases row <;> interval_cases column <;> rfl

theorem withCorners_centerLit
    (lit : ∃ row < glyphSize, cell (row * halfColumns + centerColumn) = true) :
    CenterLit (withCorners (gridOf ((List.range (glyphSize * halfColumns)).map cell))) := by
  obtain ⟨row, row_lt, lit⟩ := lit
  refine ⟨row, row_lt, ?_⟩
  rw [← lit, withCorners_eq, gridOf_eq]
  rw [glyphSize] at row_lt
  split_ifs
  · interval_cases row <;> rfl
  · interval_cases row <;> rfl

theorem litCount_gridOf :
    litCount (gridOf ((List.range (glyphSize * halfColumns)).map cell)) =
      2 * (cell 0).toNat + 2 * (cell 12).toNat + 2 * litCount (sidePlaces.map cell) +
        litCount (centerPlaces.map cell) := by
  rw [gridOf_eq]
  simp only [sidePlaces, centerPlaces, List.map_cons, List.map_nil, litCount_cons, litCount_nil]
  omega

theorem litCount_cornered : litCount (cornered cell) =
    4 + 2 * litCount (sidePlaces.map cell) + litCount (centerPlaces.map cell) := by
  simp only [cornered, sidePlaces, centerPlaces, List.map_cons, List.map_nil, litCount_cons,
    litCount_nil, Bool.toNat_true]
  omega

/-- Cells beside the centre column, or three cells in it, are weight enough. -/
def Weighty : Prop :=
  (∃ place ∈ sidePlaces, cell place = true) ∨ 3 ≤ litCount (centerPlaces.map cell)

instance : Decidable (Weighty cell) :=
  inferInstanceAs (Decidable
    ((∃ place ∈ sidePlaces, cell place = true) ∨ 3 ≤ litCount (centerPlaces.map cell)))

theorem litCount_pos {places : List Nat} :
    0 < litCount (places.map cell) ↔ ∃ place ∈ places, cell place = true := by
  rw [litCount, List.length_pos_iff_exists_mem]
  simp

/-- The corners are lit where the grid has too few cells, and help only then. -/
theorem seven_le_litCount_iff
    (lit : 0 < litCount (centerPlaces.map cell)) :
    7 ≤ litCount (withCorners (gridOf ((List.range (glyphSize * halfColumns)).map cell))) ↔
      Weighty cell := by
  have first_corner := Bool.toNat_le (cell 0)
  have last_corner := Bool.toNat_le (cell 12)
  rw [withCorners_eq, Weighty, ← litCount_pos, litCount_gridOf, minLitCells]
  split_ifs with light
  · rw [litCount_cornered]
    omega
  · rw [litCount_gridOf]
    omega

/-- A lit place of the centre column is a cell of some row. -/
theorem exists_row_of_center (lit : 0 < litCount (centerPlaces.map cell)) :
    ∃ row < glyphSize, cell (row * halfColumns + centerColumn) = true := by
  obtain ⟨place, center, lit⟩ := (litCount_pos cell).mp lit
  have row_of_place : ∀ other ∈ centerPlaces, ∃ row < glyphSize,
      row * halfColumns + centerColumn = other := by decide
  obtain ⟨row, row_lt, rfl⟩ := row_of_place place center
  exact ⟨row, row_lt, lit⟩

theorem withSpine_eq :
    withSpine ((List.range (glyphSize * halfColumns)).map cell) =
      if 0 < litCount (centerPlaces.map cell) then (List.range (glyphSize * halfColumns)).map cell
      else (List.range (glyphSize * halfColumns)).map fun place => cell place || place == 8 := by
  have any_iff : (centerOf ((List.range (glyphSize * halfColumns)).map cell)).any id = true ↔
      0 < litCount (centerPlaces.map cell) := by
    rw [litCount_pos]
    simp [centerOf, centerPlaces, glyphSize, halfColumns, centerColumn, List.range_succ]
  rw [withSpine]
  by_cases lit : 0 < litCount (centerPlaces.map cell)
  · rw [if_pos (any_iff.mpr lit), if_pos lit]
  · rw [if_neg (mt any_iff.mp lit), if_neg lit]
    simp [glyphSize, halfColumns, centerColumn, List.range_succ]

end Grid

/-- After the spine is repaired the half has a lit centre, and weighs what it weighed. -/
theorem exists_withSpine (cell : Nat → Bool) :
    ∃ repaired : Nat → Bool,
      withSpine ((List.range (glyphSize * halfColumns)).map cell) =
        (List.range (glyphSize * halfColumns)).map repaired ∧
      0 < litCount (centerPlaces.map repaired) ∧ (Weighty repaired ↔ Weighty cell) := by
  by_cases lit : 0 < litCount (centerPlaces.map cell)
  · exact ⟨cell, by rw [withSpine_eq, if_pos lit], lit, Iff.rfl⟩
  · refine ⟨fun place => cell place || place == 8, by rw [withSpine_eq, if_neg lit], ?_, ?_⟩
    · exact (litCount_pos _).mpr ⟨8, by decide, by simp⟩
    · have dark : ∀ place ∈ centerPlaces, cell place = false := by
        intro place center
        by_contra is_lit
        exact lit ((litCount_pos cell).mpr ⟨place, center, by simpa using is_lit⟩)
      have one_lit : litCount (centerPlaces.map fun place => cell place || place == 8) = 1 := by
        have same : (centerPlaces.map fun place => cell place || place == 8) =
            centerPlaces.map fun place => place == 8 :=
          List.map_congr_left fun place center => by rw [dark place center, Bool.false_or]
        rw [same]
        rfl
      have none_lit : litCount (centerPlaces.map cell) = 0 := Nat.eq_zero_of_not_pos lit
      have sides : ∀ place ∈ sidePlaces, (cell place || place == 8) = cell place := by
        intro place side
        have not_spine : ∀ other ∈ sidePlaces, (other == 8) = false := by decide
        rw [not_spine place side, Bool.or_false]
      rw [Weighty, Weighty, one_lit, none_lit]
      constructor
      · rintro (⟨place, side, lit⟩ | heavy)
        · exact .inl ⟨place, side, by rwa [sides place side] at lit⟩
        · omega
      · rintro (⟨place, side, lit⟩ | heavy)
        · exact .inl ⟨place, side, by rwa [sides place side]⟩
        · omega

/-! ## The mark of a seed -/

theorem cellsOf_eq (hash : BitVec 32) :
    cellsOf hash =
      withCorners (gridOf (withSpine ((List.range (glyphSize * halfColumns)).map (bit hash)))) :=
  rfl

theorem withCorners_length (cells : List Bool) : (withCorners cells).length = cells.length := by
  rw [withCorners]
  split_ifs
  · simp [corners]
  · rfl

theorem cellsOf_length (hash : BitVec 32) : (cellsOf hash).length = glyphCells := by
  rw [cellsOf, withCorners_length, gridOf, List.length_map, List.length_range]

theorem rawOf_le_mask (hash : BitVec 32) : rawOf hash ≤ glyphMask := by
  have bounded : (rawOf hash).toNat < 2 ^ (cellsOf hash).length := toNat_pack_lt (cellsOf hash)
  rw [cellsOf_length] at bounded
  rw [BitVec.le_def]
  exact Nat.le_of_lt_succ bounded

/-- The stored grid shows the grid of the hash. -/
theorem unpack_rawOf (hash : BitVec 32) : unpack glyphCells (rawOf hash) = cellsOf hash := by
  have fits : (cellsOf hash).length ≤ 32 := by
    rw [cellsOf_length]
    decide
  have read_back : unpack (cellsOf hash).length (rawOf hash) = cellsOf hash := unpack_pack fits
  rwa [cellsOf_length] at read_back

section Seed

variable (toLowercase : List Char → List Char) (seed : List Char)

/-- The bits pass their check, so the default is never used. -/
theorem generateGlyph_bits :
    (generateGlyph toLowercase seed).bits =
      ⟨rawOf (fnv1a toLowercase seed), rawOf_le_mask (fnv1a toLowercase seed)⟩ := by
  rw [generateGlyph, GlyphBits.tryNew, dif_pos (rawOf_le_mask (fnv1a toLowercase seed)),
    Option.getD_some]

theorem generateGlyph_cells :
    (generateGlyph toLowercase seed).cells = cellsOf (fnv1a toLowercase seed) := by
  rw [Glyph.cells, generateGlyph_bits, unpack_rawOf]

/-- The grid is the grid of a half with a lit centre, which weighs what the hash does. -/
theorem exists_generateGlyph_cells :
    ∃ repaired : Nat → Bool,
      (generateGlyph toLowercase seed).cells =
        withCorners (gridOf ((List.range (glyphSize * halfColumns)).map repaired)) ∧
      0 < litCount (centerPlaces.map repaired) ∧
      (Weighty repaired ↔ Weighty (bit (fnv1a toLowercase seed))) := by
  obtain ⟨repaired, spine_eq, lit, same_weight⟩ :=
    exists_withSpine (bit (fnv1a toLowercase seed))
  refine ⟨repaired, ?_, lit, same_weight⟩
  rw [generateGlyph_cells, cellsOf_eq, spine_eq]

theorem generateGlyph_mirrored : Mirrored (generateGlyph toLowercase seed).cells := by
  obtain ⟨repaired, cells_eq, -, -⟩ := exists_generateGlyph_cells toLowercase seed
  rw [cells_eq]
  exact withCorners_mirrored repaired

theorem generateGlyph_centerLit : CenterLit (generateGlyph toLowercase seed).cells := by
  obtain ⟨repaired, cells_eq, lit, -⟩ := exists_generateGlyph_cells toLowercase seed
  rw [cells_eq]
  exact withCorners_centerLit repaired (exists_row_of_center repaired lit)

theorem seven_le_generateGlyph_iff :
    7 ≤ litCount (generateGlyph toLowercase seed).cells ↔
      Weighty (bit (fnv1a toLowercase seed)) := by
  obtain ⟨repaired, cells_eq, lit, same_weight⟩ := exists_generateGlyph_cells toLowercase seed
  rw [cells_eq, seven_le_litCount_iff repaired lit]
  exact same_weight

/-- A mark that mirrors, has a lit centre column and weight, and whose bits passed their check. -/
structure WellFormedMark : Prop where
  mirrored : Mirrored (generateGlyph toLowercase seed).cells
  center_lit : CenterLit (generateGlyph toLowercase seed).cells
  weight : 7 ≤ litCount (generateGlyph toLowercase seed).cells
  checked : GlyphBits.tryNew (rawOf (fnv1a toLowercase seed)) =
    some (generateGlyph toLowercase seed).bits

/-- Every mark is well formed but for its weight, which the hash decides. -/
theorem wellFormed_iff_weighty :
    WellFormedMark toLowercase seed ↔ Weighty (bit (fnv1a toLowercase seed)) := by
  rw [← seven_le_generateGlyph_iff]
  refine ⟨fun formed => formed.weight, fun weight => ⟨?_, ?_, weight, ?_⟩⟩
  · exact generateGlyph_mirrored toLowercase seed
  · exact generateGlyph_centerLit toLowercase seed
  · rw [generateGlyph_bits]
    exact dif_pos (rawOf_le_mask (fnv1a toLowercase seed))

end Seed

/-- The handle `lol` gets a mark of five cells: its hash lights one cell of the centre column, and
the corners add four. -/
theorem lol_not_wellFormed :
    ¬ WellFormedMark (List.map Char.toLower) ['l', 'o', 'l'] := by
  intro formed
  have weight := formed.weight
  revert weight
  decide +kernel

end LanBunker
