import Mathlib.Algebra.Order.Ring.Int
import Mathlib.Data.List.DropRight
import LanBunker.Utf16.Units

/-!
# Strings that spell characters

A string of 16-bit units spells characters when it holds no lone surrogate.  What cutting a string
and trimming it do to the characters it spells.
-/

namespace Utf16

/-- The characters of code points, none of them a surrogate. -/
def charsOf? : List Nat → Option (List Char)
  | [] => some []
  | point :: rest =>
      if IsScalar point then (charsOf? rest).map (Char.ofNat point :: ·) else none

/-- The characters of a string.  A lone surrogate is no character. -/
def chars? (text : List UInt16) : Option (List Char) := charsOf? (points text)

@[simp]
theorem ofChars_nil : ofChars [] = [] := rfl

@[simp]
theorem ofChars_cons (c : Char) (chars : List Char) :
    ofChars (c :: chars) = unitsOf c.toNat ++ ofChars chars := List.flatMap_cons

@[simp]
theorem ofChars_append (earlier later : List Char) :
    ofChars (earlier ++ later) = ofChars earlier ++ ofChars later := by
  rw [ofChars, List.map_append, units_append]
  rfl

theorem isScalar_toNat (c : Char) : IsScalar c.toNat := by
  have valid : c.toNat.isValidChar := c.valid
  rw [Nat.isValidChar] at valid
  rw [IsScalar]
  omega

theorem toNat_ofNat {point : Nat} (scalar : IsScalar point) : (Char.ofNat point).toNat = point := by
  have valid : point.isValidChar := by
    rw [IsScalar] at scalar
    rw [Nat.isValidChar]
    omega
  rw [Char.ofNat, dif_pos valid]
  rfl

/-- What is no character counts as the null character. -/
theorem toNat_ofNat_of_not {point : Nat} (no_scalar : ¬ IsScalar point) :
    (Char.ofNat point).toNat = 0 := by
  have invalid : ¬ point.isValidChar := by
    rw [IsScalar] at no_scalar
    rw [Nat.isValidChar]
    omega
  rw [Char.ofNat, dif_neg invalid]
  rfl

@[simp]
theorem chars?_nil : chars? [] = some [] := rfl

theorem chars?_unitsOf_append (c : Char) (rest : List UInt16) :
    chars? (unitsOf c.toNat ++ rest) = (chars? rest).map (c :: ·) := by
  have scalar := isScalar_toNat c
  rw [chars?, points_unitsOf_append scalar, charsOf?, if_pos scalar, Char.ofNat_toNat, chars?]

/-- Characters are read back. -/
@[simp]
theorem chars?_ofChars (chars : List Char) : chars? (ofChars chars) = some chars := by
  induction chars with
  | nil => rfl
  | cons c chars ih => rw [ofChars_cons, chars?_unitsOf_append, ih, Option.map_some]

theorem map_toNat_of_charsOf? {listed : List Nat} {chars : List Char}
    (read : charsOf? listed = some chars) : chars.map Char.toNat = listed := by
  induction listed generalizing chars with
  | nil =>
      obtain rfl := Option.some.inj read
      rfl
  | cons point rest ih =>
      by_cases scalar : IsScalar point
      · rw [charsOf?, if_pos scalar, Option.map_eq_some_iff] at read
        obtain ⟨tail, later, rfl⟩ := read
        rw [List.map_cons, ih later, toNat_ofNat scalar]
      · rw [charsOf?, if_neg scalar] at read
        cases read

/-- A string spells characters when it is the string of them. -/
theorem chars?_eq_some_iff {text : List UInt16} {chars : List Char} :
    chars? text = some chars ↔ ofChars chars = text := by
  constructor
  · intro read
    rw [ofChars, map_toNat_of_charsOf? read, units_points]
  · rintro rfl
    exact chars?_ofChars chars

/-- Units below the surrogates are characters of their own. -/
theorem chars?_of_small {text : List UInt16} (small : ∀ unit ∈ text, unit.toNat < 0xD800) :
    chars? text = some (text.map fun unit => Char.ofNat unit.toNat) := by
  rw [chars?_eq_some_iff]
  induction text with
  | nil => rfl
  | cons unit rest ih =>
      have scalar : IsScalar unit.toNat := .inl (small unit List.mem_cons_self)
      rw [List.map_cons, ofChars_cons, toNat_ofNat scalar, unitsOf_unit,
        ih fun other member => small other (List.mem_cons_of_mem unit member)]
      rfl

theorem ofChars_injective : Function.Injective ofChars := by
  intro left right same
  have read : chars? (ofChars left) = some right := chars?_eq_some_iff.mpr same.symm
  rw [chars?_ofChars] at read
  exact Option.some.inj read

/-- A character is one unit that is no surrogate, or a high surrogate and a low one. -/
theorem unitsOf_cases (c : Char) :
    (∃ unit : UInt16, unitsOf c.toNat = [unit] ∧ unit.toNat = c.toNat ∧ isHigh unit = false ∧
      isLow unit = false) ∨
    ∃ high low : UInt16, unitsOf c.toNat = [high, low] ∧ isHigh high ∧ isLow low ∧
      0x10000 ≤ c.toNat := by
  have scalar := isScalar_toNat c
  rw [IsScalar] at scalar
  by_cases small : c.toNat < 0x10000
  · have spelled : (UInt16.ofNat c.toNat).toNat = c.toNat := UInt16.toNat_ofNat_of_lt' small
    refine .inl ⟨.ofNat c.toNat, ?_, spelled, ?_, ?_⟩
    · rw [unitsOf, if_pos small]
    · rw [isHigh, spelled, Bool.and_eq_false_iff, decide_eq_false_iff_not,
        decide_eq_false_iff_not]
      omega
    · rw [isLow, spelled, Bool.and_eq_false_iff, decide_eq_false_iff_not,
        decide_eq_false_iff_not]
      omega
  · refine .inr ⟨_, _, by rw [unitsOf, if_neg small], ?_, ?_, by omega⟩
    · rw [isHigh, UInt16.toNat_ofNat_of_lt' (by change _ < 65536; omega), Bool.and_eq_true,
        decide_eq_true_eq, decide_eq_true_eq]
      omega
    · rw [isLow, UInt16.toNat_ofNat_of_lt' (by change _ < 65536; omega), Bool.and_eq_true,
        decide_eq_true_eq, decide_eq_true_eq]
      omega

/-- A string has no fewer units than characters. -/
theorem length_le_ofChars (chars : List Char) : chars.length ≤ (ofChars chars).length := by
  induction chars with
  | nil => exact Nat.le_refl 0
  | cons c chars ih =>
      rw [ofChars_cons, List.length_append, List.length_cons]
      rcases unitsOf_cases c with ⟨unit, spelled, -⟩ | ⟨high, low, spelled, -⟩
      · rw [spelled, List.length_singleton]
        omega
      · rw [spelled, List.length_cons, List.length_singleton]
        omega

/-! ## The first units of a string -/

theorem isHigh_of_isLow {unit : UInt16} (is_low : isLow unit) : isHigh unit = false := by
  rw [isLow, Bool.and_eq_true, decide_eq_true_eq, decide_eq_true_eq] at is_low
  rw [isHigh, Bool.and_eq_false_iff, decide_eq_false_iff_not, decide_eq_false_iff_not]
  omega

/-- Half a pair is no character. -/
theorem chars?_high {high : UInt16} (is_high : isHigh high) : chars? [high] = none := by
  rw [isHigh, Bool.and_eq_true, decide_eq_true_eq, decide_eq_true_eq] at is_high
  rw [chars?, points, charsOf?, if_neg]
  rw [IsScalar]
  omega

/-- The first units of a string spell characters unless the last of them opens a pair. -/
theorem isSome_chars?_take (chars : List Char) (count : Nat) :
    (chars? ((ofChars chars).take (count + 1))).isSome ↔
      ∀ unit, (ofChars chars)[count]? = some unit → isHigh unit = false := by
  induction chars generalizing count with
  | nil => simp
  | cons c chars ih =>
      rw [ofChars_cons]
      rcases unitsOf_cases c with ⟨unit, spelled, -, not_high, -⟩ |
        ⟨high, low, spelled, is_high, is_low, -⟩
      · have first : (unitsOf c.toNat ++ ofChars chars).take (count + 1) =
            unitsOf c.toNat ++ (ofChars chars).take count := by
          rw [spelled]
          rfl
        rw [first, chars?_unitsOf_append, Option.isSome_map, spelled, List.singleton_append]
        cases count with
        | zero => simp [not_high]
        | succ count => rw [ih count, List.getElem?_cons_succ]
      · cases count with
        | zero =>
            have torn : (unitsOf c.toNat ++ ofChars chars).take 1 = [high] := by
              rw [spelled]
              rfl
            rw [torn, chars?_high is_high, spelled]
            simp [is_high]
        | succ count =>
            have first : (unitsOf c.toNat ++ ofChars chars).take (count + 2) =
                unitsOf c.toNat ++ (ofChars chars).take count := by
              rw [spelled]
              rfl
            rw [first, chars?_unitsOf_append, Option.isSome_map, spelled, List.cons_append,
              List.singleton_append, List.getElem?_cons_succ]
            cases count with
            | zero => simp [isHigh_of_isLow is_low]
            | succ count => rw [ih count, List.getElem?_cons_succ]

/-! ## Marks on characters and on units -/

/-- A property of code points that no surrogate and no character beyond 16 bits has. -/
structure OnUnits (marked : Nat → Bool) : Prop where
  surrogate : ∀ code, 0xD800 ≤ code → code < 0xE000 → marked code = false
  beyond : ∀ code, 0x10000 ≤ code → marked code = false

namespace OnUnits

variable {marked : Nat → Bool}

theorem high (on_units : OnUnits marked) {unit : UInt16} (is_high : isHigh unit) :
    marked unit.toNat = false := by
  rw [isHigh, Bool.and_eq_true, decide_eq_true_eq, decide_eq_true_eq] at is_high
  exact on_units.surrogate _ (by omega) (by omega)

theorem low (on_units : OnUnits marked) {unit : UInt16} (is_low : isLow unit) :
    marked unit.toNat = false := by
  rw [isLow, Bool.and_eq_true, decide_eq_true_eq, decide_eq_true_eq] at is_low
  exact on_units.surrogate _ (by omega) (by omega)

theorem all_ofChars (on_units : OnUnits marked) (chars : List Char) :
    ((ofChars chars).all fun unit => marked unit.toNat) = chars.all fun c => marked c.toNat := by
  induction chars with
  | nil => rfl
  | cons c chars ih =>
      rw [ofChars_cons, List.all_append, List.all_cons, ih]
      rcases unitsOf_cases c with ⟨unit, spelled, same, -⟩ |
        ⟨high, low, spelled, is_high, -, large⟩
      · rw [spelled, List.all_cons, List.all_nil, Bool.and_true, same]
      · rw [spelled, List.all_cons, on_units.high is_high, on_units.beyond _ large,
          Bool.false_and]

theorem dropWhile_ofChars (on_units : OnUnits marked) (chars : List Char) :
    ((ofChars chars).dropWhile fun unit => marked unit.toNat) =
      ofChars (chars.dropWhile fun c => marked c.toNat) := by
  induction chars with
  | nil => rfl
  | cons c chars ih =>
      rw [ofChars_cons]
      rcases unitsOf_cases c with ⟨unit, spelled, same, -⟩ |
        ⟨high, low, spelled, is_high, -, large⟩
      · cases is_marked : marked c.toNat with
        | true =>
            rw [spelled, List.singleton_append, List.dropWhile_cons_of_pos (by rwa [same]),
              List.dropWhile_cons_of_pos (by rw [is_marked]), ih]
        | false =>
            rw [List.dropWhile_cons_of_neg (by rw [is_marked]; decide), ofChars_cons, spelled,
              List.singleton_append,
              List.dropWhile_cons_of_neg (by rw [same, is_marked]; decide)]
      · have no_mark := on_units.high is_high
        rw [List.dropWhile_cons_of_neg (by rw [on_units.beyond _ large]; decide), ofChars_cons,
          spelled, List.cons_append,
          List.dropWhile_cons_of_neg (by rw [no_mark]; decide)]

theorem rdropWhile_ofChars (on_units : OnUnits marked) (chars : List Char) :
    ((ofChars chars).rdropWhile fun unit => marked unit.toNat) =
      ofChars (chars.rdropWhile fun c => marked c.toNat) := by
  induction chars using List.reverseRecOn with
  | nil => rfl
  | append_singleton chars c ih =>
      rw [ofChars_append, ofChars_cons, ofChars_nil, List.append_nil]
      rcases unitsOf_cases c with ⟨unit, spelled, same, -⟩ |
        ⟨high, low, spelled, -, is_low, large⟩
      · cases is_marked : marked c.toNat with
        | true =>
            rw [spelled, List.rdropWhile_concat_pos _ _ _ (by rwa [same]),
              List.rdropWhile_concat_pos _ chars c (by rw [is_marked]), ih]
        | false =>
            rw [List.rdropWhile_concat_neg _ chars c (by rw [is_marked]; decide), ofChars_append,
              ofChars_cons, ofChars_nil, List.append_nil, spelled,
              List.rdropWhile_concat_neg _ _ _ (by rw [same, is_marked]; decide)]
      · have no_mark := on_units.low is_low
        have last : ofChars chars ++ [high, low] = (ofChars chars ++ [high]) ++ [low] := by
          rw [List.append_assoc]
          rfl
        rw [List.rdropWhile_concat_neg _ chars c (by rw [on_units.beyond _ large]; decide),
          ofChars_append, ofChars_cons, ofChars_nil, List.append_nil, spelled, last,
          List.rdropWhile_concat_neg _ _ _ (by rw [no_mark]; decide)]

end OnUnits
end Utf16
