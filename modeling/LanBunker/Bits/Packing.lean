import Mathlib.Algebra.Order.Ring.Int
import Mathlib.Data.List.Basic
import Mathlib.Data.Nat.Bitwise

/-!
# Booleans packed into a word

A list of booleans as the bits of a word, the first one lowest, and the bits read back.
-/

namespace Bits

variable {width : Nat}

/-- `(word >> index) & 1 == 1`. -/
def bit (word : BitVec width) (index : Nat) : Bool := (word >>> index) &&& 1 == 1

/-- The lowest bits of a word, as many as asked for. -/
def unpack (count : Nat) (word : BitVec width) : List Bool := (List.range count).map (bit word)

/-- One more boolean packed into a word. -/
def setIf (word : BitVec width) (cell : Bool × Nat) : BitVec width :=
  if cell.1 then word ||| ((1 : BitVec width) <<< cell.2) else word

/-- The booleans as bits. -/
def pack (cells : List Bool) : BitVec width := cells.zipIdx.foldl setIf 0

theorem bit_eq (positive : 0 < width) (word : BitVec width) (index : Nat) :
    bit word index = word.getLsbD index := by
  have one_ne_zero : (1 : BitVec width) ≠ 0 := by
    intro same
    have lowest := congrArg (fun word => word.getLsbD 0) same
    simp [positive] at lowest
  have masked : (word >>> index) &&& 1 = if word.getLsbD index then 1 else 0 := by
    refine BitVec.eq_of_getLsbD_eq fun position in_range => ?_
    rw [BitVec.getLsbD_and, BitVec.getLsbD_ushiftRight]
    cases position with
    | zero => cases word.getLsbD index <;> simp [positive]
    | succ position => cases word.getLsbD index <;> simp
  rw [bit, masked]
  cases word.getLsbD index
  · simpa using one_ne_zero.symm
  · simp

@[simp]
theorem unpack_length (count : Nat) (word : BitVec width) : (unpack count word).length = count := by
  rw [unpack, List.length_map, List.length_range]

theorem getElem?_unpack (positive : 0 < width) {count index : Nat} (small : index < count)
    (word : BitVec width) : (unpack count word)[index]? = some (word.getLsbD index) := by
  rw [unpack, List.getElem?_map, List.getElem?_range small, Option.map_some, bit_eq positive]

theorem getLsbD_setIf (word : BitVec width) (cell : Bool × Nat) (index : Nat) :
    (setIf word cell).getLsbD index =
      (word.getLsbD index || (cell.1 && decide (index < width) && decide (index = cell.2))) := by
  have one_bit : ((1 : BitVec width) <<< cell.2).getLsbD index =
      (decide (index < width) && decide (index = cell.2)) := by
    have power : (1 : BitVec width) <<< cell.2 = BitVec.twoPow width cell.2 :=
      (BitVec.twoPow_eq width cell.2).symm
    rw [power, BitVec.getLsbD_twoPow]
    by_cases same : index = cell.2
    · subst same
      rfl
    · simp [same, Ne.symm same]
  cases lit : cell.1
  · simp [setIf, lit]
  · rw [setIf, lit, if_pos rfl, BitVec.getLsbD_or, one_bit, Bool.true_and]

/-- Every bit of a packed word, the packing started at some position. -/
theorem getLsbD_foldl (cells : List Bool) (first : Nat) (word : BitVec width) {index : Nat}
    (in_range : index < width) :
    ((cells.zipIdx first).foldl setIf word).getLsbD index =
      (word.getLsbD index || (decide (first ≤ index) && (cells[index - first]?).getD false)) := by
  induction cells generalizing first word with
  | nil => simp
  | cons cell cells ih =>
      rw [List.zipIdx_cons, List.foldl_cons, ih, getLsbD_setIf, Bool.or_assoc]
      congr 1
      rcases Nat.lt_trichotomy index first with before | here | behind
      · have not_here : index ≠ first := by omega
        have not_behind : ¬ first + 1 ≤ index := by omega
        have not_reached : ¬ first ≤ index := by omega
        simp [not_here, not_behind, not_reached]
      · subst here
        simp [in_range]
      · have not_here : index ≠ first := by omega
        have shifted : index - first = (index - (first + 1)) + 1 := by omega
        have reached : first ≤ index := by omega
        have later : first + 1 ≤ index := by omega
        simp [not_here, reached, later, shifted]

theorem getLsbD_pack (cells : List Bool) {index : Nat} (in_range : index < width) :
    (pack cells : BitVec width).getLsbD index = (cells[index]?).getD false := by
  rw [pack, getLsbD_foldl cells 0 0 in_range]
  simp

/-- Booleans that fit are read back. -/
theorem unpack_pack {cells : List Bool} (fits : cells.length ≤ width) :
    unpack cells.length (pack cells : BitVec width) = cells := by
  refine List.ext_getElem? fun index => ?_
  by_cases small : index < cells.length
  · have in_range : index < width := by omega
    rw [getElem?_unpack (by omega) small, getLsbD_pack cells in_range,
      List.getElem?_eq_getElem small, Option.getD_some]
  · rw [List.getElem?_eq_none (by rw [unpack_length]; omega), List.getElem?_eq_none (by omega)]

/-- No bit is set behind the last boolean. -/
theorem toNat_pack_lt (cells : List Bool) :
    (pack cells : BitVec width).toNat < 2 ^ cells.length := by
  refine Nat.lt_pow_two_of_testBit _ fun index behind => ?_
  rw [BitVec.testBit_toNat]
  by_cases in_range : index < width
  · rw [getLsbD_pack cells in_range, List.getElem?_eq_none behind, Option.getD_none]
  · exact BitVec.getLsbD_of_ge _ _ (Nat.not_lt.mp in_range)

end Bits
