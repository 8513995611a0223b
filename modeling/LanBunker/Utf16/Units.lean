import Mathlib.Algebra.Order.Ring.Int
import Mathlib.Data.List.Basic

/-!
# Strings of UTF-16 units

A string of 16-bit units is any list of units, lone surrogates included.  Its code points, the
units of code points, and when one reading undoes the other.
-/

namespace Utf16

/-- The first unit of a surrogate pair. -/
def isHigh (unit : UInt16) : Bool := 0xD800 ≤ unit.toNat && unit.toNat ≤ 0xDBFF

/-- The second unit of a surrogate pair. -/
def isLow (unit : UInt16) : Bool := 0xDC00 ≤ unit.toNat && unit.toNat ≤ 0xDFFF

/-- The code point of a surrogate pair. -/
def pair (high low : UInt16) : Nat :=
  0x10000 + (high.toNat - 0xD800) * 0x400 + (low.toNat - 0xDC00)

/-- The code points of a string.  A lone surrogate is a code point of its own. -/
def points : List UInt16 → List Nat
  | [] => []
  | [unit] => [unit.toNat]
  | high :: low :: rest =>
      if isHigh high && isLow low then pair high low :: points rest
      else high.toNat :: points (low :: rest)

/-- The units of one code point. -/
def unitsOf (point : Nat) : List UInt16 :=
  if point < 0x10000 then [.ofNat point]
  else [.ofNat (0xD800 + (point - 0x10000) / 0x400), .ofNat (0xDC00 + (point - 0x10000) % 0x400)]

/-- The string of a list of code points. -/
def units (points : List Nat) : List UInt16 := points.flatMap unitsOf

/-- The string of characters, `encode_utf16`. -/
def ofChars (chars : List Char) : List UInt16 := units (chars.map Char.toNat)

/-- A code point that is not a surrogate. -/
def IsScalar (point : Nat) : Prop := point < 0xD800 ∨ 0xE000 ≤ point ∧ point < 0x110000

instance : DecidablePred IsScalar := fun point =>
  inferInstanceAs (Decidable (point < 0xD800 ∨ 0xE000 ≤ point ∧ point < 0x110000))

@[simp]
theorem units_nil : units [] = [] := rfl

@[simp]
theorem units_cons (point : Nat) (points : List Nat) :
    units (point :: points) = unitsOf point ++ units points := List.flatMap_cons

@[simp]
theorem units_append (earlier later : List Nat) :
    units (earlier ++ later) = units earlier ++ units later := List.flatMap_append

/-- A unit of a code point is the code point itself or a surrogate. -/
theorem of_mem_unitsOf {point : Nat} (bounded : point < 0x110000) {unit : UInt16}
    (member : unit ∈ unitsOf point) : unit.toNat = point ∨ 0xD800 ≤ unit.toNat := by
  by_cases small : point < 0x10000
  · rw [unitsOf, if_pos small, List.mem_singleton] at member
    left
    rw [member]
    exact UInt16.toNat_ofNat_of_lt' small
  · right
    rw [unitsOf, if_neg small, List.mem_cons, List.mem_singleton] at member
    rcases member with first | second
    · rw [first, UInt16.toNat_ofNat_of_lt' (by change _ < 65536; omega)]
      omega
    · rw [second, UInt16.toNat_ofNat_of_lt' (by change _ < 65536; omega)]
      omega

/-! ## From units to code points and back -/

theorem unitsOf_unit (unit : UInt16) : unitsOf unit.toNat = [unit] := by
  have bounded : unit.toNat < 0x10000 := unit.toNat_lt
  rw [unitsOf, if_pos bounded, UInt16.ofNat_toNat]

theorem unitsOf_pair {high low : UInt16} (is_high : isHigh high) (is_low : isLow low) :
    unitsOf (pair high low) = [high, low] := by
  simp only [isHigh, isLow, Bool.and_eq_true, decide_eq_true_eq] at is_high is_low
  have above : ¬ pair high low < 0x10000 := by
    unfold pair
    omega
  have first : 0xD800 + (pair high low - 0x10000) / 0x400 = high.toNat := by
    unfold pair
    omega
  have second : 0xDC00 + (pair high low - 0x10000) % 0x400 = low.toNat := by
    unfold pair
    omega
  rw [unitsOf, if_neg above, first, second, UInt16.ofNat_toNat, UInt16.ofNat_toNat]

/-- The code points of a string spell the string. -/
theorem units_points (text : List UInt16) : units (points text) = text := by
  induction text using points.induct with
  | case1 => rfl
  | case2 unit =>
      rw [points, units_cons, unitsOf_unit]
      rfl
  | case3 high low rest is_pair ih =>
      rw [points, if_pos is_pair, units_cons, ih]
      rw [Bool.and_eq_true] at is_pair
      rw [unitsOf_pair is_pair.1 is_pair.2]
      rfl
  | case4 high low rest no_pair ih =>
      rw [points, if_neg no_pair, units_cons, ih, unitsOf_unit]
      rfl

theorem points_lt {text : List UInt16} {point : Nat} (member : point ∈ points text) :
    point < 0x110000 := by
  induction text using points.induct with
  | case1 => cases member
  | case2 unit =>
      obtain rfl := List.mem_singleton.mp member
      exact Nat.lt_trans unit.toNat_lt (by decide)
  | case3 high low rest is_pair ih =>
      rw [points, if_pos is_pair] at member
      rcases List.mem_cons.mp member with same | later
      · simp only [isHigh, isLow, Bool.and_eq_true, decide_eq_true_eq] at is_pair
        unfold pair at same
        omega
      · exact ih later
  | case4 high low rest no_pair ih =>
      rw [points, if_neg no_pair] at member
      rcases List.mem_cons.mp member with rfl | later
      · exact Nat.lt_trans high.toNat_lt (by decide)
      · exact ih later

/-! ## From code points to units and back -/

/-- A unit that is no surrogate ends what comes before it. -/
theorem points_cons {unit : UInt16} (not_high : isHigh unit = false) (rest : List UInt16) :
    points (unit :: rest) = unit.toNat :: points rest := by
  cases rest with
  | nil => rfl
  | cons low rest => rw [points, not_high, Bool.false_and, if_neg Bool.false_ne_true]

theorem points_unitsOf_append {point : Nat} (scalar : IsScalar point) (rest : List UInt16) :
    points (unitsOf point ++ rest) = point :: points rest := by
  rw [IsScalar] at scalar
  by_cases small : point < 0x10000
  · have spelled : (UInt16.ofNat point).toNat = point := UInt16.toNat_ofNat_of_lt' small
    have not_high : isHigh (.ofNat point) = false := by
      rw [isHigh, spelled, Bool.and_eq_false_iff, decide_eq_false_iff_not,
        decide_eq_false_iff_not]
      omega
    rw [unitsOf, if_pos small, List.singleton_append, points_cons not_high, spelled]
  · have high_spelled : (UInt16.ofNat (0xD800 + (point - 0x10000) / 0x400)).toNat =
        0xD800 + (point - 0x10000) / 0x400 := UInt16.toNat_ofNat_of_lt' (by
      change _ < 65536
      omega)
    have low_spelled : (UInt16.ofNat (0xDC00 + (point - 0x10000) % 0x400)).toNat =
        0xDC00 + (point - 0x10000) % 0x400 := UInt16.toNat_ofNat_of_lt' (by
      change _ < 65536
      omega)
    have is_pair : isHigh (.ofNat (0xD800 + (point - 0x10000) / 0x400)) &&
        isLow (.ofNat (0xDC00 + (point - 0x10000) % 0x400)) := by
      simp only [isHigh, isLow, high_spelled, low_spelled, Bool.and_eq_true, decide_eq_true_eq]
      omega
    have whole : pair (.ofNat (0xD800 + (point - 0x10000) / 0x400))
        (.ofNat (0xDC00 + (point - 0x10000) % 0x400)) = point := by
      unfold pair
      rw [high_spelled, low_spelled]
      omega
    rw [unitsOf, if_neg small, List.cons_append, List.cons_append, List.nil_append, points,
      if_pos is_pair, whole]

/-- Code points that are no surrogates are read back. -/
theorem points_units {text : List Nat} (scalars : ∀ point ∈ text, IsScalar point) :
    points (units text) = text := by
  induction text with
  | nil => rfl
  | cons point text ih =>
      rw [units_cons, points_unitsOf_append (scalars point List.mem_cons_self),
        ih fun other member => scalars other (List.mem_cons_of_mem point member)]

end Utf16
