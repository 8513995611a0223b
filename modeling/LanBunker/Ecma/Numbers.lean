import Mathlib.Data.Int.Log
import Mathlib.Data.Rat.Floor
import Mathlib.Tactic.Linarith
import LanBunker.Ecma.Strings

/-!
# Numbers of ECMAScript

A Number is a binary64 value.  What `Number(text)` makes of a string, and the digits that a whole
Number prints.
-/

namespace Ecma

open Utf16

/-- A Number.  The two zeros are one value here. -/
inductive Number where
  | nan
  | infinite (negative : Bool)
  | finite (value : ℚ)
  deriving DecidableEq

/-! ## Rounding -/

/-- The closest whole number, and of two the even one. -/
def roundEven (value : ℚ) : ℤ :=
  let below := ⌊value⌋
  if value - below < 1 / 2 then below
  else if 1 / 2 < value - below then below + 1
  else if below % 2 = 0 then below else below + 1

/-- The place of the last of 53 bits, and 2⁻¹⁰⁷⁴ at the least. -/
def lastPlace (value : ℚ) : ℚ := 2 ^ max (Int.log 2 |value| - 52) (-1074)

/-- The value on the grid of its last place. -/
def onGrid (value : ℚ) : ℚ := roundEven (value / lastPlace value) * lastPlace value

/-- The Number closest to a value. -/
def Number.round (value : ℚ) : Number :=
  if 2 ^ 1024 ≤ |onGrid value| then .infinite (decide (value < 0)) else .finite (onGrid value)

@[simp]
theorem roundEven_intCast (value : ℤ) : roundEven value = value := by
  simp [roundEven]

/-- Whole numbers of 53 bits are Numbers. -/
theorem onGrid_natCast {value : ℕ} (small : value < 2 ^ 53) : onGrid value = value := by
  have digits : Int.log 2 |(value : ℚ)| = Nat.log 2 value := by
    rw [abs_of_nonneg (Nat.cast_nonneg value), Int.log_natCast]
  have log_le : Nat.log 2 value ≤ 52 := Nat.le_of_lt_succ (Nat.log_lt_of_lt_pow' (by omega) small)
  obtain ⟨spare, exponent⟩ : ∃ spare : ℕ,
      max ((Nat.log 2 value : ℤ) - 52) (-1074) = -(spare : ℤ) := ⟨52 - Nat.log 2 value, by omega⟩
  have place : lastPlace value = ((2 : ℚ) ^ spare)⁻¹ := by
    rw [lastPlace, digits, exponent, zpow_neg, zpow_natCast]
  have whole : (value : ℚ) / lastPlace value = ((value * 2 ^ spare : ℤ) : ℚ) := by
    rw [place, div_inv_eq_mul]
    push_cast
    rfl
  have positive : (2 : ℚ) ^ spare ≠ 0 := pow_ne_zero _ two_ne_zero
  rw [onGrid, whole, roundEven_intCast, place]
  push_cast
  rw [mul_assoc, mul_inv_cancel₀ positive, mul_one]

theorem Number.round_natCast {value : ℕ} (small : value < 2 ^ 53) :
    Number.round value = .finite value := by
  have bounded : ¬ (2 : ℚ) ^ 1024 ≤ |onGrid value| := by
    rw [onGrid_natCast small, abs_of_nonneg (Nat.cast_nonneg value), not_le]
    calc (value : ℚ) < 2 ^ 53 := by exact_mod_cast small
      _ ≤ 2 ^ 1024 := pow_le_pow_right₀ one_le_two (by omega)
  rw [Number.round, if_neg bounded, onGrid_natCast small]

/-! ## From a string to a Number -/

/-- The value of a digit of a base up to 16. -/
def digitOf (unit : UInt16) : Option Nat :=
  let code := unit.toNat
  if 0x30 ≤ code ∧ code ≤ 0x39 then some (code - 0x30)
  else if 0x41 ≤ code ∧ code ≤ 0x46 then some (code - 0x41 + 10)
  else if 0x61 ≤ code ∧ code ≤ 0x66 then some (code - 0x61 + 10)
  else none

def isDigit (base : Nat) (unit : UInt16) : Bool := (digitOf unit).any (· < base)

/-- The number that digits spell, the first one highest. -/
def ofDigits (base : Nat) (digits : List UInt16) : Nat :=
  digits.foldl (fun value unit => value * base + (digitOf unit).getD 0) 0

/-- One digit or more, and nothing else. -/
def digits? (base : Nat) (text : List UInt16) : Option Nat :=
  if !text.isEmpty && text.all (isDigit base) then some (ofDigits base text) else none

/-- The base that the mark of a `NonDecimalIntegerLiteral` stands for. -/
def baseOf (mark : UInt16) : Option Nat :=
  if isUnit 'b' mark || isUnit 'B' mark then some 2
  else if isUnit 'o' mark || isUnit 'O' mark then some 8
  else if isUnit 'x' mark || isUnit 'X' mark then some 16
  else none

/-- `NonDecimalIntegerLiteral`: no sign in front. -/
def nonDecimal? : List UInt16 → Option Nat
  | zero :: mark :: digits =>
      if isUnit '0' zero then (baseOf mark).bind fun base => digits? base digits else none
  | _ => none

/-- A sign, or none, and what follows. -/
def signed (text : List UInt16) : Bool × List UInt16 :=
  match text with
  | [] => (false, [])
  | mark :: rest =>
      if isUnit '-' mark then (true, rest)
      else if isUnit '+' mark then (false, rest)
      else (false, mark :: rest)

/-- `ExponentPart`, or nothing. -/
def exponent? : List UInt16 → Option ℤ
  | [] => some 0
  | mark :: rest =>
      if isUnit 'e' mark || isUnit 'E' mark then
        let (negative, digits) := signed rest
        (digits? 10 digits).map fun value => if negative then -(value : ℤ) else value
      else none

/-- The digits behind a decimal point, and what follows them. -/
def fraction : List UInt16 → List UInt16 × List UInt16
  | [] => ([], [])
  | mark :: rest =>
      if isUnit '.' mark then (rest.takeWhile (isDigit 10), rest.dropWhile (isDigit 10))
      else ([], mark :: rest)

/-- `StrUnsignedDecimalLiteral`, apart from `Infinity`. -/
def unsignedDecimal? (text : List UInt16) : Option ℚ :=
  let whole := text.takeWhile (isDigit 10)
  let (part, rest) := fraction (text.dropWhile (isDigit 10))
  if whole.isEmpty && part.isEmpty then none
  else (exponent? rest).map fun exponent : ℤ =>
    (ofDigits 10 (whole ++ part) : ℚ) * 10 ^ (exponent - (part.length : ℤ))

/-- `Infinity`. -/
def infinity : List UInt16 := ofChars ['I', 'n', 'f', 'i', 'n', 'i', 't', 'y']

/-- `StrDecimalLiteral`. -/
def decimal? (text : List UInt16) : Option Number :=
  let (negative, rest) := signed text
  if rest = infinity then some (.infinite negative)
  else (unsignedDecimal? rest).map fun value => .round (if negative then -value else value)

/-- `Number(text)`. -/
def Number.ofString (text : List UInt16) : Number :=
  let literal := trim text
  if literal.isEmpty then .finite 0
  else
    match nonDecimal? literal with
    | some value => .round value
    | none => (decimal? literal).getD .nan

/-! ## The digits of a whole Number -/

/-- The two multiples of a power of ten around a value, the closer one first. -/
def around (value place : Nat) : List Nat :=
  let low := value / 10 ^ place
  let above := value % 10 ^ place
  let below := 10 ^ place - above
  if above < below ∨ above = below ∧ low % 2 = 0 then
    [low * 10 ^ place, (low + 1) * 10 ^ place]
  else [(low + 1) * 10 ^ place, low * 10 ^ place]

/-- The decimals around a value, the ones of the fewest digits first. -/
def candidates (value : Nat) : List Nat :=
  (List.range (Nat.log 10 value + 2)).reverse.flatMap (around value)

/-- The decimal of the fewest digits that rounds to the value. -/
def shortest (value : Nat) : Nat :=
  ((candidates value).find? fun decimal : Nat =>
    Number.round decimal = .finite value).getD value

/-- `d.ddde+n`. -/
def exponential (decimal : Nat) : List Char :=
  let digits := (Nat.toDigits 10 decimal).rdropWhile (· == '0')
  digits.take 1 ++ (if digits.length = 1 then [] else '.' :: digits.drop 1) ++ ['e', '+'] ++
    Nat.toDigits 10 (Nat.log 10 decimal)

/-- `String(value)` of a positive whole Number. -/
def wholeText (value : Nat) : List Char :=
  let decimal := shortest value
  if decimal < 10 ^ 21 then Nat.toDigits 10 decimal else exponential decimal

/-- What prints is a candidate that rounds to the value, or the value. -/
theorem shortest_cases (value : Nat) :
    shortest value ∈ candidates value ∧ Number.round (shortest value) = .finite value ∨
      shortest value = value := by
  rw [shortest]
  cases found : (candidates value).find?
      fun decimal : Nat => Number.round decimal = .finite value with
  | none => exact .inr rfl
  | some decimal =>
      left
      have rounds := List.find?_some found
      rw [decide_eq_true_eq] at rounds
      exact ⟨List.mem_of_find?_eq_some found, rounds⟩

theorem mem_around_le {value place decimal : Nat} (member : decimal ∈ around value place) :
    decimal ≤ value + 10 ^ place := by
  have low : value / 10 ^ place * 10 ^ place ≤ value := Nat.div_mul_le_self _ _
  have high : (value / 10 ^ place + 1) * 10 ^ place ≤ value + 10 ^ place := by
    rw [Nat.add_mul, Nat.one_mul]
    omega
  rw [around] at member
  split at member
  all_goals
    rw [List.mem_cons, List.mem_singleton] at member
    omega

theorem shortest_le {value : Nat} (positive : 0 < value) : shortest value ≤ 11 * value := by
  rcases shortest_cases value with ⟨member, -⟩ | same
  · obtain ⟨place, listed, near⟩ := List.mem_flatMap.mp member
    rw [List.mem_reverse, List.mem_range] at listed
    have power : 10 ^ place ≤ 10 * value := by
      calc 10 ^ place ≤ 10 ^ (Nat.log 10 value + 1) := Nat.pow_le_pow_right (by omega) (by omega)
        _ = 10 ^ Nat.log 10 value * 10 := pow_succ _ _
        _ ≤ value * 10 := Nat.mul_le_mul_right 10 (Nat.pow_log_le_self 10 (by omega))
        _ = 10 * value := Nat.mul_comm _ _
    have bound := mem_around_le near
    omega
  · omega

/-- A small whole Number prints its own digits. -/
theorem shortest_of_lt {value : Nat} (positive : 0 < value) (small : 11 * value < 2 ^ 53) :
    shortest value = value := by
  rcases shortest_cases value with ⟨-, rounds⟩ | same
  · rw [Number.round_natCast (Nat.lt_of_le_of_lt (shortest_le positive) small),
      Number.finite.injEq, Nat.cast_inj] at rounds
    exact rounds
  · exact same

/-! ## Decimal digits are read back -/

section Decimal

variable {chars : List Char}

/-- A decimal digit is one unit. -/
theorem unitsOf_of_isDigit {c : Char} (digit : c.isDigit) :
    ∃ unit, unitsOf c.toNat = [unit] ∧ unit.toNat = c.toNat ∧
      digitOf unit = some (c.toNat - '0'.toNat) := by
  have bounds : 0x30 ≤ c.toNat ∧ c.toNat ≤ 0x39 := Char.isDigit_iff_toNat.mp digit
  rcases unitsOf_cases c with ⟨unit, spelled, same, -⟩ | ⟨-, -, -, -, -, large⟩
  · refine ⟨unit, spelled, same, ?_⟩
    simp only [digitOf]
    rw [same, if_pos bounds]
    rfl
  · omega

theorem isDigit_of_mem {unit : UInt16} (digits : ∀ c ∈ chars, c.isDigit)
    (member : unit ∈ ofChars chars) : isDigit 10 unit ∧ 0x30 ≤ unit.toNat ∧ unit.toNat ≤ 0x39 := by
  induction chars with
  | nil => cases member
  | cons c chars ih =>
      obtain ⟨first, spelled, same, value⟩ := unitsOf_of_isDigit (digits c List.mem_cons_self)
      have bounds : 0x30 ≤ c.toNat ∧ c.toNat ≤ 0x39 :=
        Char.isDigit_iff_toNat.mp (digits c List.mem_cons_self)
      rw [ofChars_cons, spelled, List.singleton_append, List.mem_cons] at member
      rcases member with rfl | later
      · rw [isDigit, value, Option.any_some, decide_eq_true_eq, same]
        change c.toNat - 0x30 < 10 ∧ _
        omega
      · exact ih (fun other listed => digits other (List.mem_cons_of_mem c listed)) later

theorem ofDigits_ofChars (digits : ∀ c ∈ chars, c.isDigit) :
    ofDigits 10 (ofChars chars) = Nat.ofDigitChars 10 chars 0 := by
  have from_any : ∀ start, (ofChars chars).foldl
      (fun value unit => value * 10 + (digitOf unit).getD 0) start =
        Nat.ofDigitChars 10 chars start := by
    induction chars with
    | nil =>
        intro start
        rw [Nat.ofDigitChars_nil]
        rfl
    | cons c chars ih =>
        intro start
        obtain ⟨first, spelled, -, value⟩ := unitsOf_of_isDigit (digits c List.mem_cons_self)
        rw [ofChars_cons, spelled, List.singleton_append, List.foldl_cons, value,
          ih fun other listed => digits other (List.mem_cons_of_mem c listed),
          Nat.ofDigitChars_cons, Option.getD_some, Nat.mul_comm]
  exact from_any 0

theorem trim_digits (digits : ∀ c ∈ chars, c.isDigit) : trim (ofChars chars) = ofChars chars := by
  refine trim_eq_self fun unit member => ?_
  obtain ⟨-, low, high⟩ := isDigit_of_mem digits member
  simp only [isSpace, Bool.or_eq_false_iff, Bool.and_eq_false_iff, decide_eq_false_iff_not,
    beq_eq_false_iff_ne]
  omega

theorem isUnit_eq_false {c : Char} {unit : UInt16} (other : unit.toNat ≠ c.toNat) :
    isUnit c unit = false := by
  rw [isUnit, beq_eq_false_iff_ne]
  exact other

theorem nonDecimal?_digits (digits : ∀ c ∈ chars, c.isDigit) :
    nonDecimal? (ofChars chars) = none := by
  cases spelled : ofChars chars with
  | nil => rfl
  | cons zero rest =>
      cases rest with
      | nil => rfl
      | cons mark rest =>
          have member : mark ∈ ofChars chars := by simp [spelled]
          obtain ⟨-, low, high⟩ := isDigit_of_mem digits member
          have no_base : baseOf mark = none := by
            rw [baseOf, isUnit_eq_false, isUnit_eq_false, isUnit_eq_false, isUnit_eq_false,
              isUnit_eq_false, isUnit_eq_false]
            · rfl
            all_goals
              simp only [Char.reduceToNat]
              omega
          rw [nonDecimal?, no_base, Option.bind_none, ite_self]

theorem signed_digits (digits : ∀ c ∈ chars, c.isDigit) :
    signed (ofChars chars) = (false, ofChars chars) := by
  cases spelled : ofChars chars with
  | nil => rfl
  | cons mark rest =>
      have member : mark ∈ ofChars chars := by simp [spelled]
      obtain ⟨-, low, high⟩ := isDigit_of_mem digits member
      rw [signed, isUnit_eq_false, isUnit_eq_false]
      · rfl
      all_goals
        simp only [Char.reduceToNat]
        omega

theorem isEmpty_ofChars (nonempty : chars ≠ []) : (ofChars chars).isEmpty = false := by
  have longer := length_le_ofChars chars
  have positive := List.length_pos_iff.mpr nonempty
  rw [List.isEmpty_eq_false_iff, ← List.length_pos_iff]
  omega

theorem unsignedDecimal?_digits (digits : ∀ c ∈ chars, c.isDigit) (nonempty : chars ≠ []) :
    unsignedDecimal? (ofChars chars) = some (Nat.ofDigitChars 10 chars 0 : ℚ) := by
  have all : ∀ unit ∈ ofChars chars, isDigit 10 unit := fun unit member =>
    (isDigit_of_mem digits member).1
  rw [unsignedDecimal?, List.takeWhile_eq_self_iff.mpr all, List.dropWhile_eq_nil_iff.mpr all]
  simp [fraction, exponent?, isEmpty_ofChars nonempty, ofDigits_ofChars digits]

/-- Decimal digits are the Number closest to what they spell. -/
theorem Number.ofString_digits (digits : ∀ c ∈ chars, c.isDigit) (nonempty : chars ≠ []) :
    Number.ofString (ofChars chars) = .round (Nat.ofDigitChars 10 chars 0 : ℕ) := by
  have not_infinity : ofChars chars ≠ infinity := by
    intro same
    have letter : isDigit 10 (.ofNat 'I'.toNat) := by
      refine (isDigit_of_mem digits ?_).1
      rw [same]
      decide
    exact absurd letter (by decide)
  have literal : decimal? (ofChars chars) =
      some (.round (Nat.ofDigitChars 10 chars 0 : ℕ)) := by
    rw [decimal?, signed_digits digits]
    simp only [if_neg not_infinity, unsignedDecimal?_digits digits nonempty, Option.map_some,
      Bool.false_eq_true, if_false]
  rw [Number.ofString, trim_digits digits, isEmpty_ofChars nonempty, nonDecimal?_digits digits,
    literal]
  rfl

/-- A whole number of 53 bits is read from its digits. -/
theorem Number.ofString_toDigits {value : ℕ} (small : value < 2 ^ 53) :
    Number.ofString (ofChars (Nat.toDigits 10 value)) = .finite value := by
  rw [Number.ofString_digits, Nat.ofDigitChars_ten_toDigits, Number.round_natCast small]
  · intro c member
    exact Nat.isDigit_of_mem_toDigits (by decide) (Nat.le_refl 10) member
  · exact Nat.toDigits_ne_nil

end Decimal
end Ecma
