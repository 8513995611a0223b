import LanBunker.Models.Text
import LanBunker.Utf16.Chars

/-!
# Texts from the site

The site counts a text in UTF-16 units and the API in characters.  When the API takes a text of
the site.
-/

namespace LanBunker

open Utf16

/-- A text of the site as the API builds it.  A lone surrogate is no character. -/
def Text.ofUnits {shortest longest : Nat} (text : List UInt16) : Option (Text shortest longest) :=
  (chars? text).bind Text.tryNew

/-- A unit of the Unicode property `White_Space`. -/
def isWhite (unit : UInt16) : Bool := isWhitespace (Char.ofNat unit.toNat)

theorem onUnits_isWhitespace : OnUnits fun code => isWhitespace (Char.ofNat code) where
  surrogate code from_here to_here := by
    have no_scalar : ¬ IsScalar code := by
      rw [IsScalar]
      omega
    simp [isWhitespace, toNat_ofNat_of_not no_scalar]
  beyond code large := by
    by_cases scalar : IsScalar code
    · simp only [isWhitespace, toNat_ofNat scalar, Bool.or_eq_false_iff, Bool.and_eq_false_iff,
        decide_eq_false_iff_not, beq_eq_false_iff_ne]
      omega
    · simp [isWhitespace, toNat_ofNat_of_not scalar]

/-- A text that is read has no more characters than units. -/
theorem length_le_of_chars? {text : List UInt16} {chars : List Char}
    (read : chars? text = some chars) : chars.length ≤ text.length := by
  rw [← chars?_eq_some_iff.mp read]
  exact length_le_ofChars chars

/-- A short text may be empty. -/
theorem Text.isSome_ofUnits_zero {longest : Nat} {text : List UInt16}
    (short : text.length ≤ longest) :
    (Text.ofUnits text : Option (Text 0 longest)).isSome ↔ (chars? text).isSome := by
  rw [Text.ofUnits]
  cases read : chars? text with
  | none => rfl
  | some chars =>
      have few : (trim chars).length ≤ longest :=
        Nat.le_trans (Nat.le_trans (length_trim_le chars) (length_le_of_chars? read)) short
      rw [Option.bind_some, Text.isSome_tryNew, Option.isSome_some]
      exact iff_of_true ⟨Nat.zero_le _, few⟩ rfl

/-- A short text is taken when it spells characters and holds more than white space. -/
theorem Text.isSome_ofUnits_one {longest : Nat} {text : List UInt16}
    (short : text.length ≤ longest) :
    (Text.ofUnits text : Option (Text 1 longest)).isSome ↔
      (chars? text).isSome ∧ ∃ unit ∈ text, isWhite unit = false := by
  rw [Text.ofUnits]
  cases read : chars? text with
  | none => simp
  | some chars =>
      have marks := onUnits_isWhitespace.all_ofChars chars
      simp only [Char.ofNat_toNat] at marks
      rw [Option.bind_some, Option.isSome_some,
        Text.isSome_tryNew_one (Nat.le_trans (length_le_of_chars? read) short), ← marks,
        chars?_eq_some_iff.mp read, List.all_eq_true]
      simp [isWhite]

end LanBunker
