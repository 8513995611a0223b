import LanBunker.Utf16.Chars

/-!
# Strings of ECMAScript

A string is a list of 16-bit units.  Its white space and `trim`.
-/

namespace Ecma

open Utf16

/-- `WhiteSpace` and `LineTerminator`. -/
def isSpace (code : Nat) : Bool :=
  (9 ≤ code && code ≤ 13) || code == 0x20 || code == 0xA0 || code == 0x1680 ||
    (0x2000 ≤ code && code ≤ 0x200A) || code == 0x2028 || code == 0x2029 || code == 0x202F ||
    code == 0x205F || code == 0x3000 || code == 0xFEFF

/-- `trim`. -/
def trim (text : List UInt16) : List UInt16 :=
  (text.dropWhile fun unit => isSpace unit.toNat).rdropWhile fun unit => isSpace unit.toNat

/-- The unit is this character. -/
def isUnit (c : Char) (unit : UInt16) : Bool := unit.toNat == c.toNat

/-- `trim` on characters. -/
def trimChars (chars : List Char) : List Char :=
  (chars.dropWhile fun c => isSpace c.toNat).rdropWhile fun c => isSpace c.toNat

theorem onUnits_isSpace : OnUnits isSpace where
  surrogate code from_here to_here := by
    simp only [isSpace, Bool.or_eq_false_iff, Bool.and_eq_false_iff, decide_eq_false_iff_not,
      beq_eq_false_iff_ne]
    omega
  beyond code large := by
    simp only [isSpace, Bool.or_eq_false_iff, Bool.and_eq_false_iff, decide_eq_false_iff_not,
      beq_eq_false_iff_ne]
    omega

theorem trim_ofChars (chars : List Char) : trim (ofChars chars) = ofChars (trimChars chars) := by
  rw [trim, onUnits_isSpace.dropWhile_ofChars, onUnits_isSpace.rdropWhile_ofChars, trimChars]

/-- A string without white space is trimmed. -/
theorem trim_eq_self {text : List UInt16} (spaceless : ∀ unit ∈ text, isSpace unit.toNat = false) :
    trim text = text := by
  have left : (text.dropWhile fun unit => isSpace unit.toNat) = text := by
    cases text with
    | nil => rfl
    | cons unit rest =>
        rw [List.dropWhile_cons_of_neg (by rw [spaceless unit List.mem_cons_self]; decide)]
  rw [trim, left, List.rdropWhile_eq_self_iff]
  intro nonempty
  rw [spaceless _ (List.getLast_mem nonempty)]
  decide

end Ecma
