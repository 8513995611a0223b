import Mathlib.Algebra.Order.Ring.Int
import Mathlib.Data.List.Infix
import Mathlib.Data.Nat.Digits.Defs

/-!
# Texts in columns

What a check on a text column can say: its length, and a pattern.  Numbers of a fixed width as a
text column spells them, the pieces of a text and the order of texts.
-/

namespace Relational

/-! ## Patterns -/

/-- One item of a `GLOB` pattern. -/
inductive GlobItem where
  /-- `*`, any text. -/
  | star
  /-- `[..]`, one character in one of the ranges. -/
  | oneOf (ranges : List (Char × Char))
  /-- `[^..]`, one character in none of the ranges. -/
  | noneOf (ranges : List (Char × Char))
  deriving DecidableEq, Repr

/-- The character is in one of the ranges. -/
def inRanges (ranges : List (Char × Char)) (c : Char) : Bool :=
  ranges.any fun range => range.1 ≤ c ∧ c ≤ range.2

theorem inRanges_iff {ranges : List (Char × Char)} {c : Char} :
    inRanges ranges c = true ↔
      ∃ range ∈ ranges, range.1.toNat ≤ c.toNat ∧ c.toNat ≤ range.2.toNat := by
  simp only [inRanges, List.any_eq_true, decide_eq_true_eq]
  rfl

/-- The whole text matches the pattern. -/
def glob : List GlobItem → List Char → Bool
  | [], chars => chars.isEmpty
  | .star :: pattern, chars => chars.tails.any (glob pattern)
  | .oneOf ranges :: pattern, c :: chars => inRanges ranges c && glob pattern chars
  | .noneOf ranges :: pattern, c :: chars => !inRanges ranges c && glob pattern chars
  | .oneOf _ :: _, [] => false
  | .noneOf _ :: _, [] => false

/-- `*` at the end takes the rest. -/
theorem glob_star (chars : List Char) : glob [.star] chars = true := by
  rw [glob, List.any_eq_true]
  exact ⟨[], (List.mem_tails _ _).mpr (List.nil_suffix), rfl⟩

/-- `*[^..]*`: some character is in none of the ranges. -/
theorem glob_outside (ranges : List (Char × Char)) (chars : List Char) :
    glob [.star, .noneOf ranges, .star] chars = chars.any fun c => !inRanges ranges c := by
  induction chars with
  | nil => rfl
  | cons c chars ih =>
      have first : glob [.noneOf ranges, .star] (c :: chars) = !inRanges ranges c := by
        rw [glob, glob_star, Bool.and_true]
      rw [glob, List.tails_cons, List.any_cons, List.any_cons, ← ih, first]
      rfl

/-- One character after the other. -/
theorem glob_oneOf_append {ranges : List (Char × Char)} {pattern : List GlobItem}
    {chars rest : List Char} (inside : ∀ c ∈ chars, inRanges ranges c) :
    glob (List.replicate chars.length (.oneOf ranges) ++ pattern) (chars ++ rest) =
      glob pattern rest := by
  induction chars with
  | nil => rfl
  | cons c chars ih =>
      rw [List.length_cons, List.replicate_succ, List.cons_append, List.cons_append, glob,
        inside c List.mem_cons_self, Bool.true_and]
      exact ih fun other member => inside other (List.mem_cons_of_mem _ member)

/-! ## Numerals -/

/-- The last `width` decimal digits of a number, with leading zeros. -/
def numeral : Nat → Nat → List Char
  | 0, _ => []
  | width + 1, value => numeral width (value / 10) ++ [Nat.digitChar (value % 10)]

/-- The number that decimal digits spell. -/
def numeral? (digits : List Char) : Option Nat :=
  digits.foldlM (fun value c =>
    if c.isDigit then some (value * 10 + (c.toNat - '0'.toNat)) else none) 0

private theorem digitChar_spells : ∀ digit < 10, (Nat.digitChar digit).isDigit = true ∧
    (Nat.digitChar digit).toNat - '0'.toNat = digit := by decide

theorem numeral_length (width value : Nat) : (numeral width value).length = width := by
  induction width generalizing value with
  | zero => rfl
  | succ width ih => rw [numeral, List.length_append, ih, List.length_singleton]

theorem isDigit_of_mem_numeral {width value : Nat} {c : Char} (member : c ∈ numeral width value) :
    c.isDigit := by
  induction width generalizing value with
  | zero => cases member
  | succ width ih =>
      rcases List.mem_append.mp member with earlier | last
      · exact ih earlier
      · obtain rfl := List.mem_singleton.mp last
        exact (digitChar_spells _ (Nat.mod_lt _ (by omega))).1

/-- A number that fits is read back. -/
theorem numeral?_numeral {width value : Nat} (fits : value < 10 ^ width) :
    numeral? (numeral width value) = some value := by
  induction width generalizing value with
  | zero =>
      obtain rfl : value = 0 := by simpa using fits
      rfl
  | succ width ih =>
      have shorter : value / 10 < 10 ^ width := by
        rw [Nat.div_lt_iff_lt_mul (by omega)]
        rwa [Nat.pow_succ] at fits
      obtain ⟨is_digit, spelled⟩ := digitChar_spells (value % 10) (Nat.mod_lt _ (by omega))
      have earlier := ih shorter
      rw [numeral?] at earlier ⊢
      rw [numeral, List.foldlM_append, earlier]
      simp only [Option.bind_eq_bind, Option.bind_some, List.foldlM_cons, List.foldlM_nil,
        is_digit, if_true, spelled, pure]
      congr 1
      omega

/-! ## Pieces of a text -/

/-- `instr`: where the piece starts first, counted from 1, and 0 where it does not occur. -/
def instr (text piece : List Char) : Nat :=
  if piece.isPrefixOf text then 1
  else
    match text with
    | [] => 0
    | _ :: rest => if instr rest piece = 0 then 0 else instr rest piece + 1

theorem instr_pos {text piece : List Char} : 0 < instr text piece ↔ piece <:+: text := by
  induction text with
  | nil =>
      rw [instr, List.infix_nil]
      cases piece <;> simp
  | cons c rest ih =>
      rw [instr, List.infix_cons_iff, ← ih]
      by_cases starts : piece <+: c :: rest
      · simp [starts]
      · by_cases nowhere : instr rest piece = 0
        · simp [starts, nowhere]
        · simp [starts, nowhere, Nat.pos_of_ne_zero]

/-! ## The order of texts -/

/-- `memcmp` of two texts: the first character that differs decides, and a prefix comes first. -/
def compareText : List Char → List Char → Ordering := List.compareLex (compareOn Char.toNat)

instance : Std.TransCmp compareText :=
  inferInstanceAs (Std.TransCmp (List.compareLex (compareOn Char.toNat)))

/-- Of two texts that begin with parts of one length, these parts decide first. -/
theorem compareText_append {left right : List Char} (same : left.length = right.length)
    (left_rest right_rest : List Char) :
    compareText (left ++ left_rest) (right ++ right_rest) =
      (compareText left right).then (compareText left_rest right_rest) := by
  induction left generalizing right with
  | nil =>
      obtain rfl := List.length_eq_zero_iff.mp same.symm
      rfl
  | cons c left ih =>
      cases right with
      | nil => cases same
      | cons d right =>
          have rest := ih (Nat.succ.inj same)
          rw [compareText] at rest ⊢
          rw [List.cons_append, List.cons_append, List.compareLex_cons_cons,
            List.compareLex_cons_cons, rest, Ordering.then_assoc]

private theorem compare_digitChar : ∀ left < 10, ∀ right < 10,
    compare (Nat.digitChar left).toNat (Nat.digitChar right).toNat = compare left right := by
  decide

private theorem compare_div_mod (left right : Nat) :
    (compare (left / 10) (right / 10)).then (compare (left % 10) (right % 10)) =
      compare left right := by
  rcases lt_trichotomy (left / 10) (right / 10) with less | same | greater
  · have whole : left < right := by omega
    rw [Nat.compare_eq_lt.mpr less, Nat.compare_eq_lt.mpr whole]
    rfl
  · rw [Nat.compare_eq_eq.mpr same]
    rcases lt_trichotomy (left % 10) (right % 10) with last_less | last_same | last_greater
    · have whole : left < right := by omega
      rw [Nat.compare_eq_lt.mpr last_less, Nat.compare_eq_lt.mpr whole]
      rfl
    · have whole : left = right := by omega
      rw [Nat.compare_eq_eq.mpr last_same, Nat.compare_eq_eq.mpr whole]
      rfl
    · have whole : right < left := by omega
      rw [Nat.compare_eq_gt.mpr last_greater, Nat.compare_eq_gt.mpr whole]
      rfl
  · have whole : right < left := by omega
    rw [Nat.compare_eq_gt.mpr greater, Nat.compare_eq_gt.mpr whole]
    rfl

/-- Numerals of one width are ordered as their numbers. -/
theorem compareText_numeral {width left right : Nat} (left_fits : left < 10 ^ width)
    (right_fits : right < 10 ^ width) :
    compareText (numeral width left) (numeral width right) = compare left right := by
  induction width generalizing left right with
  | zero =>
      obtain rfl : left = 0 := by simpa using left_fits
      obtain rfl : right = 0 := by simpa using right_fits
      rfl
  | succ width ih =>
      rw [Nat.pow_succ] at left_fits right_fits
      have earlier : compareText (numeral width (left / 10)) (numeral width (right / 10)) =
          compare (left / 10) (right / 10) :=
        ih ((Nat.div_lt_iff_lt_mul (by omega)).mpr left_fits)
          ((Nat.div_lt_iff_lt_mul (by omega)).mpr right_fits)
      have last : compareText [Nat.digitChar (left % 10)] [Nat.digitChar (right % 10)] =
          compare (left % 10) (right % 10) := by
        rw [compareText, List.compareLex_cons_cons, List.compareLex_nil_nil, Ordering.then_eq,
          compareOn]
        exact compare_digitChar _ (Nat.mod_lt _ (by omega)) _ (Nat.mod_lt _ (by omega))
      have same_length : (numeral width (left / 10)).length =
          (numeral width (right / 10)).length := by rw [numeral_length, numeral_length]
      rw [numeral, numeral, compareText_append same_length, earlier, last, compare_div_mod]

end Relational
