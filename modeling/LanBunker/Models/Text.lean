import Mathlib.Data.List.DropRight
import Mathlib.Order.Basic

/-!
# Texts

The bounded texts of the domain.  A constructor of the source trims and then validates, so a value
is trimmed and its length is in bounds.
-/

namespace LanBunker

/-- `char::is_whitespace`, the Unicode property `White_Space`. -/
def isWhitespace (c : Char) : Bool :=
  let code := c.toNat
  (9 ≤ code && code ≤ 13) || code == 0x20 || code == 0x85 || code == 0xA0 || code == 0x1680 ||
    (0x2000 ≤ code && code ≤ 0x200A) || code == 0x2028 || code == 0x2029 || code == 0x202F ||
    code == 0x205F || code == 0x3000

/-- No whitespace at either end. -/
def isTrimmed (chars : List Char) : Bool :=
  chars.head?.all (fun c => !isWhitespace c) && chars.getLast?.all fun c => !isWhitespace c

/-- `str::trim`. -/
def trim (chars : List Char) : List Char :=
  (chars.dropWhile isWhitespace).rdropWhile isWhitespace

theorem trim_of_isTrimmed {chars : List Char} (trimmed : isTrimmed chars) : trim chars = chars := by
  rw [isTrimmed, Bool.and_eq_true] at trimmed
  obtain ⟨head, last⟩ := trimmed
  have left : chars.dropWhile isWhitespace = chars := by
    cases chars with
    | nil => rfl
    | cons c rest => exact List.dropWhile_cons_of_neg (by simpa using head)
  rw [trim, left, List.rdropWhile_eq_self_iff]
  intro nonempty
  rw [List.getLast?_eq_some_getLast nonempty] at last
  simpa using last

/-- A text without whitespace is trimmed. -/
theorem trim_of_all {chars : List Char} (spaceless : ∀ c ∈ chars, isWhitespace c = false) :
    trim chars = chars := by
  refine trim_of_isTrimmed ?_
  rw [isTrimmed, Bool.and_eq_true, Option.all_eq_true, Option.all_eq_true]
  constructor
  · intro c first
    rw [spaceless c (List.mem_of_mem_head? first)]
    rfl
  · intro c last
    rw [spaceless c (List.mem_of_mem_getLast? last)]
    rfl

theorem isTrimmed_trim (chars : List Char) : isTrimmed (trim chars) := by
  rw [isTrimmed, trim, Bool.and_eq_true]
  constructor
  · cases kept : (chars.dropWhile isWhitespace).rdropWhile isWhitespace with
    | nil => rfl
    | cons c tail =>
        obtain ⟨dropped, whole⟩ :=
          List.rdropWhile_prefix isWhitespace (chars.dropWhile isWhitespace)
        rw [kept, List.cons_append] at whole
        have first := List.head?_dropWhile_not isWhitespace chars
        rw [← whole] at first
        simpa using first
  · cases kept : ((chars.dropWhile isWhitespace).rdropWhile isWhitespace).getLast? with
    | none => rfl
    | some c =>
        have nonempty := List.ne_nil_of_mem (List.mem_of_getLast? kept)
        have last := List.rdropWhile_last_not isWhitespace (chars.dropWhile isWhitespace) nonempty
        rw [List.getLast?_eq_some_getLast nonempty] at kept
        obtain rfl := Option.some.inj kept
        simpa using last

theorem length_trim_le (chars : List Char) : (trim chars).length ≤ chars.length :=
  Nat.le_trans (List.rdropWhile_prefix _ _).length_le (List.dropWhile_suffix _).length_le

/-- Trimming leaves nothing of whitespace, and something of any other text. -/
theorem trim_eq_nil_iff {chars : List Char} : trim chars = [] ↔ chars.all isWhitespace := by
  rw [trim, List.rdropWhile_eq_nil_iff, List.all_eq_true]
  constructor
  · intro rest c member
    rw [← List.takeWhile_append_dropWhile (p := isWhitespace) (l := chars), List.mem_append]
      at member
    rcases member with before | after
    · exact List.mem_takeWhile_imp before
    · exact rest c after
  · intro all c member
    exact all c ((List.dropWhile_suffix _).mem member)

/-- A trimmed text of `shortest` to `longest` characters. -/
structure Text (shortest longest : Nat) where
  chars : List Char
  trimmed : isTrimmed chars
  long_enough : shortest ≤ chars.length
  short_enough : chars.length ≤ longest
  deriving DecidableEq, Repr

def Text.empty {longest : Nat} : Text 0 longest := ⟨[], rfl, Nat.zero_le _, Nat.zero_le _⟩

/-- The constructor: it trims and then validates. -/
def Text.tryNew {shortest longest : Nat} (raw : List Char) : Option (Text shortest longest) :=
  if fits : shortest ≤ (trim raw).length ∧ (trim raw).length ≤ longest then
    some ⟨trim raw, isTrimmed_trim raw, fits.1, fits.2⟩
  else none

theorem Text.isSome_tryNew {shortest longest : Nat} {raw : List Char} :
    (Text.tryNew raw : Option (Text shortest longest)).isSome ↔
      shortest ≤ (trim raw).length ∧ (trim raw).length ≤ longest := by
  rw [Text.tryNew, Option.isSome_dite]

/-- A text that is short enough is refused only when it is whitespace. -/
theorem Text.isSome_tryNew_one {longest : Nat} {raw : List Char} (short : raw.length ≤ longest) :
    (Text.tryNew raw : Option (Text 1 longest)).isSome ↔ ¬ raw.all isWhitespace := by
  rw [Text.isSome_tryNew, and_iff_left (Nat.le_trans (length_trim_le raw) short),
    ← trim_eq_nil_iff, Nat.one_le_iff_ne_zero, ne_eq, List.length_eq_zero_iff]

/-- A text that was built is built again from its characters. -/
theorem Text.tryNew_chars {shortest longest : Nat} (text : Text shortest longest) :
    Text.tryNew text.chars = some text := by
  have same := trim_of_isTrimmed text.trimmed
  have fits : shortest ≤ (trim text.chars).length ∧ (trim text.chars).length ≤ longest := by
    rw [same]
    exact ⟨text.long_enough, text.short_enough⟩
  rw [Text.tryNew, dif_pos fits]
  cases text
  simp only [same]

end LanBunker
