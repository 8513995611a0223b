import LanBunker.Storage.Stored

/-!
# Moments

A day and a time of day with an offset, as RFC 3339 spells it: the seconds may be left out, as
ISO 8601 allows.
-/

namespace LanBunker

open Relational

/-- Seconds, and the digits behind their point. -/
structure Seconds where
  whole : Fin 60
  fraction : List (Fin 10)
  deriving DecidableEq, Repr

/-- A distance from UTC. -/
structure Offset where
  behind : Bool
  hours : Fin 24
  minutes : Fin 60
  deriving DecidableEq, Repr

/-- No seconds are none spelled, and no offset is `Z`. -/
structure Timestamp where
  date : Date
  year_nonneg : 0 ≤ date.year
  hour : Fin 24
  minute : Fin 60
  seconds : Option Seconds
  offset : Option Offset
  deriving DecidableEq, Repr

/-! ## The text of a moment -/

/-- A point and digits, or nothing. -/
def fractionText (fraction : List (Fin 10)) : List Char :=
  if fraction.isEmpty then []
  else '.' :: fraction.map fun digit : Fin 10 => Nat.digitChar digit.val

def Seconds.text (seconds : Seconds) : List Char :=
  ':' :: (numeral 2 seconds.whole ++ fractionText seconds.fraction)

def Offset.text (offset : Offset) : List Char :=
  (if offset.behind then '-' else '+') :: numeral 2 offset.hours ++ ':' :: numeral 2 offset.minutes

/-- What follows the hours and the minutes. -/
def Timestamp.tail (moment : Timestamp) : List Char :=
  moment.seconds.elim [] Seconds.text ++ moment.offset.elim ['Z'] Offset.text

def Timestamp.text (moment : Timestamp) : List Char :=
  formatDay moment.date ++ 'T' :: numeral 2 moment.hour ++ ':' :: numeral 2 moment.minute ++
    moment.tail

/-! ## The instant of a moment -/

/-- The days from 1970-01-01, with years that begin in March. -/
def Date.days (date : Date) : Int :=
  let year := if date.month ≤ 2 then date.year - 1 else date.year
  let month : Int := (date.month + 9) % 12
  365 * year + year / 4 - year / 100 + year / 400 + (153 * month + 2) / 5 + date.day - 719469

/-- The first nine digits behind the point. -/
def Seconds.nanos (seconds : Seconds) : Nat :=
  ((seconds.fraction ++ List.replicate 9 0).take 9).foldl
    (fun (value : Nat) (digit : Fin 10) => value * 10 + digit.val) 0

def Offset.toMinutes (offset : Offset) : Int :=
  let distance : Int := offset.hours * 60 + offset.minutes
  if offset.behind then -distance else distance

def Timestamp.instant (moment : Timestamp) : Instant :=
  let minutes := moment.date.days * 1440 + moment.hour * 60 + moment.minute -
    moment.offset.elim 0 Offset.toMinutes
  let seconds : Int := minutes * 60 + moment.seconds.elim 0 fun seconds => (seconds.whole : Nat)
  seconds * 1000000000 + moment.seconds.elim 0 fun seconds => (seconds.nanos : Int)

/-- No fraction of a second is spelled, or milliseconds. -/
def Timestamp.IsMillis (moment : Timestamp) : Prop :=
  ∀ seconds, moment.seconds = some seconds →
    seconds.fraction = [] ∨ seconds.fraction.length = 3

/-! ## Reading the text of a moment -/

/-- A number below a bound. -/
def below? (bound value : Nat) : Option (Fin bound) :=
  if less : value < bound then some ⟨value, less⟩ else none

/-- The digits behind a point, and what follows them.  A point has a digit behind it. -/
def readFraction : List Char → Option (List (Fin 10) × List Char)
  | '.' :: rest =>
      let digits := rest.takeWhile Char.isDigit
      if digits.isEmpty then none
      else
        some (digits.map fun c => Fin.ofNat 10 (c.toNat - '0'.toNat), rest.dropWhile Char.isDigit)
  | rest => some ([], rest)

/-- The seconds, if there are any, and what follows them. -/
def readSeconds : List Char → Option (Option Seconds × List Char)
  | ':' :: s₁ :: s₂ :: rest => do
      let whole ← (numeral? [s₁, s₂]).bind (below? 60)
      let fraction ← readFraction rest
      some (some ⟨whole, fraction.1⟩, fraction.2)
  | rest => some (none, rest)

/-- The end of a moment: `Z`, or a sign, hours and minutes. -/
def readOffset : List Char → Option (Option Offset)
  | ['Z'] => some none
  | [sign, h₁, h₂, ':', m₁, m₂] => do
      let behind ← if sign = '-' then some true else if sign = '+' then some false else none
      let hours ← (numeral? [h₁, h₂]).bind (below? 24)
      let minutes ← (numeral? [m₁, m₂]).bind (below? 60)
      some (some ⟨behind, hours, minutes⟩)
  | _ => none

/-- A moment from the `T` on. -/
def readTime (date : Date) (year_nonneg : 0 ≤ date.year) : List Char → Option Timestamp
  | 'T' :: h₁ :: h₂ :: ':' :: m₁ :: m₂ :: rest => do
      let hour ← (numeral? [h₁, h₂]).bind (below? 24)
      let minute ← (numeral? [m₁, m₂]).bind (below? 60)
      let seconds ← readSeconds rest
      let offset ← readOffset seconds.2
      some ⟨date, year_nonneg, hour, minute, seconds.1, offset⟩
  | _ => none

/-- The day is the first ten characters. -/
def Timestamp.read (text : List Char) : Option Timestamp :=
  (parseDay (text.take 10)).bind fun date =>
    if year_nonneg : 0 ≤ date.year then readTime date year_nonneg (text.drop 10) else none

/-- Two digits, read back. -/
theorem numeral_two {bound : Nat} (small : bound ≤ 100) (value : Fin bound) :
    ∃ first second, numeral 2 value = [first, second] ∧
      (numeral? [first, second]).bind (below? bound) = some value := by
  have fits : value.val < 10 ^ 2 := Nat.lt_of_lt_of_le value.isLt small
  have read := numeral?_numeral fits
  refine ⟨_, _, rfl, ?_⟩
  rw [numeral, numeral, numeral, List.nil_append, List.singleton_append] at read
  rw [read, Option.bind_some, below?, dif_pos value.isLt]

theorem digit_read (digit : Fin 10) : (Nat.digitChar digit).isDigit ∧
    Fin.ofNat 10 ((Nat.digitChar digit).toNat - '0'.toNat) = digit := by
  revert digit
  decide

/-- No text of an offset begins like a point, like seconds or with a digit. -/
theorem offset_head (offset : Option Offset) : ∃ mark rest,
    offset.elim ['Z'] Offset.text = mark :: rest ∧ (mark = 'Z' ∨ mark = '-' ∨ mark = '+') := by
  cases offset with
  | none => exact ⟨'Z', [], rfl, .inl rfl⟩
  | some offset =>
      refine ⟨if offset.behind then '-' else '+', _, rfl, ?_⟩
      cases offset.behind
      · exact .inr (.inr rfl)
      · exact .inr (.inl rfl)

theorem readOffset_text (offset : Option Offset) :
    readOffset (offset.elim ['Z'] Offset.text) = some offset := by
  cases offset with
  | none => rfl
  | some offset =>
      obtain ⟨behind, hours, minutes⟩ := offset
      obtain ⟨h₁, h₂, hours_spelled, hours_read⟩ := numeral_two (by decide) hours
      obtain ⟨m₁, m₂, minutes_spelled, minutes_read⟩ := numeral_two (by decide) minutes
      rw [Option.elim_some, Offset.text, hours_spelled, minutes_spelled]
      cases behind
      all_goals
        simp only [List.cons_append, List.nil_append, readOffset, hours_read, minutes_read]
        rfl

theorem readFraction_text (fraction : List (Fin 10)) (offset : Option Offset) :
    readFraction (fractionText fraction ++ offset.elim ['Z'] Offset.text) =
      some (fraction, offset.elim ['Z'] Offset.text) := by
  obtain ⟨mark, rest, spelled, kinds⟩ := offset_head offset
  rw [spelled]
  by_cases empty : fraction = []
  · subst empty
    rcases kinds with rfl | rfl | rfl
    all_goals rfl
  · let digitText := fraction.map fun digit : Fin 10 => Nat.digitChar digit.val
    have no_digit : mark.isDigit = false := by
      rcases kinds with rfl | rfl | rfl
      all_goals rfl
    have digits : ∀ c ∈ digitText, c.isDigit := by
      intro c member
      obtain ⟨digit, -, rfl⟩ := List.mem_map.mp member
      exact (digit_read digit).1
    have taken : (digitText ++ mark :: rest).takeWhile Char.isDigit = digitText := by
      rw [List.takeWhile_append_of_pos digits, List.takeWhile_cons_of_neg (by simp [no_digit]),
        List.append_nil]
    have left : (digitText ++ mark :: rest).dropWhile Char.isDigit = mark :: rest := by
      rw [List.dropWhile_append_of_pos digits, List.dropWhile_cons_of_neg (by simp [no_digit])]
    have back : digitText.map (fun c => Fin.ofNat 10 (c.toNat - '0'.toNat)) = fraction := by
      rw [List.map_map]
      exact List.map_id'' (fun digit => (digit_read digit).2) fraction
    have some_digit : digitText.isEmpty = false := by
      rw [List.isEmpty_eq_false_iff]
      exact fun none_left => empty (List.map_eq_nil_iff.mp none_left)
    have point : fractionText fraction = '.' :: digitText := by
      rw [fractionText, if_neg (by rwa [List.isEmpty_iff])]
    rw [point, List.cons_append, readFraction]
    simp only [taken, left, back, some_digit, Bool.false_eq_true, if_false]

theorem readSeconds_text (seconds : Option Seconds) (offset : Option Offset) :
    readSeconds (seconds.elim [] Seconds.text ++ offset.elim ['Z'] Offset.text) =
      some (seconds, offset.elim ['Z'] Offset.text) := by
  cases seconds with
  | none =>
      obtain ⟨mark, rest, spelled, kinds⟩ := offset_head offset
      rw [spelled]
      rcases kinds with rfl | rfl | rfl
      all_goals rfl
  | some seconds =>
      obtain ⟨s₁, s₂, spelled, read⟩ := numeral_two (by decide) seconds.whole
      have parts : seconds.text ++ offset.elim ['Z'] Offset.text =
          ':' :: s₁ :: s₂ :: (fractionText seconds.fraction ++
            offset.elim ['Z'] Offset.text) := by
        rw [Seconds.text, spelled]
        simp
      rw [Option.elim_some, parts, readSeconds, read, readFraction_text]
      rfl

theorem formatDay_length {date : Date} (year_nonneg : 0 ≤ date.year) :
    (formatDay date).length = 10 := by
  rw [formatDay_of_nonneg year_nonneg]
  simp [numeral_length]

/-- A moment is read back from its text. -/
theorem Timestamp.read_text (moment : Timestamp) : Timestamp.read moment.text = some moment := by
  obtain ⟨h₁, h₂, hour_spelled, hour_read⟩ := numeral_two (by decide) moment.hour
  obtain ⟨m₁, m₂, minute_spelled, minute_read⟩ := numeral_two (by decide) moment.minute
  have day := formatDay_length moment.year_nonneg
  have parts : moment.text = formatDay moment.date ++
      'T' :: h₁ :: h₂ :: ':' :: m₁ :: m₂ :: moment.tail := by
    rw [Timestamp.text, hour_spelled, minute_spelled]
    simp
  rw [Timestamp.read, parts, List.take_left' day, List.drop_left' day,
    parseDay_formatDay moment.date moment.year_nonneg, Option.bind_some,
    dif_pos moment.year_nonneg, readTime, hour_read, minute_read, Timestamp.tail, readSeconds_text]
  simp only [Option.bind_eq_bind, Option.bind_some, readOffset_text]

/-- Moments are told apart by their texts. -/
theorem Timestamp.text_injective : Function.Injective Timestamp.text := by
  intro moment other same
  have read := other.read_text
  rw [← same, moment.read_text] at read
  exact Option.some.inj read

/-- The seventeenth character of a moment is a colon exactly when it has seconds. -/
theorem Timestamp.colon_iff (moment : Timestamp) :
    moment.text[16]? = some ':' ↔ moment.seconds.isSome := by
  obtain ⟨h₁, h₂, hour_spelled, -⟩ := numeral_two (by decide) moment.hour
  obtain ⟨m₁, m₂, minute_spelled, -⟩ := numeral_two (by decide) moment.minute
  have start : (formatDay moment.date ++ ['T', h₁, h₂, ':', m₁, m₂]).length = 16 := by
    rw [List.length_append, formatDay_length moment.year_nonneg]
    rfl
  have parts : moment.text = (formatDay moment.date ++ ['T', h₁, h₂, ':', m₁, m₂]) ++
      moment.tail := by
    rw [Timestamp.text, hour_spelled, minute_spelled]
    simp
  rw [parts, List.getElem?_append_right start.le, start, Nat.sub_self, Timestamp.tail]
  cases moment.seconds with
  | none =>
      obtain ⟨mark, rest, spelled, kinds⟩ := offset_head moment.offset
      rw [Option.elim_none, List.nil_append, spelled]
      rcases kinds with rfl | rfl | rfl
      all_goals simp
  | some seconds => exact iff_of_true rfl rfl

end LanBunker
