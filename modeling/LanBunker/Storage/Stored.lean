import LanBunker.Storage.Columns

/-!
# What the domain accepts and what the tables store

The types check a value in Rust and the tables check its columns in SQL.  The two differ on a text
that begins with a NUL, on an instant before the first microsecond of the epoch, on a window inside
one microsecond and on a year before 0.  An instant past the year 9999 is stored and never read
again.  On everything else a value is stored and read back.
-/

namespace LanBunker

open Relational EventStorage TournamentStorage

/-! ## Texts -/

/-- `length` of SQLite sees nothing of such a text. -/
def beginsWithNul (chars : List Char) : Bool := chars.head?.any fun c => c.toNat = 0

theorem sqlLength_le (chars : List Char) : sqlLength chars ≤ chars.length :=
  (List.takeWhile_sublist _).length_le

theorem sqlLength_pos_iff {chars : List Char} (nonempty : 1 ≤ chars.length) :
    1 ≤ sqlLength chars ↔ beginsWithNul chars = false := by
  cases chars with
  | nil => cases nonempty
  | cons c chars =>
      by_cases nul : c.toNat = 0
      · simp [sqlLength, beginsWithNul, nul]
      · simp [sqlLength, beginsWithNul, nul]

/-- Without a NUL the two lengths agree. -/
theorem sqlLength_eq {chars : List Char} (no_nul : ∀ c ∈ chars, c.toNat ≠ 0) :
    sqlLength chars = chars.length := by
  rw [sqlLength, List.takeWhile_eq_self_iff.mpr fun c member => decide_eq_true (no_nul c member)]

section Text

variable {shortest longest : Nat}

theorem lengthBetween_text (text : Text 1 longest) :
    lengthBetween 1 longest text.chars = true ↔ beginsWithNul text.chars = false := by
  have short : sqlLength text.chars ≤ longest := (sqlLength_le _).trans text.short_enough
  rw [lengthBetween, decide_eq_true_iff, sqlLength_pos_iff text.long_enough, and_iff_left short]

theorem lengthBetween_optional (text : Text 0 longest) :
    lengthBetween 0 longest text.chars = true :=
  decide_eq_true ⟨Nat.zero_le _, (sqlLength_le _).trans text.short_enough⟩

end Text

/-! ## Names and codes -/

private theorem isUpper_iff {c : Char} :
    c.isUpper = true ↔ 'A'.toNat ≤ c.toNat ∧ c.toNat ≤ 'Z'.toNat := by
  have spelled : c.isUpper = decide ('A'.val ≤ c.val ∧ c.val ≤ 'Z'.val) := rfl
  rw [spelled, decide_eq_true_eq]
  rfl

private theorem isLower_iff {c : Char} :
    c.isLower = true ↔ 'a'.toNat ≤ c.toNat ∧ c.toNat ≤ 'z'.toNat := by
  have spelled : c.isLower = (decide ('a'.val ≤ c.val) && decide (c.val ≤ 'z'.val)) := rfl
  rw [spelled, Bool.and_eq_true, decide_eq_true_eq, decide_eq_true_eq]
  rfl

private theorem isDigit_iff {c : Char} :
    c.isDigit = true ↔ '0'.toNat ≤ c.toNat ∧ c.toNat ≤ '9'.toNat := by
  simp only [Char.isDigit, Bool.and_eq_true, decide_eq_true_eq]
  rfl

/-- A character of a range that starts above the NUL. -/
private theorem ne_nul_of_inRanges {ranges : List (Char × Char)} {c : Char}
    (above : ∀ range ∈ ranges, 0 < range.1.toNat) (inside : inRanges ranges c) : c.toNat ≠ 0 := by
  obtain ⟨range, member, le, -⟩ := inRanges_iff.mp inside
  have positive := above range member
  omega

private theorem image_inside (image : ImageName) : ∀ c ∈ image.chars, inRanges
    [('A', 'Z'), ('a', 'z'), ('0', '9'), ('.', '.'), ('_', '_'), ('-', '-')] c := by
  intro c member
  have allowed := List.all_eq_true.mp image.charset c member
  have alphanum : c.isAlphanum = (c.isUpper || c.isLower || c.isDigit) := rfl
  simp only [Bool.or_eq_true, alphanum, isUpper_iff, isLower_iff, isDigit_iff,
    beq_iff_eq] at allowed
  rw [inRanges_iff]
  rcases allowed with (((((upper | lower) | digit) | rfl) | rfl) | rfl)
  · exact ⟨('A', 'Z'), by simp, upper⟩
  · exact ⟨('a', 'z'), by simp, lower⟩
  · exact ⟨('0', '9'), by simp, digit⟩
  · exact ⟨('.', '.'), by simp, le_rfl, le_rfl⟩
  · exact ⟨('_', '_'), by simp, le_rfl, le_rfl⟩
  · exact ⟨('-', '-'), by simp, le_rfl, le_rfl⟩

/-- Every name of a cover meets its check. -/
theorem image_checked (image : ImageName) :
    lengthBetween 1 80 image.chars = true ∧ glob EventColumns.badImage image.chars = false := by
  have inside := image_inside image
  constructor
  · rw [lengthBetween,
      sqlLength_eq fun c member => ne_nul_of_inRanges (by decide) (inside c member)]
    exact decide_eq_true ⟨image.nonempty, image.short_enough⟩
  · rw [EventColumns.badImage, glob_outside, List.any_eq_false]
    intro c member
    simp [inside c member]

/-- Every check-in code meets its check. -/
theorem code_checked (code : CheckinCode) :
    sqlLength code.chars = 12 ∧ glob EventColumns.badCode code.chars = false := by
  have inside : ∀ c ∈ code.chars, inRanges [('a', 'z'), ('0', '9')] c := by
    intro c member
    have allowed := List.all_eq_true.mp code.charset c member
    simp only [Bool.or_eq_true, isLower_iff, isDigit_iff] at allowed
    rw [inRanges_iff]
    rcases allowed with lower | digit
    · exact ⟨('a', 'z'), by simp, lower⟩
    · exact ⟨('0', '9'), by simp, digit⟩
  constructor
  · rw [sqlLength_eq fun c member => ne_nul_of_inRanges (by decide) (inside c member)]
    exact code.length_eq
  · rw [EventColumns.badCode, glob_outside, List.any_eq_false]
    intro c member
    simp [inside c member]

/-- A printable character of ASCII is no whitespace. -/
private theorem not_whitespace {c : Char} (above : 32 < c.toNat) (below : c.toNat < 128) :
    isWhitespace c = false := by
  simp only [isWhitespace, Bool.or_eq_false_iff, Bool.and_eq_false_iff, decide_eq_false_iff_not,
    beq_eq_false_iff_ne]
  omega

theorem ImageName.tryNew_chars (image : ImageName) : ImageName.tryNew image.chars = some image := by
  have no_white : ∀ c ∈ image.chars, isWhitespace c = false := by
    intro c member
    obtain ⟨range, range_mem, above, below⟩ := inRanges_iff.mp (image_inside image c member)
    have bounds : ∀ range ∈ [('A', 'Z'), ('a', 'z'), ('0', '9'), ('.', '.'), ('_', '_'),
        ('-', '-')], 32 < range.1.toNat ∧ range.2.toNat < 128 := by decide
    obtain ⟨low, high⟩ := bounds range range_mem
    exact not_whitespace (low.trans_le above) (below.trans_lt high)
  have trimmed : isTrimmed image.chars := by
    rw [isTrimmed, Bool.and_eq_true]
    constructor
    · cases first : image.chars.head? with
      | none => rfl
      | some c => simp [no_white c (List.mem_of_head? first)]
    · cases last : image.chars.getLast? with
      | none => rfl
      | some c => simp [no_white c (List.mem_of_getLast? last)]
  have same := trim_of_isTrimmed trimmed
  have fits : 1 ≤ (trim image.chars).length ∧ (trim image.chars).length ≤ 80 ∧
      (trim image.chars).head?.any Char.isAlphanum ∧
      (trim image.chars).all fun c => c.isAlphanum || c == '.' || c == '_' || c == '-' := by
    rw [same]
    exact ⟨image.nonempty, image.short_enough, image.first, image.charset⟩
  rw [ImageName.tryNew, dif_pos fits]
  cases image
  simp only [same]

/-! ## Days -/

/-- The pattern of a day is met from the year 0 on. -/
theorem glob_formatDay (date : Date) :
    glob dayPattern (formatDay date) = true ↔ 0 ≤ date.year := by
  have digits : ∀ (width value : Nat) (pattern : List GlobItem) (rest : List Char),
      glob (List.replicate width (.oneOf [('0', '9')]) ++ pattern) (numeral width value ++ rest) =
        glob pattern rest := by
    intro width value pattern rest
    have inside : ∀ c ∈ numeral width value, inRanges [('0', '9')] c := fun c member =>
      inRanges_iff.mpr ⟨('0', '9'), List.mem_singleton_self _,
        isDigit_iff.mp (isDigit_of_mem_numeral member)⟩
    have matched : glob (List.replicate (numeral width value).length (.oneOf [('0', '9')]) ++
        pattern) (numeral width value ++ rest) = glob pattern rest := glob_oneOf_append inside
    rwa [numeral_length] at matched
  constructor
  · intro matched
    by_contra negative
    rw [formatDay, if_pos (by omega)] at matched
    cases matched
  · intro year_nonneg
    have last :
        glob (List.replicate 2 (.oneOf [('0', '9')])) (numeral 2 date.day ++ []) = true := by
      rw [← List.append_nil (List.replicate 2 _), digits]
      rfl
    have dash : ∀ (pattern : List GlobItem) (rest : List Char),
        glob (.oneOf [('-', '-')] :: pattern) ('-' :: rest) = glob pattern rest :=
      fun pattern rest => rfl
    rw [formatDay_of_nonneg year_nonneg, dayPattern, List.append_assoc, digits, List.cons_append,
      dash, digits, dash]
    exact last

/-- A digit is no sign. -/
private theorem parseDay_of_digit {c : Char} (digit : c.isDigit) (rest : List Char) :
    parseDay (c :: rest) = parseUnsigned false (c :: rest) := by
  rw [parseDay]
  · intro tail same
    obtain ⟨rfl, -⟩ := List.cons.inj same
    cases digit
  · intro tail same
    obtain ⟨rfl, -⟩ := List.cons.inj same
    cases digit

theorem parseDay_formatDay (date : Date) (year_nonneg : 0 ≤ date.year) :
    parseDay (formatDay date) = some date := by
  have year_fits : date.year.natAbs < 10 ^ 4 := by
    have le := date.year_le
    omega
  have month_fits : date.month < 10 ^ 2 := date.month_le.trans_lt (by decide)
  have year_read := numeral?_numeral year_fits
  have month_read := numeral?_numeral month_fits
  have day_read := numeral?_numeral date.day_lt
  have first_mem : Nat.digitChar (date.year.natAbs / 10 / 10 / 10 % 10) ∈
      numeral 4 date.year.natAbs := by simp [numeral]
  have first := isDigit_of_mem_numeral first_mem
  rw [formatDay_of_nonneg year_nonneg]
  simp only [numeral, List.nil_append, List.cons_append] at year_read month_read day_read ⊢
  rw [parseDay_of_digit first, parseUnsigned, year_read, month_read, day_read]
  have year_eq : ((date.year.natAbs : Nat) : Int) = date.year := Int.natAbs_of_nonneg year_nonneg
  simp only [Option.bind_eq_bind, Option.bind_some, Bool.false_eq_true, if_false, year_eq]
  exact dif_pos ⟨date.year_ge, date.year_le, date.month_pos, date.month_le, date.day_pos,
    date.day_le⟩

/-! ## Instants -/

/-- An instant as a column keeps it. -/
def truncated (instant : Instant) : Instant := instantOf (toMicros instant)

/-! ## Events -/

/-- On a row of domain values the checks come down to those that such a value can fail. -/
theorem EventRow.checks_eq (row : EventRow) : row.columns.checks = EventStorage.isChecked row := by
  have image : (row.columns.image.all fun image =>
      lengthBetween 1 80 image ∧ !glob EventColumns.badImage image) = true := by
    cases stored : row.image with
    | none => simp [EventRow.columns, stored]
    | some image =>
        obtain ⟨length, charset⟩ := image_checked image
        simp [EventRow.columns, stored, length, charset]
  have status : row.columns.status = "draft" ∨ row.columns.status = "published" := by
    cases stored : row.status with
    | draft => simp [EventRow.columns, stored, EventStatus.asStr]
    | published => simp [EventRow.columns, stored, EventStatus.asStr]
  obtain ⟨code_length, code_charset⟩ := code_checked row.checkinCode
  have code : (sqlLength row.columns.checkinCode = 12 ∧
      !glob EventColumns.badCode row.columns.checkinCode) := by
    simp [EventRow.columns, code_length, code_charset]
  have id_length : row.columns.id.length = 36 := rfl
  rw [Bool.eq_iff_iff, EventColumns.checks, EventStorage.isChecked, decide_eq_true_iff,
    decide_eq_true_iff]
  simp only [image, status, code, id_length, true_and]
  exact Iff.rfl

/-- On a row of domain values the conversion of the columns is the one of the row. -/
theorem EventRow.columns_toStored (row : EventRow) (checkinCount : Nat) :
    row.columns.toStored checkinCount = row.toStored checkinCount := by
  have image : (row.image.map ImageName.chars).mapM ImageName.tryNew = some row.image := by
    cases row.image with
    | none => rfl
    | some image => simp [ImageName.tryNew_chars]
  rw [EventColumns.toStored]
  simp only [EventRow.columns, image, Text.tryNew_chars, EventStatus.fromStr_asStr,
    CheckinCode.tryNew_chars, Option.bind_eq_bind, Option.bind_some, parseUuid, Id.toText]
  rfl

/-- The fields of an event that the table takes. -/
structure EventFields.Fits (fields : EventFields) : Prop where
  name : beginsWithNul fields.name.chars = false
  after_epoch : 1000 ≤ fields.window.startsAt
  window : fields.window.startsAt / 1000 < fields.window.endsAt / 1000
  last_year : fields.window.endsAt < year10000

/-- A read of a row that shows the fields, with the window to the microsecond, and the rest of the
row. -/
structure EventFields.Shown (fields : EventFields) (row : EventRow) (stored : StoredEvent) :
    Prop where
  id : stored.event.id = row.id
  name : stored.event.name = fields.name
  location : stored.event.location = fields.location
  games : stored.event.games = fields.games
  description : stored.event.description = fields.description
  image : stored.event.image = fields.image
  startsAt : stored.event.window.startsAt = truncated fields.window.startsAt
  endsAt : stored.event.window.endsAt = truncated fields.window.endsAt
  status : stored.event.status = row.status
  checkinCode : stored.checkinCode = row.checkinCode
  createdAt : stored.event.createdAt = instantOf row.createdAt

/-- The row meets every check of its table, and a read of it shows the fields. -/
def EventFields.IsStored (fields : EventFields) (row : EventRow) (checkinCount : Nat) : Prop :=
  row.columns.checks = true ∧
    ∃ stored, row.columns.toStored checkinCount = some stored ∧ fields.Shown row stored

/-- A row with its fields replaced is stored exactly if the fields fit. -/
theorem isStored_replaced_iff (fields : EventFields) (row : EventRow) (checkinCount : Nat) :
    fields.IsStored (replaced fields row) checkinCount ↔
      fields.Fits ∧ 0 < row.createdAt ∧ row.createdAt ≤ lastMicros := by
  have window_iff : 1000 ≤ fields.window.startsAt →
      (toMicros fields.window.startsAt < toMicros fields.window.endsAt ↔
        fields.window.startsAt / 1000 < fields.window.endsAt / 1000) :=
    fun le => toMicros_lt_toMicros le fields.window.starts_lt_ends
  have checks_iff : (replaced fields row).columns.checks = true ↔
      beginsWithNul fields.name.chars = false ∧ 0 < toMicros fields.window.startsAt ∧
        toMicros fields.window.startsAt < toMicros fields.window.endsAt ∧ 0 < row.createdAt := by
    rw [EventRow.checks_eq, EventStorage.isChecked, decide_eq_true_iff]
    simp only [replaced, lengthBetween_text, lengthBetween_optional, true_and]
  rw [EventFields.IsStored, checks_iff, toMicros_pos_iff]
  constructor
  · rintro ⟨⟨name, after_epoch, window, created⟩, stored, read, shown⟩
    rw [EventRow.columns_toStored, EventRow.toStored_eq_some] at read
    obtain ⟨⟨-, ⟨-, ends_le⟩, ⟨-, created_le⟩⟩, -⟩ := read
    exact ⟨⟨name, after_epoch, (window_iff after_epoch).mp window, toMicros_le_last_iff.mp ends_le⟩,
      created, created_le⟩
  · rintro ⟨fits, created, created_le⟩
    have window := (window_iff fits.after_epoch).mpr fits.window
    refine ⟨⟨fits.name, fits.after_epoch, window, created⟩, ?_⟩
    have starts_pos : 0 < toMicros fields.window.startsAt := toMicros_pos_iff.mpr fits.after_epoch
    have ends_le := toMicros_le_last_iff.mpr fits.last_year
    have ordered : instantOf (toMicros fields.window.startsAt) <
        instantOf (toMicros fields.window.endsAt) := Int.mul_lt_mul_of_pos_right window (by decide)
    simp only [EventRow.columns_toStored, EventRow.toStored_eq_some]
    exact ⟨_, ⟨⟨inYears_of_pos starts_pos (window.le.trans ends_le),
      inYears_of_pos (starts_pos.trans window) ends_le, inYears_of_pos created created_le⟩,
      ordered, rfl⟩, ⟨rfl, rfl, rfl, rfl, rfl, rfl, rfl, rfl, rfl, rfl, rfl⟩⟩

/-! ## Tournaments -/

/-- On a row of domain values with no winner the checks come down to those that such a value can
fail. -/
theorem TournamentRow.checks_eq (row : TournamentRow) (no_winner : row.winner = none) :
    row.columns.checks = TournamentStorage.isChecked row := by
  have status : row.columns.status = "draft" ∨ row.columns.status = "open" ∨
      row.columns.status = "live" ∨ row.columns.status = "concluded" := by
    cases stored : row.status with
    | draft => simp [TournamentRow.columns, stored, TournamentStatus.asStr]
    | opened => simp [TournamentRow.columns, stored, TournamentStatus.asStr]
    | live => simp [TournamentRow.columns, stored, TournamentStatus.asStr]
    | concluded => simp [TournamentRow.columns, stored, TournamentStatus.asStr]
  have id_length : row.columns.id.length = 36 := rfl
  have winner : row.columns.winner = none := by rw [TournamentRow.columns, no_winner]; rfl
  have day : glob dayPattern row.columns.date = true ↔ 0 ≤ row.date.year := glob_formatDay row.date
  rw [Bool.eq_iff_iff, TournamentColumns.checks, TournamentStorage.isChecked, decide_eq_true_iff,
    decide_eq_true_iff]
  simp only [status, winner, id_length, day, true_and, or_true, and_true]
  exact Iff.rfl

/-- On a row of domain values with a year from 0 on the conversion of the columns is the one of the
row. -/
theorem TournamentRow.columns_toTournament (db : Database) (row : TournamentRow)
    (year_nonneg : 0 ≤ row.date.year) :
    row.columns.toTournament (db.tournamentEntrants.countP fun e => e.tournament = row.id)
        (db.matchRows.any fun m => m.tournament = row.id)
        ((row.winner.bind fun winner =>
          db.tournamentEntrants.find? fun e => e.id = winner).map db.toEntrant) =
      TournamentStorage.toTournament db row := by
  simp only [TournamentColumns.toTournament, TournamentRow.columns, Text.tryNew_chars,
    TournamentStatus.fromStr_asStr, parseDay_formatDay _ year_nonneg, Option.bind_eq_bind,
    Option.bind_some]
  rfl

/-- A new tournament that the table takes and a read knows. -/
structure NewTournamentRow.Fits (row : NewTournamentRow) : Prop where
  name : beginsWithNul row.name.chars = false
  game : beginsWithNul row.game.chars = false
  mode : beginsWithNul row.mode.chars = false
  year : 0 ≤ row.date.year
  registrationClosesAt : 1000 ≤ row.registrationClosesAt
  createdAt : 1000 ≤ row.createdAt
  last_deadline : row.registrationClosesAt < year10000
  last_year : row.createdAt < year10000

/-- A tournament that shows what was sent, with the instants to the microsecond. -/
structure NewTournamentRow.Shown (row : NewTournamentRow) (tournament : Tournament) : Prop where
  id : tournament.id = row.id
  name : tournament.name = row.name
  game : tournament.game = row.game
  mode : tournament.mode = row.mode
  description : tournament.description = row.description
  date : tournament.date = row.date
  registrationClosesAt : tournament.registrationClosesAt = truncated row.registrationClosesAt
  status : tournament.status = .draft
  createdAt : tournament.createdAt = truncated row.createdAt

/-- The row meets every check of its table, and a read of it shows what was sent. -/
def NewTournamentRow.IsStored (row : NewTournamentRow) : Prop :=
  row.toRow.columns.checks = true ∧
    ∃ tournament, row.toRow.columns.toTournament 0 false none = some tournament ∧
      row.Shown tournament

/-- A new tournament is stored exactly if it fits. -/
theorem NewTournamentRow.isStored_iff (row : NewTournamentRow) : row.IsStored ↔ row.Fits := by
  have checks_iff : row.toRow.columns.checks = true ↔
      beginsWithNul row.name.chars = false ∧ beginsWithNul row.game.chars = false ∧
        beginsWithNul row.mode.chars = false ∧ 0 ≤ row.date.year ∧
        1000 ≤ row.registrationClosesAt ∧ 1000 ≤ row.createdAt := by
    rw [TournamentRow.checks_eq _ rfl, TournamentStorage.isChecked, decide_eq_true_iff]
    simp only [NewTournamentRow.toRow, lengthBetween_text, lengthBetween_optional, true_and,
      toMicros_pos_iff]
  have read_iff (year_nonneg : 0 ≤ row.date.year) (tournament : Tournament) :
      row.toRow.columns.toTournament 0 false none = some tournament ↔
        row.toRow.IsReadable ∧ tournamentOf .empty row.toRow = tournament := by
    rw [← toTournament_eq_some, ← TournamentRow.columns_toTournament _ _ year_nonneg]
    rfl
  rw [NewTournamentRow.IsStored, checks_iff]
  constructor
  · rintro ⟨⟨name, game, mode, year, closes, created⟩, tournament, read, -⟩
    obtain ⟨⟨⟨-, closes_le⟩, ⟨-, created_le⟩⟩, -⟩ := (read_iff year tournament).mp read
    exact ⟨name, game, mode, year, closes, created, toMicros_le_last_iff.mp closes_le,
      toMicros_le_last_iff.mp created_le⟩
  · intro fits
    refine ⟨⟨fits.name, fits.game, fits.mode, fits.year, fits.registrationClosesAt,
      fits.createdAt⟩, tournamentOf .empty row.toRow, (read_iff fits.year _).mpr ⟨?_, rfl⟩,
      ⟨rfl, rfl, rfl, rfl, rfl, rfl, rfl, rfl, rfl⟩⟩
    exact ⟨inYears_of_pos (toMicros_pos_iff.mpr fits.registrationClosesAt)
        (toMicros_le_last_iff.mpr fits.last_deadline),
      inYears_of_pos (toMicros_pos_iff.mpr fits.createdAt)
        (toMicros_le_last_iff.mpr fits.last_year)⟩

/-! ## Both tables -/

/-- What is stored and read back of the values the domain accepts: exactly those that fit. -/
theorem domain_stored_iff (event : NewEventRow) (fields : EventFields) (replacing : EventRow)
    (checkinCount : Nat) (tournament : NewTournamentRow) :
    (event.fields.IsStored event.toRow checkinCount ↔
      event.fields.Fits ∧ 1000 ≤ event.createdAt ∧ event.createdAt < year10000) ∧
    (fields.IsStored (replaced fields replacing) checkinCount ↔
      fields.Fits ∧ 0 < replacing.createdAt ∧ replacing.createdAt ≤ lastMicros) ∧
    (tournament.IsStored ↔ tournament.Fits) := by
  refine ⟨?_, isStored_replaced_iff _ _ _, tournament.isStored_iff⟩
  have same : replaced event.fields event.toRow = event.toRow := rfl
  rw [← same, isStored_replaced_iff, ← toMicros_pos_iff, ← toMicros_le_last_iff]
  exact Iff.rfl

/-- A night of one nanosecond. -/
def shortNight : NewEventRow where
  id := ⟨1⟩
  fields :=
    { name := ⟨['N'], rfl, le_rfl, Nat.le_add_left 1 59⟩
      location := .empty
      games := .empty
      description := .empty
      image := none
      window := ⟨1792864800000000001, 1792864800000000002, by decide⟩ }
  checkinCode := ⟨List.replicate 12 'a', rfl, rfl⟩
  createdAt := 1792864800000000000

/-- The end comes after the start, and the row is refused. -/
theorem shortNight_refused : shortNight.toRow.columns.checks = false ∧
    EventStorage.create shortNight .empty = (.error .query, .empty) := by
  constructor
  · decide
  · rfl

/-- A night until the last minute of the year 9999 in an offset of nearly a day. -/
def farNight : NewEventRow :=
  { shortNight with
    fields := { shortNight.fields with window := ⟨1792864800000000001, year10000 + 1, by decide⟩ } }

/-- It meets every check, and no read knows it. -/
example : farNight.toRow.columns.checks = true ∧ farNight.toRow.columns.toStored 0 = none ∧
    (EventStorage.create farNight .empty).1 = .ok () := by decide

end LanBunker
