import LanBunker.Relational.Text
import LanBunker.Storage.Events
import LanBunker.Storage.Tournaments

/-!
# The columns of events and tournaments

What a write binds and a read gets: numbers and texts.  Every check of the two tables is on these
columns, and a read builds domain values from them again.
-/

namespace LanBunker

open Relational

/-- The hyphenated text of a uuid has 36 characters. -/
def UuidText.length (_ : UuidText) : Nat := 36

/-- `parse_uuid`. -/
def parseUuid {kind : IdKind} (text : UuidText) : Id kind := ⟨text.uuid⟩

/-! ## Days -/

/-- `[year]-[month]-[day]`.  A year before 0 has a sign. -/
def formatDay (date : Date) : List Char :=
  (if date.year < 0 then ['-'] else []) ++ numeral 4 date.year.natAbs ++ '-' ::
    numeral 2 date.month ++ '-' :: numeral 2 date.day

theorem formatDay_of_nonneg {date : Date} (year_nonneg : 0 ≤ date.year) :
    formatDay date = numeral 4 date.year.natAbs ++ '-' ::
      (numeral 2 date.month ++ '-' :: (numeral 2 date.day ++ [])) := by
  rw [formatDay, if_neg (by omega), List.nil_append, List.append_nil, List.append_assoc]
  rfl

/-- `Date::from_calendar_date`. -/
def Date.fromCalendarDate (year : Int) (month day : Nat) : Option Date :=
  if fits : -9999 ≤ year ∧ year ≤ 9999 ∧ 1 ≤ month ∧ month ≤ 12 ∧ 1 ≤ day ∧
      day ≤ daysInMonth year month then
    some ⟨year, month, day, fits.1, fits.2.1, fits.2.2.1, fits.2.2.2.1, fits.2.2.2.2.1,
      fits.2.2.2.2.2⟩
  else none

/-- A day after its sign. -/
def parseUnsigned (negative : Bool) : List Char → Option Date
  | [y₁, y₂, y₃, y₄, '-', m₁, m₂, '-', d₁, d₂] => do
      let year ← numeral? [y₁, y₂, y₃, y₄]
      let month ← numeral? [m₁, m₂]
      let day ← numeral? [d₁, d₂]
      Date.fromCalendarDate (if negative then -(year : Int) else year) month day
  | _ => none

def parseDay : List Char → Option Date
  | '-' :: rest => parseUnsigned true rest
  | '+' :: rest => parseUnsigned false rest
  | rest => parseUnsigned false rest

/-- `[0-9][0-9][0-9][0-9]-[0-9][0-9]-[0-9][0-9]`. -/
def dayPattern : List GlobItem :=
  let digits (width : Nat) := List.replicate width (GlobItem.oneOf [('0', '9')])
  digits 4 ++ .oneOf [('-', '-')] :: digits 2 ++ .oneOf [('-', '-')] :: digits 2

/-! ## Events -/

structure EventColumns where
  id : UuidText
  name : List Char
  location : List Char
  games : List Char
  description : List Char
  image : Option (List Char)
  startsAt : Micros
  endsAt : Micros
  status : String
  checkinCode : List Char
  createdAt : Micros

def EventRow.columns (row : EventRow) : EventColumns :=
  { id := row.id.toText, name := row.name.chars, location := row.location.chars
    games := row.games.chars, description := row.description.chars
    image := row.image.map ImageName.chars, startsAt := row.startsAt, endsAt := row.endsAt
    status := row.status.asStr, checkinCode := row.checkinCode.chars, createdAt := row.createdAt }

namespace EventColumns

/-- `*[^A-Za-z0-9._-]*`. -/
def badImage : List GlobItem :=
  [.star, .noneOf [('A', 'Z'), ('a', 'z'), ('0', '9'), ('.', '.'), ('_', '_'), ('-', '-')], .star]

/-- `*[^a-z0-9]*`. -/
def badCode : List GlobItem := [.star, .noneOf [('a', 'z'), ('0', '9')], .star]

/-- Every check of `events`. -/
def checks (row : EventColumns) : Bool :=
  row.id.length = 36 ∧
  lengthBetween 1 60 row.name ∧
  lengthBetween 0 60 row.location ∧
  lengthBetween 0 200 row.games ∧
  lengthBetween 0 1000 row.description ∧
  (row.image.all fun image => lengthBetween 1 80 image ∧ !glob badImage image) ∧
  0 < row.startsAt ∧
  row.startsAt < row.endsAt ∧
  (row.status = "draft" ∨ row.status = "published") ∧
  (sqlLength row.checkinCode = 12 ∧ !glob badCode row.checkinCode) ∧
  0 < row.createdAt

/-- `StoredEvent::try_from`, with the count of the check-ins.  `none` is a malformed row. -/
def toStored (row : EventColumns) (checkinCount : Nat) : Option StoredEvent := do
  let name ← Text.tryNew row.name
  let location ← Text.tryNew row.location
  let games ← Text.tryNew row.games
  let description ← Text.tryNew row.description
  let image ← row.image.mapM ImageName.tryNew
  let startsAt ← fromMicros row.startsAt
  let endsAt ← fromMicros row.endsAt
  let window ← EventWindow.tryNew startsAt endsAt
  let status ← EventStatus.fromStr row.status
  let createdAt ← fromMicros row.createdAt
  let checkinCode ← CheckinCode.tryNew row.checkinCode
  some
    { event :=
        { id := parseUuid row.id, name, location, games, description, image, window, status
          checkinCount, createdAt }
      checkinCode }

end EventColumns

/-! ## Tournaments -/

structure TournamentColumns where
  id : UuidText
  name : List Char
  game : List Char
  mode : List Char
  description : List Char
  date : List Char
  registrationClosesAt : Micros
  status : String
  winner : Option UuidText
  createdAt : Micros

def TournamentRow.columns (row : TournamentRow) : TournamentColumns :=
  { id := row.id.toText, name := row.name.chars, game := row.game.chars, mode := row.mode.chars
    description := row.description.chars, date := formatDay row.date
    registrationClosesAt := row.registrationClosesAt, status := row.status.asStr
    winner := row.winner.map Id.toText, createdAt := row.createdAt }

namespace TournamentColumns

/-- Every check of `tournaments`. -/
def checks (row : TournamentColumns) : Bool :=
  row.id.length = 36 ∧
  lengthBetween 1 60 row.name ∧
  lengthBetween 1 40 row.game ∧
  lengthBetween 1 30 row.mode ∧
  lengthBetween 0 1000 row.description ∧
  glob dayPattern row.date ∧
  0 < row.registrationClosesAt ∧
  (row.status = "draft" ∨ row.status = "open" ∨ row.status = "live" ∨ row.status = "concluded") ∧
  0 < row.createdAt ∧
  (row.status = "concluded" ∨ row.winner = none)

/-- `Tournament::try_from`, with the columns that subqueries and joins add.  `none` is a malformed
row. -/
def toTournament (row : TournamentColumns) (entrantCount : Nat) (hasBracket : Bool)
    (winner : Option Entrant) : Option Tournament := do
  let name ← Text.tryNew row.name
  let game ← Text.tryNew row.game
  let mode ← Text.tryNew row.mode
  let description ← Text.tryNew row.description
  let date ← parseDay row.date
  let registrationClosesAt ← fromMicros row.registrationClosesAt
  let status ← TournamentStatus.fromStr row.status
  let createdAt ← fromMicros row.createdAt
  some
    { id := parseUuid row.id, name, game, mode, description, date, registrationClosesAt, status
      entrantCount, hasBracket, winner, createdAt }

end TournamentColumns
end LanBunker
