import LanBunker.Ecma.Numbers
import LanBunker.Models.Auth
import LanBunker.Models.Points
import LanBunker.Models.Wire
import LanBunker.Site.Timestamp

/-!
# The forms of the site

A form is checked by a schema of the site, and an action sends what the schema answers to the API,
which builds its own types from it.
-/

namespace LanBunker
namespace Schemas

open Utf16 Ecma

/-- The value of a form field. -/
inductive Value where
  | undefined
  | null
  | text (units : List UInt16)
  deriving DecidableEq

/-! ## The checks of the site -/

/-- `[A-Za-z0-9]`. -/
def isAlphanumUnit (unit : UInt16) : Bool :=
  let code := unit.toNat
  (0x41 ≤ code && code ≤ 0x5A) || (0x61 ≤ code && code ≤ 0x7A) || (0x30 ≤ code && code ≤ 0x39)

/-- `[A-Za-z0-9_.-]`. -/
def isNameUnit (unit : UInt16) : Bool :=
  isAlphanumUnit unit || isUnit '_' unit || isUnit '.' unit || isUnit '-' unit

/-- `z.string()`. -/
def string : Value → Option (List UInt16)
  | .text units => some units
  | .null => none
  | .undefined => none

/-- `.min(least).max(most)`. -/
def between (least most : Nat) (units : List UInt16) : Option (List UInt16) :=
  if least ≤ units.length ∧ units.length ≤ most then some units else none

def handle (value : Value) : Option (List UInt16) := do
  let units ← string value
  let trimmed ← between 3 20 (Ecma.trim units)
  if !trimmed.isEmpty && trimmed.all isNameUnit then some trimmed else none

def password (value : Value) : Option (List UInt16) := (string value).bind (between 8 128)

/-- `z.string().trim().min(1).max(most)`. -/
def requiredText (most : Nat) (value : Value) : Option (List UInt16) :=
  (string value).bind fun units => between 1 most (Ecma.trim units)

/-- A text that can be left empty.  Only then it is trimmed. -/
def optionalText (most : Nat) : Value → Option (List UInt16)
  | .text units => (between 0 most units).map Ecma.trim
  | .null => some []
  | .undefined => some []

def description : Value → Option (List UInt16) := optionalText 1000

/-- `Number(value)`. -/
def number : Value → Number
  | .text units => .ofString units
  | .null => .finite 0
  | .undefined => .nan

/-- `z.coerce.number().int()` and the bounds of an adjustment. -/
def amount (value : Value) : Option Int :=
  match number value with
  | .finite raw =>
      if raw.isInt && raw.num.natAbs < 2 ^ 53 && -10000 ≤ raw.num && raw.num ≤ 10000 && raw.num != 0
      then some raw.num else none
  | .infinite _ => none
  | .nan => none

/-- The cover of an event.  An empty text is no cover. -/
def image : Value → Option (Option (List UInt16))
  | .text [] => some none
  | .text units =>
      if 1 ≤ units.length ∧ units.length ≤ 80 ∧ units.all isNameUnit then some (some units)
      else none
  | .null => some none
  | .undefined => some none

/-! ## The readers outside the repository -/

/-- What the packages of the site and of the API make of identifiers, days and moments. -/
structure Readers where
  /-- `z.uuid()`. -/
  isUuid : List UInt16 → Bool
  /-- `z.iso.date()`. -/
  isDate : List UInt16 → Bool
  /-- `z.iso.datetime({ offset: true })`. -/
  isDateTime : List UInt16 → Bool
  /-- `new Date(text).getTime()`, `none` being `NaN`. -/
  getTime : List UInt16 → Option Int
  /-- `time::Date` in a body. -/
  date : List Char → Option Date
  /-- `time::serde::rfc3339`. -/
  dateTime : List Char → Option Instant
  isDate_iff : ∀ text, isDate text = true ↔
    ∃ day : Date, 0 ≤ day.year ∧ ofChars (formatDay day) = text
  isDateTime_iff : ∀ text, isDateTime text = true ↔
    ∃ moment : Timestamp, ofChars moment.text = text
  /-- What `getTime` makes of other fractions of a second is up to the engine. -/
  getTime_text : ∀ moment : Timestamp, moment.IsMillis →
    getTime (ofChars moment.text) = some (moment.instant / 1000000)
  date_formatDay : ∀ day : Date, 0 ≤ day.year → date (formatDay day) = some day
  dateTime_text : ∀ moment : Timestamp,
    dateTime moment.text = if moment.seconds.isSome then some moment.instant else none

namespace Readers

variable (readers : Readers)

def uuid (value : Value) : Option (List UInt16) :=
  (string value).bind fun units => if readers.isUuid units then some units else none

def isoDate (value : Value) : Option (List UInt16) :=
  (string value).bind fun units => if readers.isDate units then some units else none

def isoDateTime (value : Value) : Option (List UInt16) :=
  (string value).bind fun units => if readers.isDateTime units then some units else none

/-- The end comes after the start, in milliseconds. -/
def inOrder (startsAt endsAt : List UInt16) : Bool :=
  match readers.getTime startsAt, readers.getTime endsAt with
  | some starts, some ends => starts < ends
  | _, _ => false

end Readers

/-! ## The forms and what their actions send -/

structure AdjustmentForm where
  id : Value
  handle : Value
  amount : Value
  note : Value

structure TournamentForm where
  name : Value
  game : Value
  mode : Value
  description : Value
  date : Value
  registrationClosesAt : Value

structure EventForm where
  name : Value
  location : Value
  games : Value
  description : Value
  image : Value
  startsAt : Value
  endsAt : Value

structure AdjustmentBody where
  amount : Int
  note : List UInt16

structure TournamentBody where
  name : List UInt16
  game : List UInt16
  mode : List UInt16
  description : List UInt16
  date : List UInt16
  registrationClosesAt : List UInt16

structure EventBody where
  name : List UInt16
  location : List UInt16
  games : List UInt16
  description : List UInt16
  image : Option (List UInt16)
  startsAt : List UInt16
  endsAt : List UInt16

/-- `adjustmentInput`.  The identifier and the handle are not in the body. -/
def adjustmentInput (readers : Readers) (form : AdjustmentForm) : Option AdjustmentBody := do
  let _ ← readers.uuid form.id
  let _ ← handle form.handle
  let amount ← amount form.amount
  let note ← requiredText 200 form.note
  some { amount, note }

/-- `tournamentFields`. -/
def tournamentInput (readers : Readers) (form : TournamentForm) : Option TournamentBody := do
  let name ← requiredText 60 form.name
  let game ← requiredText 40 form.game
  let mode ← requiredText 30 form.mode
  let description ← description form.description
  let date ← readers.isoDate form.date
  let registrationClosesAt ← readers.isoDateTime form.registrationClosesAt
  some { name, game, mode, description, date, registrationClosesAt }

/-- `eventFields` and `inOrder`. -/
def eventInput (readers : Readers) (form : EventForm) : Option EventBody := do
  let name ← requiredText 60 form.name
  let location ← optionalText 60 form.location
  let games ← optionalText 200 form.games
  let description ← description form.description
  let image ← image form.image
  let startsAt ← readers.isoDateTime form.startsAt
  let endsAt ← readers.isoDateTime form.endsAt
  if readers.inOrder startsAt endsAt then
    some { name, location, games, description, image, startsAt, endsAt }
  else none

/-- A form of the site that the API checks again. -/
inductive Form where
  | handle (value : Value)
  | password (value : Value)
  | adjustment (form : AdjustmentForm)
  | tournament (form : TournamentForm)
  | event (form : EventForm)

/-- What an action sends. -/
inductive Body where
  | handle (text : List UInt16)
  | password (text : List UInt16)
  | adjustment (body : AdjustmentBody)
  | tournament (body : TournamentBody)
  | event (body : EventBody)

/-- The schema of a form, `none` being a refusal by the site. -/
def Form.check (readers : Readers) : Form → Option Body
  | .handle value => (Schemas.handle value).map .handle
  | .password value => (Schemas.password value).map .password
  | .adjustment form => (adjustmentInput readers form).map .adjustment
  | .tournament form => (tournamentInput readers form).map .tournament
  | .event form => (eventInput readers form).map .event

/-! ## The types of the API -/

/-- `Adjustment`. -/
def AdjustmentBody.read (body : AdjustmentBody) : Option Adjustment := do
  let amount ← Amount.tryNew body.amount
  let note ← Text.ofUnits body.note
  some { amount, note }

/-- `NewTournament`. -/
def TournamentBody.read (readers : Readers) (body : TournamentBody) : Option NewTournament := do
  let name ← Text.ofUnits body.name
  let game ← Text.ofUnits body.game
  let mode ← Text.ofUnits body.mode
  let description ← Text.ofUnits body.description
  let date ← (chars? body.date).bind readers.date
  let registrationClosesAt ← (chars? body.registrationClosesAt).bind readers.dateTime
  some { name, game, mode, description, date, registrationClosesAt }

/-- `EventFields`. -/
def EventBody.read (readers : Readers) (body : EventBody) : Option EventFields := do
  let name ← Text.ofUnits body.name
  let location ← Text.ofUnits body.location
  let games ← Text.ofUnits body.games
  let description ← Text.ofUnits body.description
  let image ← body.image.mapM fun text => (chars? text).bind ImageName.tryNew
  let startsAt ← (chars? body.startsAt).bind readers.dateTime
  let endsAt ← (chars? body.endsAt).bind readers.dateTime
  let window ← EventWindow.tryNew startsAt endsAt
  some { name, location, games, description, image, window }

/-- The API builds its own value from the body. -/
def Body.isTaken (readers : Readers) : Body → Bool
  | .handle text => ((chars? text).bind Handle.tryNew).isSome
  | .password text => ((chars? text).bind Password.tryNew).isSome
  | .adjustment body => body.read.isSome
  | .tournament body => (body.read readers).isSome
  | .event body => (body.read readers).isSome

end Schemas
end LanBunker
