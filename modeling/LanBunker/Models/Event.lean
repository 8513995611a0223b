import LanBunker.Models.Tournament

/-!
# Events

The nights the bunker opens.  An event has a window, from the doors to the last game, and a
check-in code for the door.
-/

namespace LanBunker

abbrev EventName := Text 1 60
abbrev Location := Text 0 60
abbrev Games := Text 0 200

/-- The file name of a cover: no path, no space, and a letter or a digit first. -/
structure ImageName where
  chars : List Char
  nonempty : 1 ≤ chars.length
  short_enough : chars.length ≤ 80
  first : chars.head?.any Char.isAlphanum
  charset : chars.all fun c => c.isAlphanum || c == '.' || c == '_' || c == '-'
  deriving DecidableEq, Repr

/-- The constructor: it trims and then checks the characters. -/
def ImageName.tryNew (raw : List Char) : Option ImageName :=
  let chars := trim raw
  if fits : 1 ≤ chars.length ∧ chars.length ≤ 80 ∧ chars.head?.any Char.isAlphanum ∧
      chars.all fun c => c.isAlphanum || c == '.' || c == '_' || c == '-' then
    some ⟨chars, fits.1, fits.2.1, fits.2.2.1, fits.2.2.2⟩
  else none

theorem ImageName.isSome_tryNew {raw : List Char} : (ImageName.tryNew raw).isSome ↔
    1 ≤ (trim raw).length ∧ (trim raw).length ≤ 80 ∧ (trim raw).head?.any Char.isAlphanum ∧
      (trim raw).all fun c => c.isAlphanum || c == '.' || c == '_' || c == '-' := by
  rw [ImageName.tryNew, Option.isSome_dite]

/-- The secret in the check-in link. -/
structure CheckinCode where
  chars : List Char
  length_eq : chars.length = 12
  charset : chars.all fun c => c.isLower || c.isDigit
  deriving DecidableEq, Repr

/-- The constructor: nothing is trimmed. -/
def CheckinCode.tryNew (raw : List Char) : Option CheckinCode :=
  if fits : raw.length = 12 ∧ raw.all fun c => c.isLower || c.isDigit then
    some ⟨raw, fits.1, fits.2⟩
  else none

theorem CheckinCode.tryNew_chars (code : CheckinCode) : CheckinCode.tryNew code.chars = some code :=
  dif_pos ⟨code.length_eq, code.charset⟩

/-- `draft` is visible to admins only, and its code opens nothing. -/
inductive EventStatus where
  | draft
  | published
  deriving DecidableEq, Repr

namespace EventStatus

def asStr : EventStatus → String
  | .draft => "draft"
  | .published => "published"

def fromStr (raw : String) : Option EventStatus :=
  match raw with
  | "draft" => some .draft
  | "published" => some .published
  | _ => none

@[simp]
theorem fromStr_asStr (status : EventStatus) : fromStr status.asStr = some status := by
  cases status <;> rfl

end EventStatus

/-- Where an instant sits against the window of an event. -/
inductive CheckinWindow where
  | early
  | opened
  | over
  deriving DecidableEq, Repr

/-- From the doors to the last game.  The end comes after the start. -/
structure EventWindow where
  startsAt : Instant
  endsAt : Instant
  starts_lt_ends : startsAt < endsAt
  deriving DecidableEq, Repr

namespace EventWindow

/-- `EventWindow::try_new`, `none` being the only error. -/
def tryNew (startsAt endsAt : Instant) : Option EventWindow :=
  if ordered : startsAt < endsAt then some ⟨startsAt, endsAt, ordered⟩ else none

/-- The start is in, the end is out. -/
def checkin (window : EventWindow) (now : Instant) : CheckinWindow :=
  if now < window.startsAt then .early
  else if now < window.endsAt then .opened
  else .over

end EventWindow

/-- An event as every client sees it. -/
structure Event where
  id : EventId
  name : EventName
  location : Location
  games : Games
  description : Description
  image : Option ImageName
  window : EventWindow
  status : EventStatus
  checkinCount : Nat
  createdAt : Instant
  deriving DecidableEq, Repr

def Event.checkinWindow (event : Event) (now : Instant) : CheckinWindow :=
  event.window.checkin now

/-- What an admin sends to create or replace an event. -/
structure EventFields where
  name : EventName
  location : Location
  games : Games
  description : Description
  image : Option ImageName
  window : EventWindow
  deriving DecidableEq, Repr

/-- One player at the door. -/
structure Checkin where
  player : Player
  checkedInAt : Instant
  deriving DecidableEq, Repr

structure EventDetail where
  event : Event
  checkinCode : CheckinCode
  checkins : List Checkin
  deriving DecidableEq, Repr

/-- What the door shows before a player confirms. -/
structure CheckinGate where
  event : Event
  window : CheckinWindow
  deriving DecidableEq, Repr

/-- A repeat answers the time of the first check-in and pays nothing. -/
structure CheckinReceipt where
  event : Event
  checkedInAt : Instant
  cycles : Int
  activated : Bool
  deriving DecidableEq, Repr

end LanBunker
