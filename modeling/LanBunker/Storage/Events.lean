import LanBunker.Storage.Points

/-!
# The tables of events and check-ins
-/

namespace LanBunker

structure NewEventRow where
  id : EventId
  fields : EventFields
  checkinCode : CheckinCode
  createdAt : Instant
  deriving DecidableEq, Repr

/-- The row that a new event is inserted as. -/
def NewEventRow.toRow (row : NewEventRow) : EventRow :=
  { id := row.id, name := row.fields.name, location := row.fields.location
    games := row.fields.games, description := row.fields.description
    image := row.fields.image, startsAt := toMicros row.fields.window.startsAt
    endsAt := toMicros row.fields.window.endsAt, status := .draft
    checkinCode := row.checkinCode, createdAt := toMicros row.createdAt }

/-- An event with the secret only an admin reads. -/
structure StoredEvent where
  event : Event
  checkinCode : CheckinCode
  deriving DecidableEq, Repr

/-- What an insert of a check-in did, with the time as the row holds it. -/
inductive CheckedIn where
  /-- `wasActive` is the flag of the player before this check-in. -/
  | new (instant : Instant) (wasActive : Bool)
  | already (first : Instant)
  deriving DecidableEq, Repr

namespace EventRow

/-- The event of a row whose window and creation were converted. -/
def shown (row : EventRow) (window : EventWindow) (checkinCount : Nat) (createdAt : Instant) :
    StoredEvent :=
  { event :=
      { id := row.id, name := row.name, location := row.location, games := row.games
        description := row.description, image := row.image, window, status := row.status
        checkinCount, createdAt }
    checkinCode := row.checkinCode }

/-- `StoredEvent::try_from`.  `none` is an instant that no read knows or a window out of order. -/
def toStored (row : EventRow) (checkinCount : Nat) : Option StoredEvent := do
  let startsAt ← fromMicros row.startsAt
  let endsAt ← fromMicros row.endsAt
  let window ← EventWindow.tryNew startsAt endsAt
  let createdAt ← fromMicros row.createdAt
  some (row.shown window checkinCount createdAt)

/-- A read knows the years of the instants. -/
abbrev IsReadable (row : EventRow) : Prop :=
  InYears row.startsAt ∧ InYears row.endsAt ∧ InYears row.createdAt

theorem toStored_eq_some {row : EventRow} {checkinCount : Nat} {stored : StoredEvent} :
    row.toStored checkinCount = some stored ↔
      row.IsReadable ∧ ∃ ordered : instantOf row.startsAt < instantOf row.endsAt,
        row.shown ⟨_, _, ordered⟩ checkinCount (instantOf row.createdAt) = stored := by
  simp only [toStored, Option.bind_eq_bind, Option.bind_eq_some_iff, fromMicros_eq_some,
    EventWindow.tryNew, Option.dite_none_right_eq_some, Option.some_inj]
  constructor
  · rintro ⟨_, ⟨starts, rfl⟩, _, ⟨ends, rfl⟩, _, ⟨ordered, rfl⟩, _, ⟨created, rfl⟩, same⟩
    exact ⟨⟨starts, ends, created⟩, ordered, same⟩
  · rintro ⟨⟨starts, ends, created⟩, ordered, same⟩
    exact ⟨_, ⟨starts, rfl⟩, _, ⟨ends, rfl⟩, _, ⟨ordered, rfl⟩, _, ⟨created, rfl⟩, same⟩

end EventRow

namespace EventStorage

/-- The most check-ins one read returns. -/
def checkinsMax : Nat := 1000

/-- The checks of `events` that a domain value can fail. -/
def isChecked (row : EventRow) : Bool :=
  lengthBetween 1 60 row.name.chars ∧ lengthBetween 0 60 row.location.chars ∧
    lengthBetween 0 200 row.games.chars ∧ lengthBetween 0 1000 row.description.chars ∧
    0 < row.startsAt ∧ row.startsAt < row.endsAt ∧ 0 < row.createdAt

def insertEvent (row : EventRow) : Statement := fun db =>
  guarded
    [(isChecked row, .query),
      (db.events.all fun other => other.id ≠ row.id, .uniqueViolation .eventsId),
      (db.events.all fun other => other.checkinCode ≠ row.checkinCode,
        .uniqueViolation .eventsCode)]
    (.ok (1, { db with events := db.events ++ [row] }))

def create (row : NewEventRow) : Method Unit := Method.single (insertEvent row.toRow) fun _ => ()

/-- The columns of an event as the API shows them. -/
def toStored (db : Database) (row : EventRow) : Option StoredEvent :=
  row.toStored (db.eventCheckins.countP fun c => c.event = row.id)

def event? (id : EventId) (db : Database) : Option EventRow :=
  db.events.find? fun row => row.id = id

def get (id : EventId) : Method (Option StoredEvent) := fun db =>
  (converted (toStored db) (event? id db), db)

/-- The event behind a check-in link, whatever its status. -/
def getByCode (code : CheckinCode) : Method (Option Event) := fun db =>
  ((converted (toStored db) (db.events.find? fun row => row.checkinCode = code)).map
    (Option.map StoredEvent.event), db)

/-- The row with every field replaced. -/
def replaced (fields : EventFields) (row : EventRow) : EventRow :=
  { row with
    name := fields.name, location := fields.location, games := fields.games
    description := fields.description, image := fields.image
    startsAt := toMicros fields.window.startsAt, endsAt := toMicros fields.window.endsAt }

def updateEvent (id : EventId) (fields : EventFields) : Statement := fun db =>
  let touched := fun row : EventRow => row.id = id
  guarded
    [(db.events.all fun row => !touched row || isChecked (replaced fields row), .query)]
    (.ok (db.events.countP touched,
      { db with
        events := db.events.map fun row => if touched row then replaced fields row else row }))

/-- Replaces every field.  `false` when no row has the id. -/
def update (id : EventId) (fields : EventFields) : Method Bool :=
  Method.single (updateEvent id fields) fun updated => 0 < updated

/-- `false` when no row has the id. -/
def setStatus (id : EventId) (status : EventStatus) : Method Bool :=
  Method.single (fun db =>
    .ok (db.events.countP fun row => row.id = id,
      { db with
        events := db.events.map fun row => if row.id = id then { row with status } else row }))
    fun updated => 0 < updated

/-- The check-ins and their cycles go with the event. -/
def delete (id : EventId) : Method Bool :=
  Method.single (fun db =>
    if db.hasEvent id then
      .ok (db.events.countP fun row => row.id = id,
        { db with
          events := db.events.filter fun row => row.id ≠ id
          eventCheckins := db.eventCheckins.filter fun row => row.event ≠ id
          pointEntries := db.pointEntries.filter fun row => row.event ≠ some id })
    else .ok (0, db))
    fun removed => 0 < removed

/-- `delete from point_entries where kind = 'checkin' and event_id = .. and player_id = ..`. -/
def deleteCheckinPoints (event : EventId) (player : PlayerId) : Statement := fun db =>
  let gone := fun row : PointRow =>
    row.kind = .checkin ∧ row.event = some event ∧ row.player = player
  .ok (db.pointEntries.countP gone,
    { db with pointEntries := db.pointEntries.filter fun row => !gone row })

def deleteCheckin (event : EventId) (player : PlayerId) : Statement := fun db =>
  let gone := fun row : CheckinRow => row.event = event ∧ row.player = player
  .ok (db.eventCheckins.countP gone,
    { db with eventCheckins := db.eventCheckins.filter fun row => !gone row })

/-- The check-in and the cycles it paid go in one transaction. -/
def removeCheckin (event : EventId) (player : PlayerId) : Method Bool := Transaction.commit do
  let _ ← Transaction.execute (deleteCheckinPoints event player)
  let removed ← Transaction.execute (deleteCheckin event player)
  pure (0 < removed)

/-- `order by checked_in_at asc, id asc`. -/
def checkinOrder (left right : CheckinRow) : Bool :=
  left.checkedInAt < right.checkedInAt ∨
    left.checkedInAt = right.checkedInAt ∧ left.player ≤ right.player

/-- First at the door first, up to `checkinsMax`. -/
def checkins (event : EventId) : Method (List Checkin) := Method.query fun db =>
  (((db.eventCheckins.filter fun row => row.event = event).insertionSort
    fun left right => checkinOrder left right).filterMap fun row =>
      (db.player? row.player).map fun player =>
        { player := db.toPlayer player, checkedInAt := instantOf row.checkedInAt }).take
    checkinsMax

/-- The row of the check-in of a player, if there is one. -/
def checkin? (event : EventId) (player : PlayerId) (db : Database) : Option CheckinRow :=
  db.eventCheckins.find? fun row => row.event = event ∧ row.player = player

def insertCheckin (row : CheckinRow) : Statement := fun db =>
  guarded
    [(0 < row.checkedInAt, .query),
      ((checkin? row.event row.player db).isNone, .uniqueViolation .checkinsKey),
      (db.hasEvent row.event ∧ db.hasPlayer row.player, .foreignKeyViolation)]
    (.ok (1, { db with eventCheckins := db.eventCheckins ++ [row] }))

/-- The check-in and its cycles, in one transaction.  A second scan writes nothing and answers the
first time. -/
def checkIn (event : EventId) (player : PlayerId) (instant : Instant) (award : Award)
    (draw : Nat → PointEntryId) : Method CheckedIn := Transaction.commit do
  let checkedInAt := toMicros instant
  let wasActive ← Transaction.read fun db => db.activeOf player
  let inserted ← Transaction.attempt (insertCheckin { event, player, checkedInAt })
  match inserted with
  | .error (.uniqueViolation .checkinsKey) =>
      match ← Transaction.read (checkin? event player) with
      | some row => pure (.already (instantOf row.checkedInAt))
      | none => Transaction.fail .query
  | .error error => Transaction.fail error
  | .ok _ =>
      insertAwards (.event event) instant draw 0 [award]
      pure (.new (instantOf checkedInAt) wasActive)

end EventStorage
end LanBunker
