import LanBunker.Services.Service

/-!
# The event service

What an admin may change, who sees a draft, and when the code at the door pays.
-/

namespace LanBunker

open Service

namespace EventService

def load (id : EventId) : Service StoredEvent := do
  let found ← store (.events (.get id))
  okOr found (.eventNotFound id)

/-- A draft answers like an unknown code. -/
def publishedByCode (code : CheckinCode) : Service Event := do
  let found ← store (.events (.getByCode code))
  okOr (found.filter fun event => event.status = .published) .unknownCheckinCode

/-- A new event is a draft with a fresh check-in code. -/
def create (fields : EventFields) : Service Event := do
  let draw ← ask (.draw .event)
  let checkinCode ← ask .drawCode
  let now ← ask .now
  let id := draw 0
  store (.events (.create { id, fields, checkinCode, createdAt := now }))
  let stored ← load id
  pure stored.event

/-- Everything the backoffice shows, the code for the QR included. -/
def detail (id : EventId) : Service EventDetail := do
  let stored ← load id
  let checkins ← store (.events (.checkins id))
  pure { event := stored.event, checkinCode := stored.checkinCode, checkins }

/-- Replaces every field.  The code and the status stay. -/
def update (id : EventId) (fields : EventFields) : Service Event := do
  let written ← store (.events (.update id fields))
  if written then do
    let stored ← load id
    pure stored.event
  else fail (.eventNotFound id)

/-- Both ways.  A draft hides the event and closes its door; the check-ins already made stay. -/
def setStatus (id : EventId) (status : EventStatus) : Service Event := do
  let written ← store (.events (.setStatus id status))
  if written then do
    let stored ← load id
    pure stored.event
  else fail (.eventNotFound id)

/-- Idempotent.  The check-ins and their cycles go with the event. -/
def delete (id : EventId) : Service Unit := do
  let _ ← store (.events (.delete id))
  pure ()

/-- What the door shows. -/
def gate (code : CheckinCode) : Service CheckinGate := do
  let event ← publishedByCode code
  let now ← ask .now
  pure { event, window := event.checkinWindow now }

/-- The receipt says what this call paid: a repeat pays nothing. -/
def receipt (event : Event) : CheckedIn → Outcome CheckinReceipt
  | .new instant wasActive =>
      .created { event, checkedInAt := instant, cycles := checkinCycles, activated := !wasActive }
  | .already first => .existing { event, checkedInAt := first, cycles := 0, activated := false }

/-- The check-in and its cycles, then the receipt with the event as it is after the write. -/
def record (id : EventId) (player : PlayerId) : Service (Outcome CheckinReceipt) := do
  let now ← ask .now
  let draw ← ask (.draw .pointEntry)
  let written ← attempt (.events (.checkIn id player now (checkinAward id player) draw))
  match written with
  | .ok outcome => do
      let stored ← load id
      pure (receipt stored.event outcome)
  -- The event or the player went between the read and the write.
  | .error .foreignKeyViolation => do
      let found ← store (.players (.isThere player))
      fail (if found then .eventNotFound id else .playerIdNotFound player)
  | .error error => fail (.ofStorage error)

/-- One check-in per player per event, and only while the doors are open. -/
def checkIn (code : CheckinCode) (player : PlayerId) : Service (Outcome CheckinReceipt) := do
  let event ← publishedByCode code
  let now ← ask .now
  match event.checkinWindow now with
  | .opened => record event.id player
  | .early => fail (.checkinClosed .early)
  | .over => fail (.checkinClosed .over)

/-- An admin checks a player in, whatever the window and the status. -/
def addCheckin (id : EventId) (player : PlayerId) : Service (Outcome CheckinReceipt) := do
  let _ ← load id
  let found ← store (.players (.isThere player))
  if found then record id player else fail (.playerIdNotFound player)

/-- Idempotent.  The cycles the check-in paid go with it. -/
def removeCheckin (id : EventId) (player : PlayerId) : Service Unit := do
  let _ ← load id
  let _ ← store (.events (.removeCheckin id player))
  pure ()

end EventService
end LanBunker
