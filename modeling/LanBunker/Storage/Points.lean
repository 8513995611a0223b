import LanBunker.Models.Pagination
import LanBunker.Relational.Join
import LanBunker.Storage.Database

/-!
# The ledger

Every write to `point_entries`: the adjustments by themselves, and the awards inside the
transaction of the tournament or the event that pays them.  The log of a player and its totals are
read from the same rows.
-/

namespace LanBunker

open Relational

/-- What pays a batch of awards, and the column that ties the rows to it. -/
inductive AwardSource where
  | tournament (id : TournamentId)
  | event (id : EventId)
  deriving DecidableEq, Repr

namespace AwardSource

def tournamentColumn : AwardSource → Option TournamentId
  | .tournament id => some id
  | .event _ => none

def eventColumn : AwardSource → Option EventId
  | .tournament _ => none
  | .event id => some id

end AwardSource

/-- The key of the unique index `(kind, player_id, source_ref)`. -/
def PointRow.key (row : PointRow) : PointKind × PlayerId × UuidText :=
  (row.kind, row.player, row.sourceRef)

/-- The checks of `point_entries` that a domain value can fail. -/
def PointRow.isChecked (row : PointRow) : Bool :=
  row.amount ≠ 0 ∧ -adjustmentMax ≤ row.amount ∧ row.amount ≤ adjustmentMax ∧
    (row.note.all fun note => lengthBetween 1 200 note.chars) ∧ 0 < row.createdAt ∧
    (row.kind = .adjustment ∨ 0 < row.amount) ∧ (row.kind ≠ .adjustment ∨ row.note.isSome) ∧
    (row.kind ≠ .checkin ∨ row.event.isSome)

/-- Every row the foreign keys of an entry point at is there. -/
def Database.hasSources (db : Database) (row : PointRow) : Bool :=
  db.hasPlayer row.player ∧ row.tournament.all db.hasTournament ∧ row.event.all db.hasEvent ∧
    row.createdBy.all db.hasPlayer

def insertPoint (row : PointRow) : Statement := fun db =>
  guarded
    [(row.isChecked, .query),
      (db.pointEntries.all fun other => other.id ≠ row.id, .uniqueViolation .pointEntriesId),
      (db.pointEntries.all fun other => other.key ≠ row.key, .uniqueViolation .pointEntriesSource),
      (db.hasSources row, .foreignKeyViolation)]
    (.ok (1, { db with pointEntries := db.pointEntries ++ [row] }))

/-- The row of one award. -/
def awardRow (source : AwardSource) (instant : Instant) (id : PointEntryId) (award : Award) :
    PointRow :=
  { id, player := award.player, amount := award.amount, kind := award.kind
    sourceRef := award.sourceRef, tournament := source.tournamentColumn
    event := source.eventColumn, note := none, createdBy := none
    createdAt := toMicros instant }

/-- The rows of a batch, from `index` on.  `draw` is what `PointEntryId::generate` hands out. -/
def awardRows (source : AwardSource) (instant : Instant) (draw : Nat → PointEntryId)
    (index : Nat) : List Award → List PointRow
  | [] => []
  | award :: awards =>
      awardRow source instant (draw index) award ::
        awardRows source instant draw (index + 1) awards

/-- Writes the awards of a source on the caller's transaction. -/
def insertAwards {β : Type} (source : AwardSource) (instant : Instant)
    (draw : Nat → PointEntryId) (index : Nat) : List Award → Transaction β Unit
  | [] => pure ()
  | award :: awards => do
      let _ ← Transaction.execute (insertPoint (awardRow source instant (draw index) award))
      insertAwards source instant draw (index + 1) awards

structure NewAdjustment where
  id : PointEntryId
  player : PlayerId
  amount : Amount
  note : Note
  createdBy : PlayerId
  createdAt : Instant
  deriving DecidableEq, Repr

/-- One line of the history.  A tournament line names its tournament, and a check-in names its
event. -/
structure PointEntry where
  id : PointEntryId
  amount : Int
  kind : PointKind
  tournamentId : Option TournamentId
  tournamentName : Option TournamentName
  eventId : Option EventId
  eventName : Option EventName
  note : Option Note
  createdAt : Instant
  deriving DecidableEq, Repr

structure KindTotal where
  kind : PointKind
  cycles : Int
  deriving DecidableEq, Repr

/-- One page of the log, and the total of every kind over the whole log. -/
structure CyclesLog where
  entries : Paginated PointEntry
  /-- Kinds with at least one line, in the order of `PointKind.all`. -/
  totals : List KindTotal
  deriving Repr

namespace PointStorage

/-- An adjustment is its own source. -/
def adjustmentRow (adjustment : NewAdjustment) : PointRow :=
  { id := adjustment.id, player := adjustment.player, amount := adjustment.amount.value
    kind := .adjustment, sourceRef := adjustment.id.toText, tournament := none, event := none
    note := some adjustment.note, createdBy := some adjustment.createdBy
    createdAt := toMicros adjustment.createdAt }

def addAdjustment (adjustment : NewAdjustment) : Method PointEntry :=
  Method.single (insertPoint (adjustmentRow adjustment)) fun _ =>
    { id := adjustment.id, amount := adjustment.amount.value, kind := .adjustment
      tournamentId := none, tournamentName := none, eventId := none, eventName := none
      note := some adjustment.note
      createdAt := instantOf (toMicros adjustment.createdAt) }

/-! ## The log of a player -/

/-- `from point_entries where player_id = ?1`. -/
def linesOf (player : PlayerId) (db : Database) : List PointRow :=
  db.pointEntries.filter fun row => row.player = player

/-- An entry with its tournament and its event, where it has them. -/
abbrev EntryRow := (PointRow × Option TournamentRow) × Option EventRow

/-- `left join tournaments t .. left join events v ..`. -/
def entryRows (player : PlayerId) (db : Database) : List EntryRow :=
  let tournaments := leftJoin (linesOf player db) db.tournaments fun e t => e.tournament = some t.id
  leftJoin tournaments db.events fun row v => row.1.event = some v.id

/-- `order by e.created_at desc, e.id asc`. -/
def compareEntries : EntryRow → EntryRow → Ordering :=
  compareLex (fun left right => compare right.1.1.createdAt left.1.1.createdAt)
    fun left right => compare left.1.1.id.uuid right.1.1.id.uuid

def toEntry (row : EntryRow) : PointEntry :=
  let ((e, t), v) := row
  { id := e.id, amount := e.amount, kind := e.kind, tournamentId := e.tournament
    tournamentName := t.map TournamentRow.name, eventId := e.event
    eventName := v.map EventRow.name, note := e.note, createdAt := instantOf e.createdAt }

/-- Newest first.  The count and the page read one state. -/
def history (player : PlayerId) (query : PageQuery) : Method (Paginated PointEntry) :=
  Method.query fun db =>
    let sorted := Ordered.sortBy compareEntries (entryRows player db)
    .new ((window query.limit query.offset sorted).map toEntry) (linesOf player db).length query

/-- `select kind, sum(amount) .. group by kind`.  The order of the groups is the caller's to
give. -/
def kindTotals (lines : List PointRow) : List KindTotal :=
  (lines.map PointRow.kind).dedup.map fun kind =>
    { kind, cycles := ((lines.filter fun row => row.kind = kind).map PointRow.amount).sum }

/-- The sum of every kind a player has at least one line of. -/
def totals (player : PlayerId) : Method (List KindTotal) :=
  Method.query fun db => kindTotals (linesOf player db)

end PointStorage
end LanBunker
