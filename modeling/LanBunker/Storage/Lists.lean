import LanBunker.Relational.Windows
import LanBunker.Storage.Events
import LanBunker.Storage.Matches
import LanBunker.Storage.Tournaments

/-!
# The lists of tournaments and events

The public lists hide drafts, and the lists of the backoffice show everything.  The count and the
page of a list read one state.
-/

namespace LanBunker

open Relational

namespace TournamentStorage

/-- The most tournaments of a player that one read returns. -/
def registrationsMax : Nat := 1000

/-- `where ?1 = 1 or t.status != 'draft'`. -/
def isListed (includeDrafts : Bool) (row : TournamentRow) : Bool :=
  includeDrafts || row.status != .draft

/-- `order by t.date desc, t.created_at desc, t.id asc`. -/
def compareListed : TournamentRow → TournamentRow → Ordering :=
  compareLex (fun left right => MatchStorage.compareDays right.date left.date) <|
    compareLex (fun left right => compare right.createdAt left.createdAt)
      fun left right => compare left.id.uuid right.id.uuid

/-- The tournaments of a list, in order. -/
def listed (includeDrafts : Bool) (db : Database) : List TournamentRow :=
  Ordered.sortBy compareListed (db.tournaments.filter (isListed includeDrafts))

/-- The newest day first. -/
def list (query : PageQuery) (includeDrafts : Bool) : Method (Paginated Tournament) := fun db =>
  let page := window query.limit query.offset (listed includeDrafts db)
  ((page.mapM (converting (toTournament db))).map fun items =>
    .new items (db.tournaments.countP (isListed includeDrafts)) query, db)

/-- The tournaments the player entered, in any status, the newest entry first. -/
def tournamentsOf (player : PlayerId) : Method (List TournamentId) := Method.query fun db =>
  let rows := db.tournamentEntrants.filter fun row => row.player = some player
  ((Ordered.sortBy (fun left right => compare right.registeredAt left.registeredAt) rows).take
    registrationsMax).map EntrantRow.tournament

end TournamentStorage

namespace EventStorage

/-- `where ?1 = 1 or e.status != 'draft'`. -/
def isListed (includeDrafts : Bool) (row : EventRow) : Bool :=
  includeDrafts || row.status != .draft

/-- `order by e.starts_at desc, e.id asc`. -/
def compareListed : EventRow → EventRow → Ordering :=
  compareLex (fun left right => compare right.startsAt left.startsAt)
    fun left right => compare left.id.uuid right.id.uuid

/-- The events of a list, in order. -/
def listed (includeDrafts : Bool) (db : Database) : List EventRow :=
  Ordered.sortBy compareListed (db.events.filter (isListed includeDrafts))

/-- `TryFrom<EventRow> for StoredEvent`, without the code. -/
def tryEvent (db : Database) (row : EventRow) : Except StorageError Event :=
  (converting (toStored db) row).map StoredEvent.event

/-- The latest night first. -/
def list (query : PageQuery) (includeDrafts : Bool) : Method (Paginated Event) := fun db =>
  let page := window query.limit query.offset (listed includeDrafts db)
  ((page.mapM (tryEvent db)).map fun items =>
    .new items (db.events.countP (isListed includeDrafts)) query, db)

/-- The events the player checked in to, the latest check-in first. -/
def eventsOf (player : PlayerId) : Method (List EventId) := Method.query fun db =>
  let rows := db.eventCheckins.filter fun row => row.player = player
  ((Ordered.sortBy (fun left right => compare right.checkedInAt left.checkedInAt) rows).take
    checkinsMax).map CheckinRow.event

end EventStorage
end LanBunker
