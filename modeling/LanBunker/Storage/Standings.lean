import LanBunker.Models.Pagination
import LanBunker.Relational.Join
import LanBunker.Relational.Text
import LanBunker.Storage.Players

/-!
# The leaderboard

The view `player_standings` with its windows, and the list of the players that joins it.
-/

namespace LanBunker

open Relational

/-! ## The view `player_standings` -/

/-- A row of the inner select. -/
structure TallyRow where
  player : PlayerId
  cycles : Int
  active : Bool
  deriving DecidableEq, Repr

/-- A row of `player_standings`. -/
structure StandingRow where
  player : PlayerId
  cycles : Int
  active : Bool
  place : Option Nat
  players : Nat
  deriving DecidableEq, Repr

namespace Database

variable (db : Database)

/-- `select p.id, coalesce(sum(e.amount), 0), (p.role = 'admin' or exists ..) from players p`. -/
def tallies : List TallyRow :=
  db.players.map fun p => { player := p.id, cycles := db.cyclesOf p.id, active := db.isActive p }

/-- `rank() over (partition by active order by cycles desc)` and `sum(active) over ()`. -/
def playerStandings : List StandingRow :=
  db.tallies.map fun tally =>
    { player := tally.player, cycles := tally.cycles, active := tally.active
      place :=
        if tally.active then
          some <| rankOver (fun left right => compare right.cycles left.cycles)
            (db.tallies.filter fun other => other.active = tally.active) tally
        else none
      players := db.tallies.countP TallyRow.active }

end Database

/-! ## The list -/

inductive ListOrder where
  /-- The leaderboard: first place first. -/
  | standing
  /-- The roster of the backoffice: the last signup first. -/
  | newest
  deriving DecidableEq, Repr

/-- `lower`, of ASCII. -/
def lower (chars : List Char) : List Char := chars.map Char.toLower

namespace PlayerStorage

/-- A player joined with the standing. -/
abbrev RosterRow := PlayerRow × StandingRow

/-- The active flag and the place, which an inactive player does not have. -/
def checkedPlace : Bool → Option Nat → Except StorageError (Option Nat)
  | true, some place => (tryU32 place).map some
  | false, none => .ok none
  | true, none | false, some _ => .error .malformedRow

/-- `TryFrom<PlayerRow> for Player`. -/
def tryPlayer (row : RosterRow) : Except StorageError Player := do
  let (p, s) := row
  let place ← checkedPlace s.active s.place
  let players ← tryU32 s.players
  pure
    { id := p.id, handle := p.handle, role := p.role, active := s.active
      standing := Standing.new s.cycles place players, createdAt := instantOf p.createdAt }

/-- `where (?4 is null or instr(lower(p.handle), lower(?4)) > 0) and (?5 is null or ..)`. -/
def isListed (term : Option (List Char)) (active : Option Bool) (row : RosterRow) : Bool :=
  (term.all fun term => 0 < instr (lower row.1.handle.chars) (lower term)) &&
    active.all fun active => row.2.active = active

/-- `case when ?1 = 1 then s.place is null else 0 end`. -/
def isPlaceless (order : ListOrder) (row : RosterRow) : Bool :=
  match order with
  | .standing => row.2.place.isNone
  | .newest => false

/-- `case when ?1 = 1 then s.place else 0 end`. -/
def placeColumn (order : ListOrder) (row : RosterRow) : Option Nat :=
  match order with
  | .standing => row.2.place
  | .newest => some 0

/-- `order by case .. end asc, case .. end asc, p.created_at desc, p.id asc`. -/
def compareRoster (order : ListOrder) : RosterRow → RosterRow → Ordering :=
  compareLex (fun left right => compare (isPlaceless order left) (isPlaceless order right)) <|
    compareLex (fun left right =>
      Ordered.nullsFirst compare (placeColumn order left) (placeColumn order right)) <|
    compareLex (fun left right => compare right.1.createdAt left.1.createdAt)
      fun left right => compare left.1.id.uuid right.1.id.uuid

/-- `from players p join player_standings s on s.player_id = p.id where ..`. -/
def listed (term : Option (List Char)) (active : Option Bool) (db : Database) : List RosterRow :=
  (innerJoin db.players db.playerStandings fun p s => s.player = p.id).filter
    (isListed term active)

/-- The count and the page read one state.  The id breaks every tie. -/
def list (query : PageQuery) (term : Option (List Char)) (active : Option Bool)
    (order : ListOrder) : Method (Paginated Player) := fun db =>
  let rows := listed term active db
  let page := window query.limit query.offset (Ordered.sortBy (compareRoster order) rows)
  ((page.mapM tryPlayer).map fun items => .new items rows.length query, db)

end PlayerStorage
end LanBunker
