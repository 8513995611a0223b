import LanBunker.Models.Pagination
import LanBunker.Models.Rivalry
import LanBunker.Ordered.Sorting
import LanBunker.Relational.Join
import LanBunker.Storage.Columns

/-!
# The read side of the results

The view `player_matches` has one row per side of every played match.  A bye is not a match,
because the join needs both entrants, and a draft is not public.
-/

namespace LanBunker

open Relational

/-- `=` of SQL, which is null where a side is. -/
def sqlEquals {α : Type} [DecidableEq α] (left right : Option α) : Option Bool :=
  match left, right with
  | some left, some right => some (left = right)
  | _, _ => none

/-- A row of `player_matches`. -/
structure SideRow where
  matchId : MatchId
  tournament : TournamentId
  playedOn : Date
  tournamentCreatedAt : Micros
  round : Nat
  slot : Nat
  player : Option PlayerId
  opponent : Option PlayerId
  won : Option Bool
  deriving DecidableEq, Repr

/-- A match joined with its tournament and its two entrants. -/
abbrev Joined := ((MatchRow × TournamentRow) × EntrantRow) × EntrantRow

/-- `t.status in ('live', 'concluded')`. -/
def TournamentStatus.isPublic (status : TournamentStatus) : Bool :=
  status == .live || status == .concluded

namespace Database

variable (db : Database)

/-- `from matches m join tournaments t .. join tournament_entrants a .. join tournament_entrants b
.. where ..`. -/
def joinedMatches : List Joined :=
  let tournaments := innerJoin db.matchRows db.tournaments fun m t => t.id = m.tournament
  let as := innerJoin tournaments db.tournamentEntrants fun row a =>
    a.tournament = row.1.tournament ∧ row.1.entrantA = some a.id
  let bs := innerJoin as db.tournamentEntrants fun row b =>
    b.tournament = row.1.1.tournament ∧ row.1.1.entrantB = some b.id
  bs.filter fun row => row.1.1.1.winner.isSome ∧ row.1.1.2.status.isPublic

/-- The row of one side. -/
def sideRow (m : MatchRow) (t : TournamentRow) (own other : EntrantRow)
    (entrant : Option EntrantId) : SideRow :=
  { matchId := m.id, tournament := m.tournament, playedOn := t.date
    tournamentCreatedAt := t.createdAt, round := m.round, slot := m.slot
    player := own.player, opponent := other.player, won := sqlEquals m.winner entrant }

def sideA (row : Joined) : SideRow :=
  sideRow row.1.1.1 row.1.1.2 row.1.2 row.2 row.1.1.1.entrantA

def sideB (row : Joined) : SideRow :=
  sideRow row.1.1.1 row.1.1.2 row.2 row.1.2 row.1.1.1.entrantB

/-- The view `player_matches`. -/
def playerMatches : List SideRow := db.joinedMatches.map sideA ++ db.joinedMatches.map sideB

end Database

namespace MatchStorage

/-- A count of SQLite as 32 bits. -/
def count (raw : Nat) : Except StorageError Nat := tryU32 raw

theorem count_eq_ok {raw counted : Nat} (ok : count raw = .ok counted) : counted = raw :=
  tryU32_eq_ok ok

theorem count_of_lt {raw : Nat} (short : raw < 2 ^ 32) : count raw = .ok raw := tryU32_of_lt short

/-- `from player_matches where player_id = ?1`. -/
def rowsOf (player : PlayerId) (db : Database) : List SideRow :=
  db.playerMatches.filter fun row => row.player = some player

/-- Wins and losses over every played match of the player. -/
def record (player : PlayerId) : Method MatchRecord := fun db =>
  let answer := do
    let wins ← count ((rowsOf player db).countP fun row => row.won = some true)
    let losses ← count ((rowsOf player db).countP fun row => row.won = some false)
    pure { wins, losses }
  (answer, db)

/-! ## The nemesis -/

/-- `printf('%020d', value)`. -/
def printf20 (value : Micros) : List Char :=
  if value < 0 then '-' :: numeral 19 value.natAbs else numeral 20 value.natAbs

/-- `v.played_on || printf('%020d', v.tournament_created_at)`. -/
def recency (row : SideRow) : List Char :=
  formatDay row.playedOn ++ printf20 row.tournamentCreatedAt

/-- `max` over texts, null over none. -/
def maxText (texts : List (List Char)) : Option (List Char) :=
  (Ordered.sortBy (fun left right => compareText right left) texts).head?

/-- A side of a played match, with the account of the opponent. -/
abbrev Duel := SideRow × PlayerRow

def Duel.isLost (duel : Duel) : Bool := duel.1.won = some false

/-- A group of `group by v.opponent_id`. -/
structure Rival where
  opponent : PlayerRow
  wins : Nat
  losses : Nat
  /-- `max(case when v.won = 0 then .. end)`. -/
  latest : Option (List Char)

/-- The group of one opponent.  Every row of it has the same account. -/
def rival? (duels : List Duel) (opponent : Option PlayerId) : Option Rival :=
  let group := duels.filter fun duel => duel.1.opponent = opponent
  group.head?.map fun first =>
    { opponent := first.2
      wins := group.countP fun duel => duel.1.won = some true
      losses := group.countP Duel.isLost
      latest := maxText ((group.filter Duel.isLost).map fun duel => recency duel.1) }

/-- `from player_matches v join players p on p.id = v.opponent_id .. where v.player_id = ?1`. -/
def duelsOf (player : PlayerId) (db : Database) : List Duel :=
  innerJoin (rowsOf player db) db.players fun row p => row.opponent = some p.id

/-- `group by v.opponent_id`. -/
def rivals (player : PlayerId) (db : Database) : List Rival :=
  let duels := duelsOf player db
  (duels.map fun duel => duel.1.opponent).dedup.filterMap (rival? duels)

/-- `order by sum(v.won = 0) desc, max(..) desc, p.handle collate nocase asc`. -/
def compareRivals : Rival → Rival → Ordering :=
  compareLex (fun left right => compare right.losses left.losses) <|
    compareLex (fun left right => Ordered.nullsFirst compareText right.latest left.latest)
      fun left right => compareText left.opponent.handle.folded right.opponent.handle.folded

def toRivalry (db : Database) (rival : Rival) : Except StorageError Rivalry := do
  let wins ← count rival.wins
  let losses ← count rival.losses
  pure { opponent := db.toPlayer rival.opponent, wins, losses }

/-- The opponent who beat the player the most, once they reach `nemesisMinLosses` wins over them.
An opponent who deleted their account never holds the title. -/
def nemesis (player : PlayerId) : Method (Option Rivalry) := fun db =>
  let named := (rivals player db).filter fun rival => nemesisMinLosses ≤ rival.losses
  ((Ordered.sortBy compareRivals named).head?.mapM (toRivalry db), db)

/-! ## The match log -/

/-- The order of the stored days, which are text.  Their years have four digits and no sign. -/
def compareDays (left right : Date) : Ordering :=
  compare left.year right.year
    |>.then (compare left.month right.month)
    |>.then (compare left.day right.day)

/-- `order by played_on desc, tournament_created_at desc, round desc, slot asc`. -/
def newestFirst (left right : SideRow) : Bool :=
  (compareDays right.playedOn left.playedOn
    |>.then (compare right.tournamentCreatedAt left.tournamentCreatedAt)
    |>.then (compare right.round left.round)
    |>.then (compare left.slot right.slot)).isLE

/-- `select max(round) from matches m where m.tournament_id = ..`. -/
def roundsOf (tournament : TournamentId) (db : Database) : Nat :=
  ((TournamentStorage.matchRowsOf tournament db).map MatchRow.round).foldr max 0

/-- A row of the match log, joined with the name and the game of its tournament and with the
account of the opponent, if it is still there. -/
def toPlayedMatch (db : Database) (row : SideRow × TournamentRow) :
    Except StorageError PlayedMatch := do
  let (side, tournament) := row
  let round ← count side.round
  let rounds ← count (roundsOf side.tournament db)
  match side.won with
  | none => .error .query
  | some won =>
      .ok
        { id := side.matchId, tournamentId := side.tournament, tournamentName := tournament.name
          game := tournament.game, date := side.playedOn, round, rounds
          opponent := (side.opponent.bind db.player?).map db.toPlayer, won }

/-- The played matches of the player, newest first.  The count and the page read one state. -/
def history (player : PlayerId) (query : PageQuery) : Method (Paginated PlayedMatch) := fun db =>
  let total := (rowsOf player db).length
  let joined := innerJoin (rowsOf player db) db.tournaments fun row t => t.id = row.tournament
  let sorted := joined.insertionSort fun left right => newestFirst left.1 right.1
  let page := (sorted.drop query.offset).take query.limit
  (page.mapM (toPlayedMatch db) |>.map fun items => .new items total query, db)

end MatchStorage
end LanBunker
