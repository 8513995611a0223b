import LanBunker.Storage.Points

/-!
# The tables of tournaments, entrants and matches

A write carries the state that its request read, and the statement that writes checks it.
-/

namespace LanBunker

structure NewTournamentRow where
  id : TournamentId
  name : TournamentName
  game : GameName
  mode : GameMode
  description : Description
  date : Date
  registrationClosesAt : Instant
  createdAt : Instant
  deriving DecidableEq, Repr

/-- The row that a new tournament is inserted as. -/
def NewTournamentRow.toRow (row : NewTournamentRow) : TournamentRow :=
  { id := row.id, name := row.name, game := row.game, mode := row.mode
    description := row.description, date := row.date
    registrationClosesAt := toMicros row.registrationClosesAt, status := .draft, winner := none
    createdAt := toMicros row.createdAt }

structure NewEntrant where
  id : EntrantId
  tournament : TournamentId
  player : PlayerId
  skill : Option SkillLevel
  registeredAt : Instant
  deriving DecidableEq, Repr

/-- What an insert of an entrant did. -/
inductive Enrolled where
  | new
  | already
  | refused
  deriving DecidableEq, Repr

/-- The state of a tournament that an entrant write expects. -/
structure EntrantGuard where
  status : TournamentStatus
  /-- The deadline must still be after this instant.  `none` ignores it. -/
  openAt : Option Instant
  deriving DecidableEq, Repr

/-- What a write of the whole bracket did. -/
inductive BracketWrite where
  | done
  /-- A match holds a result, so the bracket stays. -/
  | locked
  /-- The status or the entrants changed since the service read them. -/
  | changed
  deriving DecidableEq, Repr

/-! ## Rows and values -/

namespace MatchRow

def ofMatch (tournament : TournamentId) (m : Match) : MatchRow :=
  { id := m.id, tournament, round := m.round, slot := m.slot
    entrantA := m.entrantA, entrantB := m.entrantB, winner := m.winner }

def toMatch (row : MatchRow) : Match :=
  { id := row.id, round := row.round, slot := row.slot
    entrantA := row.entrantA, entrantB := row.entrantB, winner := row.winner }

/-- `winner is not null and entrant_a is not null and entrant_b is not null`. -/
def isPlayed (row : MatchRow) : Bool :=
  row.winner.isSome && row.entrantA.isSome && row.entrantB.isSome

end MatchRow

/-- The left join of an entrant with its player. -/
def Database.toEntrant (db : Database) (row : EntrantRow) : Entrant :=
  { id := row.id, player := (row.player.bind db.player?).map db.toPlayer, seed := row.seed
    skill := row.skill, registeredAt := instantOf row.registeredAt }

/-- A read knows the years of both instants. -/
abbrev TournamentRow.IsReadable (row : TournamentRow) : Prop :=
  InYears row.registrationClosesAt ∧ InYears row.createdAt

namespace TournamentStorage

/-! ## The tournament itself -/

/-- The checks of `tournaments` that a domain value can fail: a year before 0 is written with a
sign. -/
def isChecked (row : TournamentRow) : Bool :=
  lengthBetween 1 60 row.name.chars ∧ lengthBetween 1 40 row.game.chars ∧
    lengthBetween 1 30 row.mode.chars ∧ lengthBetween 0 1000 row.description.chars ∧
    0 ≤ row.date.year ∧ 0 < row.registrationClosesAt ∧ 0 < row.createdAt

def insertTournament (row : TournamentRow) : Statement := fun db =>
  guarded
    [(isChecked row, .query),
      (db.tournaments.all fun other => other.id ≠ row.id, .uniqueViolation .tournamentsId)]
    (.ok (1, { db with tournaments := db.tournaments ++ [row] }))

def create (row : NewTournamentRow) : Method Unit :=
  Method.single (insertTournament row.toRow) fun _ => ()

/-- The row of a tournament. -/
def tournament? (id : TournamentId) (db : Database) : Option TournamentRow :=
  db.tournaments.find? fun row => row.id = id

/-- The tournament of a row whose instants were converted. -/
def shown (db : Database) (row : TournamentRow) (registrationClosesAt createdAt : Instant) :
    Tournament :=
  { id := row.id, name := row.name, game := row.game, mode := row.mode
    description := row.description, date := row.date, registrationClosesAt, status := row.status
    entrantCount := db.tournamentEntrants.countP fun e => e.tournament = row.id
    hasBracket := db.matchRows.any fun m => m.tournament = row.id
    winner := (row.winner.bind fun winner =>
      db.tournamentEntrants.find? fun e => e.id = winner).map db.toEntrant
    createdAt }

/-- `none` is an instant that no read knows. -/
def toTournament (db : Database) (row : TournamentRow) : Option Tournament := do
  let registrationClosesAt ← fromMicros row.registrationClosesAt
  let createdAt ← fromMicros row.createdAt
  some (shown db row registrationClosesAt createdAt)

/-- What a read of the row gives, if it gives something. -/
def tournamentOf (db : Database) (row : TournamentRow) : Tournament :=
  shown db row (instantOf row.registrationClosesAt) (instantOf row.createdAt)

theorem toTournament_eq_some {db : Database} {row : TournamentRow} {tournament : Tournament} :
    toTournament db row = some tournament ↔
      row.IsReadable ∧ tournamentOf db row = tournament := by
  simp only [toTournament, Option.bind_eq_bind, Option.bind_eq_some_iff, fromMicros_eq_some,
    Option.some_inj]
  constructor
  · rintro ⟨_, ⟨closes, rfl⟩, _, ⟨created, rfl⟩, same⟩
    exact ⟨⟨closes, created⟩, same⟩
  · rintro ⟨⟨closes, created⟩, same⟩
    exact ⟨_, ⟨closes, rfl⟩, _, ⟨created, rfl⟩, same⟩

theorem toTournament_eq_none {db : Database} {row : TournamentRow} :
    toTournament db row = none ↔ ¬row.IsReadable := by
  rw [Option.eq_none_iff_forall_ne_some]
  constructor
  · exact fun unread readable => unread _ (toTournament_eq_some.mpr ⟨readable, rfl⟩)
  · exact fun unreadable tournament read => unreadable (toTournament_eq_some.mp read).1

/-- `none` when no row has the id. -/
def get (id : TournamentId) : Method (Option Tournament) := fun db =>
  (converted (toTournament db) (tournament? id db), db)

theorem get_eq_ok {id : TournamentId} {db : Database} {tournament : Tournament} :
    (get id db).1 = .ok (some tournament) ↔
      ∃ row, tournament? id db = some row ∧ row.IsReadable ∧ tournamentOf db row = tournament := by
  simp only [get, converted_eq_ok, toTournament_eq_some]

/-- An absent field keeps its value. -/
def coalesced (update : TournamentUpdate) (row : TournamentRow) : TournamentRow :=
  { row with
    name := update.name.getD row.name
    game := update.game.getD row.game
    mode := update.mode.getD row.mode
    description := update.description.getD row.description
    date := update.date.getD row.date
    registrationClosesAt :=
      (update.registrationClosesAt.map toMicros).getD row.registrationClosesAt }

def updateTournament (id : TournamentId) (expected : TournamentStatus)
    (update : TournamentUpdate) : Statement := fun db =>
  let touched := fun row : TournamentRow => row.id = id ∧ row.status = expected
  guarded
    [(db.tournaments.all fun row => !touched row || isChecked (coalesced update row), .query)]
    (.ok (db.tournaments.countP touched,
      { db with
        tournaments := db.tournaments.map fun row =>
          if touched row then coalesced update row else row }))

/-- `false` when no row has the id and `expected` status. -/
def update (id : TournamentId) (expected : TournamentStatus) (update : TournamentUpdate) :
    Method Bool :=
  Method.single (updateTournament id expected update) fun updated => 0 < updated

/-- `references tournament_entrants(id)` of the winner column, null included. -/
def hasWinner (db : Database) (winner : Option EntrantId) : Bool :=
  winner.all fun winner => db.tournamentEntrants.any fun e => e.id = winner

def updateStatus (id : TournamentId) (source target : TournamentStatus)
    (winner : Option EntrantId) : Statement := fun db =>
  let touched := fun row : TournamentRow => row.id = id ∧ row.status = source
  if db.tournaments.any touched then
    guarded
      [(target = .concluded ∨ winner = none, .query),
        (hasWinner db winner, .foreignKeyViolation)]
      (.ok (db.tournaments.countP touched,
        { db with
          tournaments := db.tournaments.map fun row =>
            if touched row then { row with status := target, winner } else row }))
  else .ok (0, db)

/-- Moves the status from `source` to `target`, with the winner and the cycles the move pays, in
one transaction.  `false` when the status is no longer `source`, and then nothing is written. -/
def setStatus (id : TournamentId) (source target : TournamentStatus) (winner : Option EntrantId)
    (awards : List Award) (instant : Instant) (draw : Nat → PointEntryId) : Method Bool :=
  Transaction.commit do
    let updated ← Transaction.execute (updateStatus id source target winner)
    if updated = 0 then Transaction.rollback false
    else
      insertAwards (.tournament id) instant draw 0 awards
      pure true

/-- Entrants, matches and entries go with the tournament. -/
def deleteTournament (id : TournamentId) : Statement := fun db =>
  if db.hasTournament id then
    .ok (db.tournaments.countP fun row => row.id = id,
      { db with
        tournaments := (db.unlinkWinners fun e => e.tournament = id).filter fun row => row.id ≠ id
        tournamentEntrants := db.tournamentEntrants.filter fun row => row.tournament ≠ id
        matchRows := db.matchRows.filter fun row => row.tournament ≠ id
        pointEntries := db.pointEntries.filter fun row => row.tournament ≠ some id })
  else .ok (0, db)

def delete (id : TournamentId) : Method Bool :=
  Method.single (deleteTournament id) fun removed => 0 < removed

/-! ## Entrants -/

/-- The most entrants, and matches, one read returns. -/
def readLimit : Nat := maxEntrants

/-- `order by seed is null, seed asc, registered_at asc, id asc`. -/
def entrantOrder (left right : EntrantRow) : Bool :=
  (compare left.seed.isNone right.seed.isNone
    |>.then (compare (left.seed.getD 0) (right.seed.getD 0))
    |>.then (compare left.registeredAt right.registeredAt)
    |>.then (compare left.id.uuid right.id.uuid)).isLE

/-- The entrant rows of a tournament, in table order. -/
def entrantRows (tournament : TournamentId) (db : Database) : List EntrantRow :=
  db.tournamentEntrants.filter fun row => row.tournament = tournament

/-- Seeded entrants first in seed order, then the rest by registration. -/
def entrants (tournament : TournamentId) : Method (List Entrant) := Method.query fun db =>
  (((entrantRows tournament db).insertionSort fun left right => entrantOrder left right).take
    readLimit).map db.toEntrant

def entrantOf (tournament : TournamentId) (player : PlayerId) : Method (Option Entrant) :=
  Method.query fun db =>
    (db.tournamentEntrants.find? fun row =>
      row.tournament = tournament ∧ row.player = some player).map db.toEntrant

/-- The condition every entrant write shares: the status and the deadline the guard names, and no
bracket. -/
def holds (guard : EntrantGuard) (tournament : TournamentId) (db : Database) : Bool :=
  (db.tournaments.any fun t => t.id = tournament ∧ t.status = guard.status ∧
    guard.openAt.all fun openAt => toMicros openAt < t.registrationClosesAt) &&
  !db.matchRows.any fun m => m.tournament = tournament

/-- A free place under `maxEntrants`, or a player who is in already. -/
def hasPlace (tournament : TournamentId) (player : PlayerId) (db : Database) : Bool :=
  db.tournamentEntrants.countP (fun e => e.tournament = tournament) < maxEntrants ∨
    db.tournamentEntrants.any fun e => e.tournament = tournament ∧ e.player = some player

def entrantRow (entrant : NewEntrant) : EntrantRow :=
  { id := entrant.id, tournament := entrant.tournament, player := some entrant.player
    seed := none, registeredAt := toMicros entrant.registeredAt, skill := entrant.skill }

def insertEntrant (entrant : NewEntrant) (guard : EntrantGuard) : Statement := fun db =>
  if holds guard entrant.tournament db ∧ hasPlace entrant.tournament entrant.player db then
    let row := entrantRow entrant
    guarded
      [(0 < row.registeredAt, .query),
        (db.tournamentEntrants.all fun other => other.id ≠ row.id, .uniqueViolation .entrantsId),
        (db.tournamentEntrants.all fun other =>
            other.tournament ≠ row.tournament ∨ other.player ≠ some entrant.player,
          .uniqueViolation .entrantsPlayer),
        (db.hasTournament row.tournament ∧ db.hasPlayer entrant.player, .foreignKeyViolation)]
      (.ok (1, { db with tournamentEntrants := db.tournamentEntrants ++ [row] }))
  else .ok (0, db)

def addEntrant (entrant : NewEntrant) (guard : EntrantGuard) : Method Enrolled := fun db =>
  match insertEntrant entrant guard db with
  | .ok (0, db) => (.ok .refused, db)
  | .ok (_, db) => (.ok .new, db)
  | .error (.uniqueViolation .entrantsPlayer) => (.ok .already, db)
  | .error error => (.error error, db)

/-- The level of the entry of `player`. -/
def setSkill (tournament : TournamentId) (player : PlayerId) (skill : SkillLevel)
    (guard : EntrantGuard) : Method Bool :=
  Method.single (fun db =>
    let touched := fun row : EntrantRow =>
      row.tournament = tournament ∧ row.player = some player ∧ holds guard tournament db
    .ok (db.tournamentEntrants.countP touched,
      { db with
        tournamentEntrants := db.tournamentEntrants.map fun row =>
          if touched row then { row with skill := some skill } else row }))
    fun updated => 0 < updated

/-- `delete from tournament_entrants`.  No match may point at a row that goes, and a winner that
goes is no winner any more. -/
def deleteEntrants (gone : EntrantRow → Bool) : Statement := fun db =>
  guarded
    [(db.tournamentEntrants.all fun row => !gone row || db.matchRows.all fun m =>
        m.tournament ≠ row.tournament ∨
          m.entrantA ≠ some row.id ∧ m.entrantB ≠ some row.id ∧ m.winner ≠ some row.id,
      .foreignKeyViolation)]
    (.ok (db.tournamentEntrants.countP gone,
      { db with
        tournaments := db.unlinkWinners gone
        tournamentEntrants := db.tournamentEntrants.filter fun row => !gone row }))

/-- `true` when a row was removed. -/
def removeEntrant (tournament : TournamentId) (entrant : EntrantId) (guard : EntrantGuard) :
    Method Bool :=
  Method.single (fun db =>
    deleteEntrants (fun row => row.tournament = tournament ∧ row.id = entrant ∧
      holds guard tournament db) db)
    fun removed => 0 < removed

/-- The same as `removeEntrant`, by the player of the entry. -/
def removeEntrantOf (tournament : TournamentId) (player : PlayerId) (guard : EntrantGuard) :
    Method Bool :=
  Method.single (fun db =>
    deleteEntrants (fun row => row.tournament = tournament ∧ row.player = some player ∧
      holds guard tournament db) db)
    fun removed => 0 < removed

/-! ## Matches -/

/-- `order by round asc, slot asc`. -/
def matchOrder (left right : MatchRow) : Bool :=
  left.round < right.round ∨ left.round = right.round ∧ left.slot ≤ right.slot

/-- The match rows of a tournament, in table order. -/
def matchRowsOf (tournament : TournamentId) (db : Database) : List MatchRow :=
  db.matchRows.filter fun row => row.tournament = tournament

/-- Every match, in round and slot order.  Empty when there is no bracket. -/
def matchesOf (tournament : TournamentId) : Method (List Match) := Method.query fun db =>
  (((matchRowsOf tournament db).insertionSort fun left right => matchOrder left right).take
    readLimit).map MatchRow.toMatch

/-- `done` when the tournament still has the `expected` status and no match has a result. -/
def bracketBlocked (tournament : TournamentId) (expected : TournamentStatus) (db : Database) :
    BracketWrite :=
  let statusHolds := db.tournaments.any fun t => t.id = tournament ∧ t.status = expected
  let played := db.matchRows.any fun m => m.tournament = tournament ∧ m.isPlayed
  if !statusHolds then .changed else if played then .locked else .done

/-- `update tournament_entrants set seed = null where tournament_id = ..`. -/
def clearSeeds (tournament : TournamentId) : Statement := fun db =>
  let touched := fun row : EntrantRow => row.tournament = tournament
  .ok (db.tournamentEntrants.countP touched,
    { db with
      tournamentEntrants := db.tournamentEntrants.map fun row =>
        if touched row then { row with seed := none } else row })

def updateSeed (tournament : TournamentId) (entrant : EntrantId) (seed : Nat) : Statement :=
  fun db =>
    let touched := fun row : EntrantRow => row.tournament = tournament ∧ row.id = entrant
    .ok (db.tournamentEntrants.countP touched,
      { db with
        tournamentEntrants := db.tournamentEntrants.map fun row =>
          if touched row then { row with seed := some seed } else row })

/-- The seeds from `seed` on, in the given order.  An entrant that is not there drops the whole
write. -/
def assignSeeds (tournament : TournamentId) (seed : Nat) :
    List EntrantId → Transaction BracketWrite Unit
  | [] => pure ()
  | entrant :: order => do
      let updated ← Transaction.execute (updateSeed tournament entrant seed)
      if updated ≠ 1 then Transaction.rollback .changed
      else assignSeeds tournament (seed + 1) order

def deleteMatches (tournament : TournamentId) : Statement := fun db =>
  .ok ((matchRowsOf tournament db).length,
    { db with matchRows := db.matchRows.filter fun row => row.tournament ≠ tournament })

/-- The column checks of `matches`. -/
def isMatchChecked (row : MatchRow) : Bool :=
  1 ≤ row.round ∧ (row.winner = none ∨ row.winner = row.entrantA ∨ row.winner = row.entrantB)

/-- The foreign keys of `matches`. -/
def hasSides (db : Database) (row : MatchRow) : Bool :=
  db.hasTournament row.tournament ∧ db.hasEntrant row.tournament row.entrantA ∧
    db.hasEntrant row.tournament row.entrantB ∧ db.hasEntrant row.tournament row.winner

def insertMatch (row : MatchRow) : Statement := fun db =>
  guarded
    [(isMatchChecked row, .query),
      (db.matchRows.all fun other => other.id ≠ row.id, .uniqueViolation .matchesId),
      (db.matchRows.all fun other =>
          other.tournament ≠ row.tournament ∨ other.round ≠ row.round ∨ other.slot ≠ row.slot,
        .uniqueViolation .matchesSlot),
      (hasSides db row, .foreignKeyViolation)]
    (.ok (1, { db with matchRows := db.matchRows ++ [row] }))

def insertMatches (tournament : TournamentId) : List Match → Transaction BracketWrite Unit
  | [] => pure ()
  | m :: rest => do
      let _ ← Transaction.execute (insertMatch (.ofMatch tournament m))
      insertMatches tournament rest

/-- Replaces the whole bracket: the seeds follow `order`, and the old matches go away. -/
def replaceBracket (tournament : TournamentId) (expected : TournamentStatus)
    (order : List EntrantId) (bracket : Bracket) : Method BracketWrite := Transaction.commit do
  let blocked ← Transaction.read (bracketBlocked tournament expected)
  if blocked ≠ .done then Transaction.rollback blocked
  else
    let _ ← Transaction.execute (clearSeeds tournament)
    assignSeeds tournament 1 order
    let _ ← Transaction.execute (deleteMatches tournament)
    insertMatches tournament bracket.flat
    pure .done

/-- Removes the matches and the seeds, under the same guard as `replaceBracket`. -/
def deleteBracket (tournament : TournamentId) (expected : TournamentStatus) :
    Method BracketWrite := Transaction.commit do
  let blocked ← Transaction.read (bracketBlocked tournament expected)
  if blocked ≠ .done then Transaction.rollback blocked
  else
    let _ ← Transaction.execute (deleteMatches tournament)
    let _ ← Transaction.execute (clearSeeds tournament)
    pure .done

/-- The row a change of a result reads: the match as the service read it. -/
def isAsRead (tournament : TournamentId) (before after : Match) (row : MatchRow) : Bool :=
  row.id = after.id ∧ row.tournament = tournament ∧ row.entrantA = before.entrantA ∧
    row.entrantB = before.entrantB ∧ row.winner = before.winner

def withResult (after : Match) (row : MatchRow) : MatchRow :=
  { row with entrantA := after.entrantA, entrantB := after.entrantB, winner := after.winner }

def updateMatch (tournament : TournamentId) (before after : Match) : Statement := fun db =>
  let touched := isAsRead tournament before after
  guarded
    [(db.matchRows.all fun row => !touched row || isMatchChecked (withResult after row), .query),
      (db.matchRows.all fun row => !touched row || hasSides db (withResult after row),
        .foreignKeyViolation)]
    (.ok (db.matchRows.countP touched,
      { db with
        matchRows := db.matchRows.map fun row =>
          if touched row then withResult after row else row }))

/-- Writes each change of a result, as long as its row holds the value read. -/
def writeChanges (tournament : TournamentId) : List (Match × Match) → Transaction Bool Unit
  | [] => pure ()
  | (before, after) :: changes => do
      let updated ← Transaction.execute (updateMatch tournament before after)
      if updated ≠ 1 then Transaction.rollback false else writeChanges tournament changes

/-- A row that no longer holds the value read refuses the whole write: `false`. -/
def updateMatches (tournament : TournamentId) (expected : TournamentStatus)
    (changes : List (Match × Match)) : Method Bool := Transaction.commit do
  let statusHolds ← Transaction.read fun db =>
    db.tournaments.any fun t => t.id = tournament ∧ t.status = expected
  if !statusHolds then Transaction.rollback false
  else
    writeChanges tournament changes
    pure true

end TournamentStorage
end LanBunker
