import LanBunker.Models.Event
import LanBunker.Models.Points

/-!
# The database

The tables of `schema.sql`, the statements that several storages share, and transactions.  A row
holds domain values, so a stored value is never malformed.  Instants are kept in micros.
-/

namespace LanBunker

/-- Unix micros, the unit of every instant column. -/
abbrev Micros := Int

/-- `unix_timestamp_nanos() / 1_000`, which rounds toward zero. -/
def toMicros (instant : Instant) : Micros := instant.tdiv 1000

/-- The instant of so many micros.  What only the server's clock wrote is read like this: the clock
is never past the last year. -/
def instantOf (micros : Micros) : Instant := micros * 1000

/-- The first microsecond of the year -9999. -/
def firstMicros : Micros := -377705116800000000

/-- The last microsecond of the year 9999. -/
def lastMicros : Micros := 253402300799999999

abbrev InYears (micros : Micros) : Prop := firstMicros ≤ micros ∧ micros ≤ lastMicros

/-- `OffsetDateTime::from_unix_timestamp_nanos`, which is in UTC and knows four digits of a year.  A
deadline with an offset may be later, and is stored. -/
def fromMicros (micros : Micros) : Option Instant :=
  if InYears micros then some (instantOf micros) else none

/-- The first instant past the last year. -/
def year10000 : Instant := instantOf (lastMicros + 1)

section Micros

variable {instant : Instant}

theorem toMicros_mono {later : Instant} (before : instant ≤ later) :
    toMicros instant ≤ toMicros later := Int.tdiv_le_tdiv (by decide) before

/-- An instant after the epoch is before a whole number of micros when its micros are. -/
theorem toMicros_lt_iff {micros : Micros} (after_epoch : 0 ≤ instant) :
    toMicros instant < micros ↔ instant < instantOf micros := by
  rw [toMicros, instantOf, Int.tdiv_eq_ediv_of_nonneg after_epoch]
  exact Int.ediv_lt_iff_lt_mul (by decide)

theorem fromMicros_eq_some {micros : Micros} :
    fromMicros micros = some instant ↔ InYears micros ∧ instantOf micros = instant := by
  rw [fromMicros, Option.ite_none_right_eq_some, Option.some_inj]

/-- Past the epoch an instant is read until the last year ends. -/
theorem inYears_of_pos {micros : Micros} (positive : 0 < micros) (le : micros ≤ lastMicros) :
    InYears micros := ⟨Int.le_trans (by decide) (Int.le_of_lt positive), le⟩

theorem toMicros_le_last_iff : toMicros instant ≤ lastMicros ↔ instant < year10000 := by
  rcases le_or_gt 0 instant with after_epoch | before_epoch
  · rw [← Int.lt_add_one_iff, toMicros_lt_iff after_epoch]
    rfl
  · have early : toMicros instant ≤ toMicros 0 := toMicros_mono (Int.le_of_lt before_epoch)
    exact iff_of_true (Int.le_trans early (by decide)) (Int.lt_trans before_epoch (by decide))

/-- The micros of an instant are positive from the first microsecond on. -/
theorem toMicros_pos_iff : 0 < toMicros instant ↔ 1000 ≤ instant := by
  rcases le_or_gt 0 instant with after_epoch | before_epoch
  · rw [toMicros, Int.tdiv_eq_ediv_of_nonneg after_epoch, ← Int.add_one_le_iff,
      Int.le_ediv_iff_mul_le (by decide)]
    rfl
  · refine iff_of_false (not_lt.mpr ?_) fun le => ?_
    · have flipped : 0 ≤ (-instant).tdiv 1000 :=
        Int.tdiv_nonneg (Int.neg_nonneg_of_nonpos (Int.le_of_lt before_epoch)) (by decide)
      rw [Int.neg_tdiv] at flipped
      exact Int.nonpos_of_neg_nonneg flipped
    · exact absurd (Int.lt_of_lt_of_le before_epoch (by decide : (0 : Int) ≤ 1000)) (not_lt.mpr le)

theorem toMicros_lt_toMicros {first second : Instant} (le : 1000 ≤ first) (lt : first < second) :
    toMicros first < toMicros second ↔ first / 1000 < second / 1000 := by
  have first_nonneg : 0 ≤ first := Int.le_trans (by decide) le
  have second_nonneg : 0 ≤ second := Int.le_trans first_nonneg (Int.le_of_lt lt)
  rw [toMicros, toMicros, Int.tdiv_eq_ediv_of_nonneg first_nonneg,
    Int.tdiv_eq_ediv_of_nonneg second_nonneg]

end Micros

/-! ## Rows -/

structure PlayerRow where
  id : PlayerId
  handle : Handle
  passwordHash : String
  role : Role
  mustChangePassword : Bool
  credentialsChangedAt : Int
  createdAt : Micros
  deriving DecidableEq, Repr

structure TournamentRow where
  id : TournamentId
  name : TournamentName
  game : GameName
  mode : GameMode
  description : Description
  date : Date
  registrationClosesAt : Micros
  status : TournamentStatus
  winner : Option EntrantId
  createdAt : Micros
  deriving DecidableEq, Repr

structure EntrantRow where
  id : EntrantId
  tournament : TournamentId
  player : Option PlayerId
  seed : Option Nat
  registeredAt : Micros
  skill : Option SkillLevel
  deriving DecidableEq, Repr

structure MatchRow where
  id : MatchId
  tournament : TournamentId
  round : Nat
  slot : Nat
  entrantA : Option EntrantId
  entrantB : Option EntrantId
  winner : Option EntrantId
  deriving DecidableEq, Repr

structure PointRow where
  id : PointEntryId
  player : PlayerId
  amount : Int
  kind : PointKind
  sourceRef : UuidText
  tournament : Option TournamentId
  event : Option EventId
  note : Option Note
  createdBy : Option PlayerId
  createdAt : Micros
  deriving DecidableEq, Repr

structure EventRow where
  id : EventId
  name : EventName
  location : Location
  games : Games
  description : Description
  image : Option ImageName
  startsAt : Micros
  endsAt : Micros
  status : EventStatus
  checkinCode : CheckinCode
  createdAt : Micros
  deriving DecidableEq, Repr

structure CheckinRow where
  event : EventId
  player : PlayerId
  checkedInAt : Micros
  deriving DecidableEq, Repr

structure Database where
  players : List PlayerRow
  tournaments : List TournamentRow
  tournamentEntrants : List EntrantRow
  matchRows : List MatchRow
  pointEntries : List PointRow
  events : List EventRow
  eventCheckins : List CheckinRow
  deriving DecidableEq, Repr

/-- The migrated database with no row. -/
def Database.empty : Database := ⟨[], [], [], [], [], [], []⟩

/-! ## Failures -/

/-- The unique constraints a write can hit, as SQLite names them. -/
inductive Constraint where
  | playersId
  | playersHandle
  | tournamentsId
  | entrantsId
  /-- `ENTRANT_CONSTRAINT`, on `(tournament_id, player_id)`. -/
  | entrantsPlayer
  | matchesId
  | matchesSlot
  | pointEntriesId
  /-- On `(kind, player_id, source_ref)`. -/
  | pointEntriesSource
  | eventsId
  | eventsCode
  /-- `CHECKIN_CONSTRAINT`, the primary key `(event_id, player_id)`. -/
  | checkinsKey
  deriving DecidableEq, Repr

/-- The failures of the storage layer.  `busy` is any lost database, `query` a failed check. -/
inductive StorageError where
  | busy
  | uniqueViolation (constraint : Constraint)
  | foreignKeyViolation
  | malformedRow
  | query
  deriving DecidableEq, Repr

/-- `u32::try_from` of a column. -/
def tryU32 (raw : Nat) : Except StorageError Nat :=
  if raw < 2 ^ 32 then .ok raw else .error .malformedRow

theorem tryU32_eq_ok {raw value : Nat} (ok : tryU32 raw = .ok value) : value = raw := by
  rw [tryU32] at ok
  split_ifs at ok
  exact (Except.ok.inj ok).symm

theorem tryU32_of_lt {raw : Nat} (short : raw < 2 ^ 32) : tryU32 raw = .ok raw := if_pos short

/-! ## Statements and transactions -/

/-- One SQL statement that writes: it fails and writes nothing, or it answers the rows it
affected. -/
abbrev Statement := Database → Except StorageError (Nat × Database)

/-- How a transaction ends without a commit: a failure, or an early return. -/
inductive Abort (β : Type) where
  | failed (error : StorageError)
  | dropped (answer : β)

/-- The body of a transaction of a storage method that answers `β`. -/
abbrev Transaction (β α : Type) := StateT Database (Except (Abort β)) α

/-- A storage method: what it answers, and the database it leaves. -/
abbrev Method (β : Type) := Database → Except StorageError β × Database

namespace Transaction

variable {α β : Type}

/-- A statement whose failure ends the transaction. -/
def execute (statement : Statement) : Transaction β Nat := fun db =>
  match statement db with
  | .ok result => .ok result
  | .error error => .error (.failed error)

/-- A statement whose failure the transaction looks at.  The statement alone is undone. -/
def attempt (statement : Statement) : Transaction β (Except StorageError Nat) := fun db =>
  match statement db with
  | .ok (affected, db) => .ok (.ok affected, db)
  | .error error => .ok (.error error, db)

def fail (error : StorageError) : Transaction β α := fun _ => .error (.failed error)

/-- Returns before the commit, so the transaction rolls back. -/
def rollback (answer : β) : Transaction β α := fun _ => .error (.dropped answer)

/-- A read inside the transaction. -/
def read (query : Database → α) : Transaction β α := fun db => .ok (query db, db)

/-- `BEGIN IMMEDIATE` to `COMMIT`. -/
def commit (body : Transaction β β) : Method β := fun db =>
  match body db with
  | .ok (answer, db) => (.ok answer, db)
  | .error (.failed error) => (.error error, db)
  | .error (.dropped answer) => (.ok answer, db)

end Transaction

/-- A method of one statement. -/
def Method.single {β : Type} (statement : Statement) (answer : Nat → β) : Method β := fun db =>
  match statement db with
  | .ok (affected, db) => (.ok (answer affected), db)
  | .error error => (.error error, db)

/-- A method that only reads. -/
def Method.query {β : Type} (read : Database → β) : Method β := fun db => (.ok (read db), db)

section Conversion

variable {α β : Type} (convert : α → Option β)

/-- The conversion of a row, whose failure is a malformed row. -/
def converting (row : α) : Except StorageError β :=
  match convert row with
  | some value => .ok value
  | none => .error .malformedRow

def converted : Option α → Except StorageError (Option β)
  | none => .ok none
  | some row => (converting convert row).map some

variable {convert}

theorem converting_eq_ok {row : α} {value : β} :
    converting convert row = .ok value ↔ convert row = some value := by
  rw [converting]
  cases read : convert row with
  | none => simp
  | some other => simp

theorem converted_eq_ok {found : Option α} {value : β} :
    converted convert found = .ok (some value) ↔
      ∃ row, found = some row ∧ convert row = some value := by
  cases found with
  | none => simp [converted]
  | some row =>
    rw [converted, converting]
    cases read : convert row with
    | none => simp [Except.map, read]
    | some other => simp [Except.map, read]

end Conversion

/-- The checks of a statement, in the order SQLite makes them. -/
def guarded (checks : List (Bool × StorageError))
    (otherwise : Except StorageError (Nat × Database)) : Except StorageError (Nat × Database) :=
  match checks with
  | [] => otherwise
  | (holds, error) :: checks => if holds then guarded checks otherwise else .error error

/-- `length` of SQLite, which counts the characters before the first NUL. -/
def sqlLength (chars : List Char) : Nat := (chars.takeWhile fun c => c.toNat ≠ 0).length

/-- `length(column) between shortest and longest`. -/
def lengthBetween (shortest longest : Nat) (chars : List Char) : Bool :=
  shortest ≤ sqlLength chars ∧ sqlLength chars ≤ longest

/-! ## Rows that point at rows -/

namespace Database

variable (db : Database)

def player? (id : PlayerId) : Option PlayerRow := db.players.find? fun row => row.id = id

def hasPlayer (id : PlayerId) : Bool := db.players.any fun row => row.id = id

def hasTournament (id : TournamentId) : Bool := db.tournaments.any fun row => row.id = id

def hasEvent (id : EventId) : Bool := db.events.any fun row => row.id = id

/-- `references tournament_entrants (tournament_id, id)`, null included. -/
def hasEntrant (tournament : TournamentId) (entrant : Option EntrantId) : Bool :=
  entrant.all fun entrant =>
    db.tournamentEntrants.any fun row => row.tournament = tournament ∧ row.id = entrant

/-- The rows a foreign key keeps pointed at were deleted: `on delete set null` of the winner. -/
def unlinkWinners (gone : EntrantRow → Bool) : List TournamentRow :=
  db.tournaments.map fun row =>
    if row.winner.any fun winner => db.tournamentEntrants.any fun e => gone e ∧ e.id = winner
    then { row with winner := none } else row

/-! ## The view `player_standings` -/

def cyclesOf (id : PlayerId) : Int :=
  ((db.pointEntries.filter fun row => row.player = id).map PointRow.amount).sum

/-- The rule of `active`, for one row of `players`. -/
def isActive (row : PlayerRow) : Bool :=
  row.role == .admin || db.eventCheckins.any fun c => c.player = row.id

/-- `player_standings.active` of a player, `false` when there is no such player. -/
def activeOf (id : PlayerId) : Bool := (db.player? id).any db.isActive

/-- `rank() over (partition by active order by cycles desc)`, for an active player. -/
def placeOf (row : PlayerRow) : Option Nat :=
  if db.isActive row then
    some <| 1 + db.players.countP fun other =>
      db.isActive other ∧ db.cyclesOf row.id < db.cyclesOf other.id
  else none

/-- The columns of a player joined with the standing. -/
def toPlayer (row : PlayerRow) : Player :=
  { id := row.id, handle := row.handle, role := row.role, active := db.isActive row
    standing := Standing.new (db.cyclesOf row.id) (db.placeOf row) (db.players.countP db.isActive)
    createdAt := instantOf row.createdAt }

end Database
end LanBunker
