import LanBunker.Models.Auth
import LanBunker.Storage.Database

/-!
# The players table
-/

namespace LanBunker

structure NewPlayer where
  id : PlayerId
  handle : Handle
  passwordHash : String
  createdAt : Instant
  deriving DecidableEq, Repr

/-- What an insert did. -/
inductive Created where
  | player (player : Player)
  | handleTaken
  deriving DecidableEq, Repr

/-- What a handle update did. -/
inductive Renamed where
  | player (player : Player)
  | handleTaken
  | notFound
  deriving DecidableEq, Repr

/-- What a role change did. -/
inductive RoleChanged where
  | player (player : Player)
  | notFound
  | lastAdmin
  deriving DecidableEq, Repr

/-- What a delete did. -/
inductive Removal where
  | removed
  | absent
  | lastAdmin
  deriving DecidableEq, Repr

/-- What every authenticated request reads of its player. -/
structure StoredAccess where
  id : PlayerId
  role : Role
  mustChangePassword : Bool
  /-- The second of the last password change.  A token issued before is dead. -/
  credentialsChangedAt : Int
  deriving DecidableEq, Repr

structure Credentials where
  id : PlayerId
  passwordHash : String
  deriving DecidableEq, Repr

/-- `(select count(*) from players where role = 'admin')`. -/
def Database.adminCount (db : Database) : Nat := db.players.countP fun row => row.role = .admin

namespace PlayerStorage

def insertPlayer (row : PlayerRow) : Statement := fun db =>
  guarded
    [(0 < row.createdAt, .query),
      (db.players.all fun other => other.id ≠ row.id, .uniqueViolation .playersId),
      (db.players.all fun other => other.handle.folded ≠ row.handle.folded,
        .uniqueViolation .playersHandle)]
    (.ok (1, { db with players := db.players ++ [row] }))

/-- The public columns of one player with the standing. -/
def publicById (id : PlayerId) (db : Database) : Option Player := (db.player? id).map db.toPlayer

def create (player : NewPlayer) : Method Created := Transaction.commit do
  let inserted ← Transaction.attempt <| insertPlayer
    { id := player.id, handle := player.handle, passwordHash := player.passwordHash
      role := .user, mustChangePassword := false, credentialsChangedAt := 0
      createdAt := toMicros player.createdAt }
  match inserted with
  | .error (.uniqueViolation .playersHandle) => Transaction.rollback .handleTaken
  | .error error => Transaction.fail error
  | .ok _ =>
      match ← Transaction.read (publicById player.id) with
      | some stored => pure (.player stored)
      | none => Transaction.fail .malformedRow

/-- The lookup is case-insensitive, as the unique index is. -/
def getByHandle (handle : Handle) : Method (Option Player) := Method.query fun db =>
  (db.players.find? fun row => row.handle.folded = handle.folded).map db.toPlayer

/-- The account of `/api/me`, with the standing. -/
def account (id : PlayerId) : Method (Option Account) := Method.query fun db =>
  (db.player? id).map fun row =>
    { player := db.toPlayer row, mustChangePassword := row.mustChangePassword }

def access (id : PlayerId) : Method (Option StoredAccess) := Method.query fun db =>
  (db.player? id).map fun row =>
    { id, role := row.role, mustChangePassword := row.mustChangePassword
      credentialsChangedAt := row.credentialsChangedAt }

def credentialsById (id : PlayerId) : Method (Option Credentials) := Method.query fun db =>
  (db.player? id).map fun row => { id := row.id, passwordHash := row.passwordHash }

/-- The lookup is case-insensitive, as the unique index is. -/
def credentialsByHandle (handle : Handle) : Method (Option Credentials) := Method.query fun db =>
  (db.players.find? fun row => row.handle.folded = handle.folded).map fun row =>
    { id := row.id, passwordHash := row.passwordHash }

/-- `check (credentials_changed_at >= 0)`, once a row is touched. -/
def updatePassword (id : PlayerId) (passwordHash : String) (mustChange : Bool)
    (changedAt : Int) : Statement := fun db =>
  let touched := fun row : PlayerRow => row.id = id
  guarded [(!db.players.any touched || 0 ≤ changedAt, .query)]
    (.ok (db.players.countP touched,
      { db with
        players := db.players.map fun row =>
          if touched row then
            { row with
              passwordHash, mustChangePassword := mustChange, credentialsChangedAt := changedAt }
          else row }))

/-- `true` when a row was updated.  The change moment is kept in seconds, the unit of `iat`. -/
def setPassword (id : PlayerId) (passwordHash : String) (mustChange : Bool)
    (changedAt : Instant) : Method Bool :=
  Method.single (updatePassword id passwordHash mustChange (unixSeconds changedAt))
    fun affected => 0 < affected

def isThere (id : PlayerId) : Method Bool := Method.query fun db => db.hasPlayer id

/-- `update players set role`, but never of the last admin. -/
def updateRole (id : PlayerId) (role : Role) : Statement := fun db =>
  let touched := fun row : PlayerRow =>
    row.id = id ∧ (role = .admin ∨ row.role ≠ .admin ∨ 1 < db.adminCount)
  .ok (db.players.countP touched,
    { db with players := db.players.map fun row => if touched row then { row with role } else row })

def setRole (id : PlayerId) (role : Role) : Method RoleChanged := Transaction.commit do
  let updated ← Transaction.execute (updateRole id role)
  if updated = 0 then
    let found ← Transaction.read fun db => db.hasPlayer id
    Transaction.rollback (if found then .lastAdmin else .notFound)
  else
    let player ← Transaction.read (publicById id)
    pure ((player.map RoleChanged.player).getD .notFound)

/-- `update players set handle`.  The unique index looks at every other row. -/
def updateHandle (id : PlayerId) (handle : Handle) : Statement := fun db =>
  let touched := fun row : PlayerRow => row.id = id
  guarded
    [(!db.players.any touched ||
        db.players.all fun row => touched row ∨ row.handle.folded ≠ handle.folded,
      .uniqueViolation .playersHandle)]
    (.ok (db.players.countP touched,
      { db with
        players := db.players.map fun row => if touched row then { row with handle } else row }))

def rename (id : PlayerId) (handle : Handle) : Method Renamed := Transaction.commit do
  let updated ← Transaction.attempt (updateHandle id handle)
  match updated with
  | .error (.uniqueViolation .playersHandle) => Transaction.rollback .handleTaken
  | .error error => Transaction.fail error
  | .ok affected =>
      if affected = 0 then Transaction.rollback .notFound
      else
        let player ← Transaction.read (publicById id)
        pure ((player.map Renamed.player).getD .notFound)

/-- `delete from players`, but never the last admin.  The check-ins and the entries go with the
player; an entrant and the author of an adjustment lose the account. -/
def deletePlayer (id : PlayerId) : Statement := fun db =>
  let gone := fun row : PlayerRow => row.id = id ∧ (row.role ≠ .admin ∨ 1 < db.adminCount)
  if db.players.any gone then
    .ok (db.players.countP gone,
      { db with
        players := db.players.filter fun row => !gone row
        eventCheckins := db.eventCheckins.filter fun row => row.player ≠ id
        pointEntries := (db.pointEntries.filter fun row => row.player ≠ id).map fun row =>
          if row.createdBy = some id then { row with createdBy := none } else row
        tournamentEntrants := db.tournamentEntrants.map fun row =>
          if row.player = some id then { row with player := none } else row })
  else .ok (0, db)

def delete (id : PlayerId) : Method Removal := Transaction.commit do
  let removed ← Transaction.execute (deletePlayer id)
  if 0 < removed then pure .removed
  else
    let found ← Transaction.read fun db => db.hasPlayer id
    pure (if found then .lastAdmin else .absent)

end PlayerStorage
end LanBunker
