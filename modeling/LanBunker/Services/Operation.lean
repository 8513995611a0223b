import LanBunker.Storage.Events
import LanBunker.Storage.Points
import LanBunker.Storage.Standings
import LanBunker.Storage.Tournaments
import LanBunker.Interleaving.Script

/-!
# What a request can call

The storage methods, each one atomic, and what a request takes from its surroundings: the clock,
fresh identifiers, the order a shuffle gives, and the libraries that hash passwords and sign
tokens.
-/

namespace LanBunker

/-! ## Storage methods as operations -/

inductive TournamentOp where
  | create (row : NewTournamentRow)
  | get (id : TournamentId)
  | update (id : TournamentId) (expected : TournamentStatus) (fields : TournamentUpdate)
  | setStatus (id : TournamentId) (source target : TournamentStatus) (winner : Option EntrantId)
      (awards : List Award) (instant : Instant) (draw : Nat → PointEntryId)
  | delete (id : TournamentId)
  | entrants (id : TournamentId)
  | entrantOf (id : TournamentId) (player : PlayerId)
  | addEntrant (entrant : NewEntrant) (guard : EntrantGuard)
  | setSkill (id : TournamentId) (player : PlayerId) (skill : SkillLevel) (guard : EntrantGuard)
  | removeEntrant (id : TournamentId) (entrant : EntrantId) (guard : EntrantGuard)
  | removeEntrantOf (id : TournamentId) (player : PlayerId) (guard : EntrantGuard)
  | matchesOf (id : TournamentId)
  | replaceBracket (id : TournamentId) (expected : TournamentStatus) (order : List EntrantId)
      (bracket : Bracket)
  | deleteBracket (id : TournamentId) (expected : TournamentStatus)
  | updateMatches (id : TournamentId) (expected : TournamentStatus)
      (changes : List (Match × Match))

namespace TournamentOp

abbrev Ans : TournamentOp → Type
  | .create _ => Unit
  | .get _ => Option Tournament
  | .update _ _ _ => Bool
  | .setStatus _ _ _ _ _ _ _ => Bool
  | .delete _ => Bool
  | .entrants _ => List Entrant
  | .entrantOf _ _ => Option Entrant
  | .addEntrant _ _ => Enrolled
  | .setSkill _ _ _ _ => Bool
  | .removeEntrant _ _ _ => Bool
  | .removeEntrantOf _ _ _ => Bool
  | .matchesOf _ => List Match
  | .replaceBracket _ _ _ _ => BracketWrite
  | .deleteBracket _ _ => BracketWrite
  | .updateMatches _ _ _ => Bool

def method : (op : TournamentOp) → Method op.Ans
  | .create row => TournamentStorage.create row
  | .get id => TournamentStorage.get id
  | .update id expected fields => TournamentStorage.update id expected fields
  | .setStatus id source target winner awards instant draw =>
      TournamentStorage.setStatus id source target winner awards instant draw
  | .delete id => TournamentStorage.delete id
  | .entrants id => TournamentStorage.entrants id
  | .entrantOf id player => TournamentStorage.entrantOf id player
  | .addEntrant entrant guard => TournamentStorage.addEntrant entrant guard
  | .setSkill id player skill guard => TournamentStorage.setSkill id player skill guard
  | .removeEntrant id entrant guard => TournamentStorage.removeEntrant id entrant guard
  | .removeEntrantOf id player guard => TournamentStorage.removeEntrantOf id player guard
  | .matchesOf id => TournamentStorage.matchesOf id
  | .replaceBracket id expected order bracket =>
      TournamentStorage.replaceBracket id expected order bracket
  | .deleteBracket id expected => TournamentStorage.deleteBracket id expected
  | .updateMatches id expected changes => TournamentStorage.updateMatches id expected changes

/-- The generated identifiers of the rows the operation would insert. -/
def generated : TournamentOp → List Nat
  | .create row => [row.id.uuid]
  | .setStatus _ _ _ _ awards _ draw =>
      (List.range awards.length).map fun index => (draw index).uuid
  | .addEntrant entrant _ => [entrant.id.uuid]
  | .replaceBracket _ _ _ bracket => bracket.flat.map fun m => m.id.uuid
  | _ => []

end TournamentOp

inductive EventOp where
  | create (row : NewEventRow)
  | get (id : EventId)
  | getByCode (code : CheckinCode)
  | update (id : EventId) (fields : EventFields)
  | setStatus (id : EventId) (status : EventStatus)
  | delete (id : EventId)
  | removeCheckin (id : EventId) (player : PlayerId)
  | checkins (id : EventId)
  | checkIn (id : EventId) (player : PlayerId) (instant : Instant) (award : Award)
      (draw : Nat → PointEntryId)

namespace EventOp

abbrev Ans : EventOp → Type
  | .create _ => Unit
  | .get _ => Option StoredEvent
  | .getByCode _ => Option Event
  | .update _ _ => Bool
  | .setStatus _ _ => Bool
  | .delete _ => Bool
  | .removeCheckin _ _ => Bool
  | .checkins _ => List Checkin
  | .checkIn _ _ _ _ _ => CheckedIn

def method : (op : EventOp) → Method op.Ans
  | .create row => EventStorage.create row
  | .get id => EventStorage.get id
  | .getByCode code => EventStorage.getByCode code
  | .update id fields => EventStorage.update id fields
  | .setStatus id status => EventStorage.setStatus id status
  | .delete id => EventStorage.delete id
  | .removeCheckin id player => EventStorage.removeCheckin id player
  | .checkins id => EventStorage.checkins id
  | .checkIn id player instant award draw => EventStorage.checkIn id player instant award draw

def generated : EventOp → List Nat
  | .create row => [row.id.uuid]
  | .checkIn _ _ _ _ draw => [(draw 0).uuid]
  | _ => []

end EventOp

inductive PlayerOp where
  | create (player : NewPlayer)
  | access (id : PlayerId)
  | credentialsById (id : PlayerId)
  | credentialsByHandle (handle : Handle)
  | setPassword (id : PlayerId) (passwordHash : String) (mustChange : Bool) (changedAt : Instant)
  | isThere (id : PlayerId)
  | setRole (id : PlayerId) (role : Role)
  | delete (id : PlayerId)
  | list (query : PageQuery) (term : Option (List Char)) (active : Option Bool)
      (order : ListOrder)
  | addAdjustment (adjustment : NewAdjustment)
  | history (player : PlayerId) (query : PageQuery)
  | totals (player : PlayerId)

namespace PlayerOp

abbrev Ans : PlayerOp → Type
  | .create _ => Created
  | .access _ => Option StoredAccess
  | .credentialsById _ => Option Credentials
  | .credentialsByHandle _ => Option Credentials
  | .setPassword _ _ _ _ => Bool
  | .isThere _ => Bool
  | .setRole _ _ => RoleChanged
  | .delete _ => Removal
  | .list _ _ _ _ => Paginated Player
  | .addAdjustment _ => PointEntry
  | .history _ _ => Paginated PointEntry
  | .totals _ => List KindTotal

def method : (op : PlayerOp) → Method op.Ans
  | .create player => PlayerStorage.create player
  | .access id => PlayerStorage.access id
  | .credentialsById id => PlayerStorage.credentialsById id
  | .credentialsByHandle handle => PlayerStorage.credentialsByHandle handle
  | .setPassword id passwordHash mustChange changedAt =>
      PlayerStorage.setPassword id passwordHash mustChange changedAt
  | .isThere id => PlayerStorage.isThere id
  | .setRole id role => PlayerStorage.setRole id role
  | .delete id => PlayerStorage.delete id
  | .list query term active order => PlayerStorage.list query term active order
  | .addAdjustment adjustment => PointStorage.addAdjustment adjustment
  | .history player query => PointStorage.history player query
  | .totals player => PointStorage.totals player

def generated : PlayerOp → List Nat
  | .create player => [player.id.uuid]
  | .addAdjustment adjustment => [adjustment.id.uuid]
  | _ => []

end PlayerOp

inductive StorageOp where
  | tournaments (op : TournamentOp)
  | events (op : EventOp)
  | players (op : PlayerOp)

namespace StorageOp

abbrev Ans : StorageOp → Type
  | .tournaments op => op.Ans
  | .events op => op.Ans
  | .players op => op.Ans

def method : (op : StorageOp) → Method op.Ans
  | .tournaments op => op.method
  | .events op => op.method
  | .players op => op.method

def generated : StorageOp → List Nat
  | .tournaments op => op.generated
  | .events op => op.generated
  | .players op => op.generated

end StorageOp

/-! ## Everything a request can call -/

/-- What the hasher and the token issuer have from libraries.  Nothing is said of what these
answer; `none` is a failure of the library. -/
inductive CryptoOp where
  /-- `hash_password` of Argon2, with a salt of its own. -/
  | hash (password : Password)
  /-- `verify_password`: `some false` is a wrong password. -/
  | verify (password : Password) (passwordHash : String)
  /-- `jsonwebtoken::encode`. -/
  | encode (claims : Claims)
  /-- `jsonwebtoken::decode`, which checks the signature and the expiry. -/
  | decode (token : String)
  /-- `Uuid::new_v4().simple()`. -/
  | temporary
  deriving DecidableEq, Repr

abbrev CryptoOp.Ans : CryptoOp → Type
  | .hash _ => Option String
  | .verify _ _ => Option Bool
  | .encode _ => Option String
  | .decode _ => Option Claims
  | .temporary => List Char

inductive Op where
  | store (op : StorageOp)
  /-- `OffsetDateTime::now_utc`. -/
  | now
  /-- `generate` of an identifier type, as often as the request needs it. -/
  | draw (kind : IdKind)
  /-- `generate_code`. -/
  | drawCode
  /-- `entrants.shuffle(&mut rand::rng())`. -/
  | shuffle (entrants : List Entrant)
  | crypto (op : CryptoOp)

abbrev Op.Ans : Op → Type
  | .store op => Except StorageError op.Ans
  | .now => Instant
  | .draw kind => Nat → Id kind
  | .drawCode => CheckinCode
  | .shuffle _ => List Entrant
  | .crypto op => op.Ans

/-- What all requests share: the database, the clock, and every identifier a row was ever to be
inserted under. -/
structure World where
  db : Database
  clock : Instant
  used : List Nat
  deriving DecidableEq, Repr

namespace World

/-- The migrated database at some instant. -/
def initial (clock : Instant) : World := { db := .empty, clock, used := [] }

/-- A generated identifier is never generated again. -/
def IsFresh (world : World) (op : StorageOp) : Prop :=
  op.generated.Nodup ∧ ∀ uuid ∈ op.generated, uuid ∉ world.used

instance (world : World) (op : StorageOp) : Decidable (world.IsFresh op) :=
  inferInstanceAs (Decidable (_ ∧ _))

/-- The world after a storage method. -/
def store (world : World) (op : StorageOp) : Except StorageError op.Ans × World :=
  let result := op.method world.db
  (result.1, { world with db := result.2, used := world.used ++ op.generated })

theorem store_eq {world after : World} {op : StorageOp} {answer : Except StorageError op.Ans}
    (stored : world.store op = (answer, after)) : op.method world.db = (answer, after.db) := by
  obtain ⟨rfl, rfl⟩ := Prod.mk.inj stored
  rfl

/-- One operation.  A storage method runs in its own transaction, or finds the database busy. -/
def Exec : (op : Op) → World → op.Ans → World → Prop
  | .store op, world, answer, after =>
      world.IsFresh op ∧ world.store op = (answer, after) ∨ answer = .error .busy ∧ after = world
  | .now, world, answer, after => answer = world.clock ∧ after = world
  | .draw _, world, _, after => after = world
  | .drawCode, world, _, after => after = world
  | .shuffle entrants, world, answer, after => answer.Perm entrants ∧ after = world
  | .crypto _, world, _, after => after = world

/-- The row of a player, promoted by the crew with SQL. -/
def promote (world : World) (id : PlayerId) : World :=
  { world with
    db := { world.db with
      players := world.db.players.map fun row =>
        if row.id = id then { row with role := .admin } else row } }

/-- What happens without a request: the clock shows another instant, or the crew promotes a
player. -/
inductive Drift : World → World → Prop where
  | clock (world : World) (clock : Instant) : Drift world { world with clock }
  | promote (world : World) (id : PlayerId) : Drift world (world.promote id)

end World
end LanBunker
