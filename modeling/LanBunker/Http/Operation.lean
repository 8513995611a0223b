import LanBunker.Http.Access
import LanBunker.Interleaving.Layer
import LanBunker.Services.Requests
import LanBunker.Storage.Lists

/-!
# What a handler calls

The services' requests, and next to them the reads that answer a page, the change of a handle, and
the libraries behind a signup.
-/

namespace LanBunker

open Interleaving

/-! ## Operations -/

/-- The storage methods that only a page reads. -/
inductive ReadOp where
  | playerByHandle (handle : Handle)
  | account (id : PlayerId)
  | players (query : PageQuery) (term : Option (List Char)) (active : Option Bool)
      (order : ListOrder)
  | tournaments (query : PageQuery) (includeDrafts : Bool)
  | tournamentsOf (player : PlayerId)
  | events (query : PageQuery) (includeDrafts : Bool)
  | eventsOf (player : PlayerId)
  | points (player : PlayerId) (query : PageQuery)
  | totals (player : PlayerId)
  | record (player : PlayerId)
  | nemesis (player : PlayerId)
  | matchLog (player : PlayerId) (query : PageQuery)
  /-- `check_reachable`. -/
  | reachable

namespace ReadOp

abbrev Ans : ReadOp → Type
  | .playerByHandle _ => Option Player
  | .account _ => Option Account
  | .players _ _ _ _ => Paginated Player
  | .tournaments _ _ => Paginated Tournament
  | .tournamentsOf _ => List TournamentId
  | .events _ _ => Paginated Event
  | .eventsOf _ => List EventId
  | .points _ _ => Paginated PointEntry
  | .totals _ => List KindTotal
  | .record _ => MatchRecord
  | .nemesis _ => Option Rivalry
  | .matchLog _ _ => Paginated PlayedMatch
  | .reachable => Unit

def method : (op : ReadOp) → Method op.Ans
  | .playerByHandle handle => PlayerStorage.getByHandle handle
  | .account id => PlayerStorage.account id
  | .players query term active order => PlayerStorage.list query term active order
  | .tournaments query includeDrafts => TournamentStorage.list query includeDrafts
  | .tournamentsOf player => TournamentStorage.tournamentsOf player
  | .events query includeDrafts => EventStorage.list query includeDrafts
  | .eventsOf player => EventStorage.eventsOf player
  | .points player query => PointStorage.history player query
  | .totals player => PointStorage.totals player
  | .record player => MatchStorage.record player
  | .nemesis player => MatchStorage.nemesis player
  | .matchLog player query => MatchStorage.history player query
  | .reachable => Method.query fun _ => ()

/-- A read leaves the database as it is. -/
theorem method_snd (op : ReadOp) (db : Database) : (op.method db).2 = db := by
  cases op <;> rfl

end ReadOp

inductive ApiOp where
  | read (op : ReadOp)
  | rename (id : PlayerId) (handle : Handle)
  /-- `OffsetDateTime::now_utc`. -/
  | now
  /-- `hash_password` of Argon2. -/
  | hash (password : Password)
  /-- `jsonwebtoken::encode`. -/
  | encode (claims : Claims)

namespace ApiOp

abbrev Ans : ApiOp → Type
  | .read op => Except StorageError op.Ans
  | .rename _ _ => Except StorageError Renamed
  | .now => Instant
  | .hash _ => Option String
  | .encode _ => Option String

/-- A storage method runs, or finds the database busy. -/
def Runs {β : Type} (method : Method β) (world : World) (answer : Except StorageError β)
    (after : World) : Prop :=
  (∃ db, method world.db = (answer, db) ∧ after = { world with db }) ∨
    answer = .error .busy ∧ after = world

def Perform : (op : ApiOp) → World → op.Ans → World → Prop
  | .read op => Runs op.method
  | .rename id handle => Runs (PlayerStorage.rename id handle)
  | .now => fun world answer after => answer = world.clock ∧ after = world
  | .hash _ => fun world _ after => after = world
  | .encode _ => fun world _ after => after = world

end ApiOp

/-! ## Handlers -/

/-- The bodies of the answers. -/
inductive Body where
  /-- What a service answers. -/
  | payload (payload : Payload)
  | token (token : TokenResponse)
  | player (player : Player)
  | account (account : Account)
  | players (page : Paginated Player)
  | tournaments (page : Paginated Tournament)
  | events (page : Paginated Event)
  | cycles (log : CyclesLog)
  | matches (record : MatchRecord) (nemesis : Option Rivalry) (log : Paginated PlayedMatch)
  | rules (rules : CyclesRules)
  | registrations (tournaments : List TournamentId)
  | checkins (events : List EventId)
  /-- The version and the commit of the binary. -/
  | healthy
  | empty

/-- A status with a body. -/
structure Success where
  status : Nat
  body : Body

/-- What a handler calls: requests of the services, and operations of its own. -/
abbrev HandlerCall := Request ⊕ ApiOp

abbrev HandlerAns : HandlerCall → Type := Either (fun _ => Response) ApiOp.Ans

/-- A handler.  `?` ends it with an error. -/
def Handler (α : Type) : Type := Program HandlerCall HandlerAns (Except ApiError α)

namespace Handler

variable {α β : Type}

protected def pure (value : α) : Handler α := Program.answer (.ok value)

protected def bind (handler : Handler α) (rest : α → Handler β) : Handler β :=
  Program.bind handler fun
    | .ok value => rest value
    | .error error => Program.answer (.error error)

instance : Monad Handler where
  pure := Handler.pure
  bind := Handler.bind

def fail (error : ApiError) : Handler α := Program.answer (.error error)

def ofExcept : Except ApiError α → Handler α := Program.answer

/-- A request to a service. -/
def service (request : Request) : Handler Payload :=
  Program.call (.inl request) fun response => .answer (response.mapError .ofService)

/-- A storage method whose failure ends the handler. -/
def read (op : ReadOp) : Handler op.Ans :=
  Program.call (.inr (.read op)) fun result => .answer (result.mapError .ofStorage)

def rename (id : PlayerId) (handle : Handle) : Handler Renamed :=
  Program.call (.inr (.rename id handle)) fun result => .answer (result.mapError .ofStorage)

def now : Handler Instant := Program.call (.inr .now) fun now => .answer (.ok now)

/-- `ok_or`. -/
def okOr (value : Option α) (error : ApiError) : Handler α :=
  match value with
  | some value => pure value
  | none => fail error

def hash (password : Password) : Handler String :=
  Program.call (.inr (.hash password)) fun hash => okOr hash (.ofService .crypto)

def encode (claims : Claims) : Handler String :=
  Program.call (.inr (.encode claims)) fun token => okOr token (.ofService .crypto)

end Handler
end LanBunker
