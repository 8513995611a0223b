import LanBunker.Http.Operation

/-!
# The routes of the API

The routes by who may call them, with the input of each, and their handlers.  A handler holds no
rule of its own: it names the caller, calls a service and gives the answer a status.
-/

namespace LanBunker

open Interleaving

/-- The routes without a token. -/
inductive OpenRoute where
  | signup (handle : Handle) (password : Password)
  | login (handle : Handle) (password : Password)
  | listPlayers (query : RosterQuery)
  | getPlayer (handle : Handle)
  | cyclesHistory (handle : Handle) (query : PageQuery)
  | matchLog (handle : Handle) (query : PageQuery)
  | cyclesRules
  | listTournaments (query : PageQuery)
  | getTournament (id : TournamentId)
  | listEvents (query : PageQuery)
  | checkinGate (code : CheckinCode)

/-- The routes that a temporary password opens too. -/
inductive PendingRoute where
  | me
  | changePassword (change : PasswordChange)

/-- The routes of a caller with a settled password. -/
inductive OwnRoute where
  | changeHandle (handle : Handle)
  | myCycles (query : PageQuery)
  | myMatches (query : PageQuery)
  | registrations
  | register (id : TournamentId) (skill : SkillLevel)
  | retire (id : TournamentId)
  | checkIn (code : CheckinCode)
  | checkins

/-- The routes behind `require_admin`. -/
inductive AdminRoute where
  | listPlayers (query : AdminRosterQuery)
  | lookupPlayer (handle : Handle)
  | adjustCycles (id : PlayerId) (adjustment : Adjustment)
  | setRole (id : PlayerId) (role : Role)
  | renamePlayer (id : PlayerId) (handle : Handle)
  | resetPassword (id : PlayerId)
  | deletePlayer (id : PlayerId)
  | listTournaments (query : PageQuery)
  | createTournament (new : NewTournament)
  | getTournament (id : TournamentId)
  | updateTournament (id : TournamentId) (update : TournamentUpdate)
  | deleteTournament (id : TournamentId)
  | changeStatus (id : TournamentId) (change : StatusChange)
  | addEntrant (id : TournamentId) (player : PlayerId) (skill : Option SkillLevel)
  | removeEntrant (id : TournamentId) (entrant : EntrantId)
  | generateBracket (id : TournamentId)
  | reorderSeeds (id : TournamentId) (order : List EntrantId)
  | deleteBracket (id : TournamentId)
  | reportResult (id : TournamentId) (matchId : MatchId) (winner : EntrantId)
  | clearResult (id : TournamentId) (matchId : MatchId)
  | listAllEvents (query : PageQuery)
  | createEvent (fields : EventFields)
  | getEvent (id : EventId)
  | updateEvent (id : EventId) (fields : EventFields)
  | deleteEvent (id : EventId)
  | changeEventStatus (id : EventId) (status : EventStatus)
  | addCheckin (id : EventId) (player : PlayerId)
  | removeCheckin (id : EventId) (player : PlayerId)

inductive HealthRoute where
  | live
  | ready

/-! ## Services that only the API calls -/

namespace PlayerService

/-- A player anyone may look up.  An inactive player answers like an unknown handle. -/
def publicByHandle (handle : Handle) : Handler Player := do
  let found ← Handler.read (.playerByHandle handle)
  Handler.okOr (found.filter Player.active) .playerNotFound

/-- What an admin finds behind a handle they typed, active or not. -/
def lookup (handle : Handle) : Handler Player := do
  let found ← Handler.read (.playerByHandle handle)
  Handler.okOr found .playerNotFound

def account (id : PlayerId) : Handler Account := do
  let found ← Handler.read (.account id)
  Handler.okOr found (.ofService (.playerIdNotFound id))

/-- The glyph stays.  A handle that another player holds, in any letter case, is refused. -/
def rename (id : PlayerId) (handle : Handle) : Handler Player := do
  let renamed ← Handler.rename id handle
  match renamed with
  | .player player => pure player
  | .handleTaken => Handler.fail (.ofService (.handleTaken handle))
  | .notFound => Handler.fail (.ofService (.playerIdNotFound id))

end PlayerService

namespace PointsService

/-- The history of a player anyone may look up, or of the caller's own account. -/
def cyclesOf (player : PlayerId) (query : PageQuery) : Handler CyclesLog := do
  let entries ← Handler.read (.points player query)
  let totals ← Handler.read (.totals player)
  pure { entries, totals := Ordered.sortBy compareTotals totals }

end PointsService

namespace MatchService

/-- The record, the nemesis and a page of the log. -/
def logOf (player : PlayerId) (query : PageQuery) : Handler Body := do
  let record ← Handler.read (.record player)
  let nemesis ← Handler.read (.nemesis player)
  let log ← Handler.read (.matchLog player query)
  pure (.matches record nemesis log)

end MatchService

/-- The player a signup made. -/
def Payload.account? : Payload → Option PlayerId
  | .account id => some id
  | _ => none

/-- The whole signup: the hash, the row, then a token. -/
def AuthService.signupWith (handle : Handle) (password : Password) : Handler TokenResponse := do
  let passwordHash ← Handler.hash password
  let stored ← Handler.service (.signup handle passwordHash)
  let player ← Handler.okOr stored.account? .unexpected
  let now ← Handler.now
  let expiresAt ← Handler.okOr (TokenIssuer.expiry now) (.ofService .crypto)
  let token ← Handler.encode { sub := player, exp := unixSeconds expiresAt, iat := unixSeconds now }
  pure { token, expiresAt }

/-! ## The handlers -/

namespace Handler

/-- `201` for a row the call created, `200` for one that was already there. -/
def createdOrExisting : Payload → Nat
  | .enrolled (.created _) | .receipt (.created _) => 201
  | _ => 200

/-- A service whose answer is the body. -/
def answered (status : Nat) (request : Request) : Handler Success := do
  let payload ← service request
  pure ⟨status, .payload payload⟩

/-- A service that answers `204`. -/
def done (request : Request) : Handler Success := do
  let _ ← service request
  pure ⟨204, .empty⟩

/-- A service whose status says whether it made the row. -/
def idempotent (request : Request) : Handler Success := do
  let payload ← service request
  pure ⟨createdOrExisting payload, .payload payload⟩

/-- A page that is read at once. -/
def page (op : ReadOp) (body : op.Ans → Body) : Handler Success := do
  let answer ← read op
  pure ⟨200, body answer⟩

end Handler

open Handler in
def OpenRoute.handle : OpenRoute → Handler Success
  | .signup handle password => do
      let token ← AuthService.signupWith handle password
      pure ⟨201, .token token⟩
  | .login handle password => answered 200 (.login handle password)
  | .listPlayers query =>
      page (.players query.pageQuery query.term (some true) .standing) .players
  | .getPlayer handle => do
      let player ← PlayerService.publicByHandle handle
      pure ⟨200, .player player⟩
  | .cyclesHistory handle query => do
      let player ← PlayerService.publicByHandle handle
      let log ← PointsService.cyclesOf player.id query
      pure ⟨200, .cycles log⟩
  | .matchLog handle query => do
      let player ← PlayerService.publicByHandle handle
      let log ← MatchService.logOf player.id query
      pure ⟨200, log⟩
  | .cyclesRules => pure ⟨200, .rules .current⟩
  | .listTournaments query => page (.tournaments query false) .tournaments
  | .getTournament id => answered 200 (.detail id .everyone)
  | .listEvents query => page (.events query false) .events
  | .checkinGate code => answered 200 (.gate code)

open Handler in
def PendingRoute.handle (caller : Caller) : PendingRoute → Handler Success
  | .me => do
      let account ← PlayerService.account caller.id
      pure ⟨200, .account account⟩
  | .changePassword change => answered 200 (.changePassword caller.id change)

open Handler in
def OwnRoute.handle (caller : Caller) : OwnRoute → Handler Success
  | .changeHandle handle => do
      let player ← PlayerService.rename caller.id handle
      pure ⟨200, .player player⟩
  | .myCycles query => do
      let log ← PointsService.cyclesOf caller.id query
      pure ⟨200, .cycles log⟩
  | .myMatches query => do
      let log ← MatchService.logOf caller.id query
      pure ⟨200, log⟩
  | .registrations => page (.tournamentsOf caller.id) .registrations
  | .register id skill => answered 200 (.register id caller.id skill)
  | .retire id => done (.retire id caller.id)
  | .checkIn code => idempotent (.checkIn code caller.id)
  | .checkins => page (.eventsOf caller.id) .checkins

open Handler in
def AdminRoute.handle (admin : Caller) : AdminRoute → Handler Success
  | .listPlayers query => page (.players query.pageQuery query.term query.active .newest) .players
  | .lookupPlayer handle => do
      let player ← PlayerService.lookup handle
      pure ⟨200, .player player⟩
  | .adjustCycles id adjustment =>
      answered 201 (.adjust admin.id id adjustment.amount adjustment.note)
  | .setRole id role => answered 200 (.setRole admin.id id role)
  | .renamePlayer id handle => do
      let player ← PlayerService.rename id handle
      pure ⟨200, .player player⟩
  | .resetPassword id => answered 200 (.resetPassword id)
  | .deletePlayer id => done (.deletePlayer admin.id id)
  | .listTournaments query => page (.tournaments query true) .tournaments
  | .createTournament new => answered 201 (.createTournament new)
  | .getTournament id => answered 200 (.detail id .withDrafts)
  | .updateTournament id update => answered 200 (.updateTournament id update)
  | .deleteTournament id => done (.deleteTournament id)
  | .changeStatus id change => answered 200 (.changeStatus id change)
  | .addEntrant id player skill => idempotent (.addEntrant id player skill)
  | .removeEntrant id entrant => done (.removeEntrant id entrant)
  | .generateBracket id => answered 200 (.generateBracket id)
  | .reorderSeeds id order => answered 200 (.reorderSeeds id order)
  | .deleteBracket id => done (.deleteBracket id)
  | .reportResult id matchId winner => answered 200 (.reportResult id matchId winner)
  | .clearResult id matchId => answered 200 (.clearResult id matchId)
  | .listAllEvents query => page (.events query true) .events
  | .createEvent fields => answered 201 (.createEvent fields)
  | .getEvent id => answered 200 (.eventDetail id)
  | .updateEvent id fields => answered 200 (.updateEvent id fields)
  | .deleteEvent id => done (.deleteEvent id)
  | .changeEventStatus id status => answered 200 (.setEventStatus id status)
  | .addCheckin id player => idempotent (.addCheckin id player)
  | .removeCheckin id player => done (.removeCheckin id player)

def HealthRoute.handle : HealthRoute → Handler Success
  | .live => pure ⟨200, .healthy⟩
  | .ready => Handler.page .reachable fun _ => .healthy

/-! ## The extractors of a caller -/

/-- The caller of an authentication. -/
def Payload.caller? : Payload → Option Caller
  | .caller found => some found
  | _ => none

namespace Handler

/-- `PendingPassword`: the caller behind a valid token. -/
def pendingPassword (authorization : Option (List Char)) : Handler Caller := do
  let token ← ofExcept (bearer authorization)
  let payload ← service (.authenticate (String.ofList token))
  okOr payload.caller? .unexpected

/-- `Authenticated`: and with a settled password. -/
def authenticated (authorization : Option (List Char)) : Handler Caller := do
  let caller ← pendingPassword authorization
  if caller.mustChangePassword then fail .passwordChange else pure caller

/-- `AdminOnly`, before a handler of an admin route runs. -/
def requireAdmin (authorization : Option (List Char)) : Handler Caller := do
  let caller ← authenticated authorization
  match caller.role with
  | .admin => pure caller
  | .user => fail .adminsOnly

end Handler

/-! ## Requests -/

/-- The input that the extractors of a handler give it. -/
abbrev Input (α : Type) := Except Rejection α

def Handler.ofInput {α : Type} (input : Input α) : Handler α :=
  Handler.ofExcept (input.mapError Rejection.error)

/-- The route of a request, with its input. -/
inductive Endpoint where
  | health (route : HealthRoute)
  | everyone (input : Input OpenRoute)
  | pending (input : Input PendingRoute)
  | own (input : Input OwnRoute)
  | admin (input : Input AdminRoute)

structure HttpRequest where
  /-- `X-Api-Key`, if it is text. -/
  apiKey : Option (List Char)
  /-- `Authorization`, if it is text. -/
  authorization : Option (List Char)
  endpoint : Endpoint

/-- A caller is checked before the input is. -/
def Endpoint.handle (authorization : Option (List Char)) : Endpoint → Handler Success
  | .health route => route.handle
  | .everyone input => do
      let route ← Handler.ofInput input
      route.handle
  | .pending input => do
      let caller ← Handler.pendingPassword authorization
      let route ← Handler.ofInput input
      route.handle caller
  | .own input => do
      let caller ← Handler.authenticated authorization
      let route ← Handler.ofInput input
      route.handle caller
  | .admin input => do
      let caller ← Handler.requireAdmin authorization
      let route ← Handler.ofInput input
      route.handle caller

/-- `/health` needs no key. -/
def Endpoint.isOpen : Endpoint → Bool
  | .health _ => true
  | _ => false

/-- `require_api_key` runs before any handler. -/
def HttpRequest.serve (secrets : Secrets) (request : HttpRequest) : Handler Success :=
  if request.endpoint.isOpen || secrets.admits request.apiKey then
    request.endpoint.handle request.authorization
  else Handler.fail .keyRequired

/-- The API over the services. -/
abbrev apiLayer (secrets : Secrets) : Layer bunker where
  Extra := ApiOp
  ExtraAns := ApiOp.Ans
  perform := ApiOp.Perform
  drift := World.Drift
  Request := HttpRequest
  Response := Except ApiError Success
  plan := HttpRequest.serve secrets

/-- Any number of requests to one server. -/
abbrev server (secrets : Secrets) : System := (apiLayer secrets).system

/-! ## Runs on fixed requests -/

namespace ApiOp

/-- A storage method as a function. -/
def run {β : Type} (method : Method β) (world : World) : Except StorageError β × World :=
  let result := method world.db
  (result.1, { world with db := result.2 })

theorem runs_run {β : Type} {method : Method β} {world after : World}
    {answer : Except StorageError β} (ran : run method world = (answer, after)) :
    Runs method world answer after := by
  obtain ⟨rfl, rfl⟩ := Prod.mk.inj ran
  exact Or.inl ⟨_, rfl, rfl⟩

/-- One operation as a function, with the plain libraries. -/
def perform : (op : ApiOp) → World → op.Ans × World
  | .read op, world => run op.method world
  | .rename id handle, world => run (PlayerStorage.rename id handle) world
  | .now, world => (world.clock, world)
  | .hash password, world => ((CryptoOp.hash password).plain, world)
  | .encode claims, world => ((CryptoOp.encode claims).plain, world)

theorem perform_of {op : ApiOp} {world after : World} {answer : op.Ans}
    (performed : op.perform world = (answer, after)) : op.Perform world answer after := by
  cases op with
  | read op => exact runs_run performed
  | rename id handle => exact runs_run performed
  | now =>
      obtain ⟨rfl, rfl⟩ := Prod.mk.inj performed
      exact ⟨rfl, rfl⟩
  | hash password =>
      obtain ⟨rfl, rfl⟩ := Prod.mk.inj performed
      rfl
  | encode claims =>
      obtain ⟨rfl, rfl⟩ := Prod.mk.inj performed
      rfl

end ApiOp

/-- The operations of a script. -/
abbrev serverScript (secrets : Secrets) : Simulator (server secrets) where
  Choice := Choice
  perform
    | .inl op => bunkerScript.perform op
    | .inr extra => fun _ world => some (extra.perform world)
  exec_perform op choice state answer after performed := by
    cases op with
    | inl op => exact bunkerScript.exec_perform op choice state answer after performed
    | inr extra => exact ApiOp.perform_of (Option.some.inj performed)
  move := bunkerScript.move
  drift_move := bunkerScript.drift_move

/-- A key of the letter `k`, compared under the number that a text spells. -/
def Secrets.letters : Secrets where
  apiKey := some ⟨List.replicate 32 'k', by decide, by decide⟩
  digest := fun chars => Nat.ofDigits 1114112 (chars.map Char.toNat)

namespace HttpRequest

/-- A request with the key. -/
def keyed (authorization : Option String) (endpoint : Endpoint) : HttpRequest where
  apiKey := some (List.replicate 32 'k')
  authorization := authorization.map String.toList
  endpoint := endpoint

/-- A request that takes its steps at once while no other runs. -/
def alone (steps : Nat) (request : HttpRequest) (uuid : Nat) :
    List (serverScript .letters).Command :=
  (serverScript .letters).alone 0 steps request { uuid }

/-- A player signs up under a handle of one letter. -/
def signup (letter : Char) (plain : isHandleChar letter) (uuid : Nat) :
    List (serverScript .letters).Command :=
  alone 7 (keyed none (.everyone (.ok (.signup
    ⟨List.replicate 3 letter, by simp [plain], by simp, by simp⟩
    ⟨List.replicate 9 letter, by simp, by simp⟩)))) uuid

/-- The player 1 signs up and takes another handle. -/
def renamed : List (serverScript .letters).Command :=
  signup 'a' (by decide) 1 ++
    alone 4 (keyed (some "Bearer pss") (.own (.ok (.changeHandle
      ⟨"bbb".toList, by decide, by simp, by simp⟩)))) 0

/-- Of two admins the player 1 demotes the player 2, who then tries the backoffice. -/
def demoted : List (serverScript .letters).Command :=
  signup 'a' (by decide) 1 ++ signup 'b' (by decide) 2 ++
    [.drift { promoted := some ⟨1⟩ }, .drift { promoted := some ⟨2⟩ }] ++
    alone 4 (keyed (some "Bearer ps") (.admin (.ok (.setRole ⟨2⟩ .user)))) 0 ++
    alone 2 (keyed (some "Bearer pps") (.admin (.ok (.setRole ⟨1⟩ .user)))) 0

end HttpRequest

end LanBunker
