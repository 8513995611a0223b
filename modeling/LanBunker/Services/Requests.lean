import LanBunker.Services.Auth
import LanBunker.Services.Events
import LanBunker.Services.Players
import LanBunker.Services.Tournaments

/-!
# The bunker

Every request the services take, served over one world.  The routers check who sends a request
before it reaches a service, and any request of any sender is taken here.
-/

namespace LanBunker

open Interleaving

inductive Request where
  | signup (handle : Handle) (passwordHash : String)
  | login (handle : Handle) (password : Password)
  | changePassword (id : PlayerId) (change : PasswordChange)
  | resetPassword (id : PlayerId)
  | authenticate (token : String)
  | setRole (actor id : PlayerId) (role : Role)
  | deletePlayer (actor id : PlayerId)
  | adjust (admin player : PlayerId) (amount : Amount) (note : Note)
  | createTournament (new : NewTournament)
  | detail (id : TournamentId) (visibility : Visibility)
  | updateTournament (id : TournamentId) (fields : TournamentUpdate)
  | deleteTournament (id : TournamentId)
  | changeStatus (id : TournamentId) (change : StatusChange)
  | register (id : TournamentId) (player : PlayerId) (skill : SkillLevel)
  | retire (id : TournamentId) (player : PlayerId)
  | addEntrant (id : TournamentId) (player : PlayerId) (skill : Option SkillLevel)
  | removeEntrant (id : TournamentId) (entrant : EntrantId)
  | generateBracket (id : TournamentId)
  | reorderSeeds (id : TournamentId) (order : List EntrantId)
  | deleteBracket (id : TournamentId)
  | reportResult (id : TournamentId) (matchId : MatchId) (winner : EntrantId)
  | clearResult (id : TournamentId) (matchId : MatchId)
  | createEvent (fields : EventFields)
  | eventDetail (id : EventId)
  | updateEvent (id : EventId) (fields : EventFields)
  | setEventStatus (id : EventId) (status : EventStatus)
  | deleteEvent (id : EventId)
  | gate (code : CheckinCode)
  | checkIn (code : CheckinCode) (player : PlayerId)
  | addCheckin (id : EventId) (player : PlayerId)
  | removeCheckin (id : EventId) (player : PlayerId)
  deriving DecidableEq, Repr

/-- What a request answers when it succeeds. -/
inductive Payload where
  | unit
  | account (id : PlayerId)
  | token (response : TokenResponse)
  | temporaryPassword (password : TemporaryPassword)
  | caller (caller : Caller)
  | player (player : Player)
  | entry (entry : PointEntry)
  | tournament (tournament : Tournament)
  | detail (detail : TournamentDetail)
  | entrant (entrant : Entrant)
  | enrolled (outcome : Outcome Entrant)
  | bracket (bracket : Bracket)
  | event (event : Event)
  | eventDetail (detail : EventDetail)
  | gate (gate : CheckinGate)
  | receipt (outcome : Outcome CheckinReceipt)
  deriving DecidableEq, Repr

abbrev Response := Except ServiceError Payload

/-- A service method as the program of a request. -/
def Service.answering {α : Type} (service : Service α) (payload : α → Payload) :
    Program Op Op.Ans Response :=
  Program.bind service fun result => .answer (result.map payload)

namespace Request

def serve : Request → Program Op Op.Ans Response
  | .signup handle passwordHash => (AuthService.signup handle passwordHash).answering .account
  | .login handle password => (AuthService.login handle password).answering .token
  | .changePassword id change => (AuthService.changePassword id change).answering .token
  | .resetPassword id => (AuthService.resetPassword id).answering .temporaryPassword
  | .authenticate token => (AuthService.authenticate token).answering .caller
  | .setRole actor id role => (PlayerService.setRole actor id role).answering .player
  | .deletePlayer actor id => (PlayerService.delete actor id).answering fun _ => .unit
  | .adjust admin player amount note =>
      (PointsService.adjust admin player amount note).answering .entry
  | .createTournament new => (TournamentService.create new).answering .tournament
  | .detail id visibility => (TournamentService.detail id visibility).answering .detail
  | .updateTournament id fields => (TournamentService.update id fields).answering .tournament
  | .deleteTournament id => (TournamentService.delete id).answering fun _ => .unit
  | .changeStatus id change => (TournamentService.changeStatus id change).answering .tournament
  | .register id player skill => (TournamentService.register id player skill).answering .entrant
  | .retire id player => (TournamentService.retire id player).answering fun _ => .unit
  | .addEntrant id player skill =>
      (TournamentService.addEntrant id player skill).answering .enrolled
  | .removeEntrant id entrant =>
      (TournamentService.removeEntrant id entrant).answering fun _ => .unit
  | .generateBracket id => (TournamentService.generateBracket id).answering .bracket
  | .reorderSeeds id order => (TournamentService.reorderSeeds id order).answering .bracket
  | .deleteBracket id => (TournamentService.deleteBracket id).answering fun _ => .unit
  | .reportResult id matchId winner =>
      (TournamentService.reportResult id matchId winner).answering .bracket
  | .clearResult id matchId => (TournamentService.clearResult id matchId).answering .bracket
  | .createEvent fields => (EventService.create fields).answering .event
  | .eventDetail id => (EventService.detail id).answering .eventDetail
  | .updateEvent id fields => (EventService.update id fields).answering .event
  | .setEventStatus id status => (EventService.setStatus id status).answering .event
  | .deleteEvent id => (EventService.delete id).answering fun _ => .unit
  | .gate code => (EventService.gate code).answering .gate
  | .checkIn code player => (EventService.checkIn code player).answering .receipt
  | .addCheckin id player => (EventService.addCheckin id player).answering .receipt
  | .removeCheckin id player => (EventService.removeCheckin id player).answering fun _ => .unit

end Request

/-- Any number of requests over one world. -/
abbrev bunker : System where
  State := World
  Op := Op
  Ans := Op.Ans
  Request := Request
  Response := Response
  serve := Request.serve
  exec := World.Exec
  drift := World.Drift

/-! ## Runs on fixed requests -/

def CheckinCode.letters : CheckinCode := ⟨List.replicate 12 'a', by decide, by decide⟩

/-- Libraries whose hash is the password itself, and whose token counts out its claims. -/
def CryptoOp.plain : (op : CryptoOp) → op.Ans
  | .hash password => some (String.ofList password.chars)
  | .verify password passwordHash => some (decide (passwordHash = String.ofList password.chars))
  | .encode claims =>
      some (String.ofList
        (List.replicate claims.sub.uuid 'p' ++ List.replicate claims.iat.toNat 's'))
  | .decode token =>
      let iat : Int := token.toList.count 's'
      some { sub := ⟨token.toList.count 'p'⟩, exp := iat + unixSeconds tokenTtl, iat }
  | .temporary => List.replicate 32 '0'

/-- What one step of a script leaves open: the first number `generate` hands out, the code, and
the player that is promoted or the instant the clock moves to. -/
structure Choice where
  uuid : Nat := 0
  code : CheckinCode := .letters
  promoted : Option PlayerId := none
  clock : Instant := 0

namespace World

/-- One operation as a function.  A shuffle leaves the order as it is, and the libraries are the
plain ones. -/
def perform : (op : Op) → Nat → CheckinCode → World → Option (op.Ans × World)
  | .store op, _, _, world => if world.IsFresh op then some (world.store op) else none
  | .now, _, _, world => some (world.clock, world)
  | .draw _, uuid, _, world => some (fun index => ⟨uuid + index⟩, world)
  | .drawCode, _, code, world => some (code, world)
  | .shuffle entrants, _, _, world => some (entrants, world)
  | .crypto op, _, _, world => some (op.plain, world)

theorem exec_perform (op : Op) (uuid : Nat) (code : CheckinCode) (world : World)
    (answer : op.Ans) (after : World)
    (performed : perform op uuid code world = some (answer, after)) :
    Exec op world answer after := by
  cases op with
  | store op =>
      simp only [perform] at performed
      split_ifs at performed with fresh
      exact Or.inl ⟨fresh, Option.some.inj performed⟩
  | now =>
      obtain ⟨rfl, rfl⟩ := Prod.mk.inj (Option.some.inj performed)
      exact ⟨rfl, rfl⟩
  | draw kind =>
      obtain ⟨rfl, rfl⟩ := Prod.mk.inj (Option.some.inj performed)
      rfl
  | drawCode =>
      obtain ⟨rfl, rfl⟩ := Prod.mk.inj (Option.some.inj performed)
      rfl
  | shuffle entrants =>
      obtain ⟨rfl, rfl⟩ := Prod.mk.inj (Option.some.inj performed)
      exact ⟨.refl _, rfl⟩
  | crypto op =>
      obtain ⟨rfl, rfl⟩ := Prod.mk.inj (Option.some.inj performed)
      rfl

end World

/-- The operations of a script. -/
abbrev bunkerScript : Simulator bunker where
  Choice := Choice
  perform op choice world := World.perform op choice.uuid choice.code world
  exec_perform op choice world answer after :=
    World.exec_perform op choice.uuid choice.code world answer after
  move choice world :=
    match choice.promoted with
    | some id => world.promote id
    | none => { world with clock := choice.clock }
  drift_move choice world := by
    cases promoted : choice.promoted with
    | some id => exact .promote world id
    | none => exact .clock world choice.clock

/-- A request that takes its steps at once while no other runs, and what `generate` hands out to
it. -/
def alone (steps : Nat) (request : Request) (uuid : Nat) : List bunkerScript.Command :=
  bunkerScript.alone 0 steps request { uuid }

end LanBunker
