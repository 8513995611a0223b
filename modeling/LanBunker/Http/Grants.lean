import LanBunker.Http.Routes
import LanBunker.Services.Writes

/-!
# What a request to the API may call

A route without a token writes nothing but a signup.  Every other call comes after the check of the
caller, and outside the backoffice it writes nothing but what is the caller's own.
-/

namespace LanBunker

open Interleaving

/-! ## Handlers -/

namespace Handler

variable {α β γ : Type} {allowed : HandlerCall → Prop}

/-- Every call of a handler is allowed. -/
abbrev Uses (allowed : HandlerCall → Prop) (handler : Handler α) : Prop :=
  Program.Uses allowed handler

theorem uses_bind {handler : Handler α} {rest : α → Handler β} (uses : Uses allowed handler)
    (further : ∀ value, Uses allowed (rest value)) : Uses allowed (handler >>= rest) := by
  refine Program.Uses.bind uses fun result => ?_
  cases result with
  | ok value => exact further value
  | error error => trivial

theorem uses_pure (value : α) : Uses allowed (pure value : Handler α) := trivial

theorem uses_service {request : Request} (may : allowed (.inl request)) :
    Uses allowed (service request) := ⟨may, fun _ => trivial⟩

theorem uses_read {op : ReadOp} (may : allowed (.inr (.read op))) : Uses allowed (read op) :=
  ⟨may, fun _ => trivial⟩

theorem uses_okOr (value : Option α) (error : ApiError) : Uses allowed (okOr value error) := by
  cases value <;> trivial

theorem uses_answered {status : Nat} {request : Request} (may : allowed (.inl request)) :
    Uses allowed (answered status request) := uses_bind (uses_service may) fun _ => uses_pure _

theorem uses_done {request : Request} (may : allowed (.inl request)) :
    Uses allowed (done request) := uses_bind (uses_service may) fun _ => uses_pure _

theorem uses_idempotent {request : Request} (may : allowed (.inl request)) :
    Uses allowed (idempotent request) := uses_bind (uses_service may) fun _ => uses_pure _

theorem uses_page {op : ReadOp} {body : op.Ans → Body} (may : allowed (.inr (.read op))) :
    Uses allowed (page op body) := uses_bind (uses_read may) fun _ => uses_pure _

theorem bind_assoc (handler : Handler α) (middle : α → Handler β) (last : β → Handler γ) :
    handler >>= middle >>= last = handler >>= fun value => middle value >>= last := by
  refine (Program.bind_assoc _ _ _).trans
    (congrArg (Program.bind handler) (funext fun result => ?_))
  cases result <;> rfl

end Handler

open Handler

/-! ## What a route may call -/

/-- A call that writes nothing and signs nothing. -/
def HandlerCall.isRead : HandlerCall → Bool
  | .inl (.detail _ _) | .inl (.eventDetail _) | .inl (.gate _) | .inr (.read _) => true
  | _ => false

/-- What a route without a token calls besides reads: the steps of a signup, or a login. -/
def OpenRoute.Calls : OpenRoute → HandlerCall → Prop
  | .signup handle password, call =>
      call = .inr (.hash password) ∨ (∃ passwordHash, call = .inl (.signup handle passwordHash)) ∨
        call = .inr .now ∨ ∃ claims, call = .inr (.encode claims)
  | .login handle password, call => call = .inl (.login handle password)
  | _, _ => False

/-- What a route calls for its caller besides reads. -/
def PendingRoute.Calls (caller : Caller) : PendingRoute → HandlerCall → Prop
  | .changePassword change, call => call = .inl (.changePassword caller.id change)
  | _, _ => False

def OwnRoute.Calls (caller : Caller) : OwnRoute → HandlerCall → Prop
  | .changeHandle handle, call => call = .inr (.rename caller.id handle)
  | .register id skill, call => call = .inl (.register id caller.id skill)
  | .retire id, call => call = .inl (.retire id caller.id)
  | .checkIn code, call => call = .inl (.checkIn code caller.id)
  | _, _ => False

/-- A service that names the admin behind a call names the caller, and no route of the backoffice
signs a token. -/
def HandlerCall.Signed (admin : Caller) : HandlerCall → Prop
  | .inl (.setRole actor _ _) | .inl (.deletePlayer actor _) | .inl (.adjust actor _ _ _) =>
      actor = admin.id
  | .inl (.login _ _) | .inl (.changePassword _ _) | .inr (.encode _) => False
  | _ => True

section Routes

variable {allowed : HandlerCall → Prop}

theorem PlayerService.uses_publicByHandle (handle : Handle)
    (may : ∀ call, HandlerCall.isRead call → allowed call) :
    Uses allowed (publicByHandle handle) :=
  uses_bind (uses_read (may _ rfl)) fun _ => uses_okOr _ _

theorem PlayerService.uses_rename {id : PlayerId} {handle : Handle}
    (may : allowed (.inr (.rename id handle))) : Uses allowed (rename id handle) := by
  refine uses_bind ⟨may, fun _ => trivial⟩ fun renamed => ?_
  cases renamed <;> trivial

theorem PointsService.uses_cyclesOf (player : PlayerId) (query : PageQuery)
    (may : ∀ call, HandlerCall.isRead call → allowed call) :
    Uses allowed (cyclesOf player query) :=
  uses_bind (uses_read (may _ rfl)) fun _ => uses_bind (uses_read (may _ rfl)) fun _ => uses_pure _

theorem MatchService.uses_logOf (player : PlayerId) (query : PageQuery)
    (may : ∀ call, HandlerCall.isRead call → allowed call) : Uses allowed (logOf player query) :=
  uses_bind (uses_read (may _ rfl)) fun _ => uses_bind (uses_read (may _ rfl)) fun _ =>
    uses_bind (uses_read (may _ rfl)) fun _ => uses_pure _

theorem OpenRoute.uses_handle (route : OpenRoute) :
    Uses (fun call => HandlerCall.isRead call ∨ route.Calls call) route.handle := by
  cases route with
  | signup handle password =>
      refine uses_bind ?_ fun token => uses_pure _
      refine uses_bind ⟨Or.inr (Or.inl rfl), fun _ => uses_okOr _ _⟩ fun passwordHash =>
        uses_bind (uses_service (Or.inr (Or.inr (Or.inl ⟨passwordHash, rfl⟩)))) fun stored =>
          uses_bind (uses_okOr _ _) fun player =>
            uses_bind ⟨Or.inr (Or.inr (Or.inr (Or.inl rfl))), fun _ => uses_pure _⟩ fun now =>
              uses_bind (uses_okOr _ _) fun expiresAt =>
                uses_bind ⟨Or.inr (Or.inr (Or.inr (Or.inr ⟨_, rfl⟩))), fun _ => uses_okOr _ _⟩
                  fun token => uses_pure _
  | login handle password => exact uses_answered (Or.inr rfl)
  | listPlayers query => exact uses_page (Or.inl rfl)
  | getPlayer handle =>
      exact uses_bind (PlayerService.uses_publicByHandle handle fun _ => Or.inl) fun _ =>
        uses_pure _
  | cyclesHistory handle query =>
      exact uses_bind (PlayerService.uses_publicByHandle handle fun _ => Or.inl) fun player =>
        uses_bind (PointsService.uses_cyclesOf player.id query fun _ => Or.inl) fun _ => uses_pure _
  | matchLog handle query =>
      exact uses_bind (PlayerService.uses_publicByHandle handle fun _ => Or.inl) fun player =>
        uses_bind (MatchService.uses_logOf player.id query fun _ => Or.inl) fun _ => uses_pure _
  | cyclesRules => exact uses_pure _
  | listTournaments query => exact uses_page (Or.inl rfl)
  | getTournament id => exact uses_answered (Or.inl rfl)
  | listEvents query => exact uses_page (Or.inl rfl)
  | checkinGate code => exact uses_answered (Or.inl rfl)

theorem PendingRoute.uses_handle (caller : Caller) (route : PendingRoute) :
    Uses (fun call => HandlerCall.isRead call ∨ route.Calls caller call)
      (route.handle caller) := by
  cases route with
  | me =>
      refine uses_bind ?_ fun account => uses_pure _
      exact uses_bind (uses_read (Or.inl rfl)) fun _ => uses_okOr _ _
  | changePassword change => exact uses_answered (Or.inr rfl)

theorem OwnRoute.uses_handle (caller : Caller) (route : OwnRoute) :
    Uses (fun call => HandlerCall.isRead call ∨ route.Calls caller call)
      (route.handle caller) := by
  cases route with
  | changeHandle handle =>
      exact uses_bind (PlayerService.uses_rename (Or.inr rfl)) fun _ => uses_pure _
  | myCycles query =>
      exact uses_bind (PointsService.uses_cyclesOf caller.id query fun _ => Or.inl) fun _ =>
        uses_pure _
  | myMatches query =>
      exact uses_bind (MatchService.uses_logOf caller.id query fun _ => Or.inl) fun _ => uses_pure _
  | registrations => exact uses_page (Or.inl rfl)
  | register id skill => exact uses_answered (Or.inr rfl)
  | retire id => exact uses_done (Or.inr rfl)
  | checkIn code => exact uses_idempotent (Or.inr rfl)
  | checkins => exact uses_page (Or.inl rfl)

theorem AdminRoute.uses_handle (admin : Caller) (route : AdminRoute) :
    Uses (HandlerCall.Signed admin) (route.handle admin) := by
  cases route with
  | listPlayers query => exact uses_page trivial
  | lookupPlayer handle =>
      refine uses_bind ?_ fun player => uses_pure _
      exact uses_bind (uses_read trivial) fun _ => uses_okOr _ _
  | adjustCycles id adjustment => exact uses_answered rfl
  | setRole id role => exact uses_answered rfl
  | renamePlayer id handle =>
      exact uses_bind (PlayerService.uses_rename trivial) fun _ => uses_pure _
  | deletePlayer id => exact uses_done rfl
  | listTournaments query => exact uses_page trivial
  | listAllEvents query => exact uses_page trivial
  | addEntrant id player skill => exact uses_idempotent trivial
  | addCheckin id player => exact uses_idempotent trivial
  | deleteTournament id => exact uses_done trivial
  | removeEntrant id entrant => exact uses_done trivial
  | deleteBracket id => exact uses_done trivial
  | deleteEvent id => exact uses_done trivial
  | removeCheckin id player => exact uses_done trivial
  | _ => exact uses_answered trivial

end Routes

/-! ## What a request may call -/

/-- The calls of a request so far, as its handler makes them. -/
abbrev Made := History HandlerCall HandlerAns

/-- The check of the caller, which is the first call. -/
def IsCheck (authorization : Option (List Char)) (past : Made) (call : HandlerCall) : Prop :=
  past = [] ∧ ∃ token, bearer authorization = .ok token ∧
    call = .inl (.authenticate (String.ofList token))

/-- The check answered this caller. -/
def Checked (authorization : Option (List Char)) (past : Made) (caller : Caller) : Prop :=
  ∃ token later, bearer authorization = .ok token ∧
    past = ⟨.inl (.authenticate (String.ofList token)), .ok (.caller caller)⟩ :: later

/-- The check passed, and the route got its input. -/
structure Passed {Route : Type} (authorization : Option (List Char)) (input : Input Route)
    (past : Made) (caller : Caller) (route : Route) : Prop where
  checked : Checked authorization past caller
  parsed : input = .ok route

/-- A handler that goes on with the caller behind the token. -/
theorem follows_passed {Route α : Type} {authorization : Option (List Char)} {input : Input Route}
    {rest : Caller → Handler α} {granted : Caller → Route → HandlerCall → Prop}
    (uses : ∀ caller,
      Uses (fun call => ∃ route, input = .ok route ∧ granted caller route call) (rest caller)) :
    Program.Follows
      (fun past call => IsCheck authorization past call ∨
        ∃ caller route, Passed authorization input past caller route ∧ granted caller route call)
      [] (pendingPassword authorization >>= rest : Handler α) fun _ _ => True := by
  rw [pendingPassword, bind_assoc]
  cases token_eq : bearer authorization with
  | error error => trivial
  | ok token =>
      refine ⟨Or.inl ⟨rfl, token, token_eq, rfl⟩, fun response => ?_⟩
      cases response with
      | error error => trivial
      | ok payload =>
          cases payload with
          | caller found =>
              refine ((uses found).follows [⟨.inl (.authenticate (String.ofList token)),
                .ok (.caller found)⟩] []).weaken ?_
              rintro _ call ⟨⟨later, rfl⟩, route, parsed, grants⟩
              exact Or.inr ⟨found, route, ⟨⟨token, later, token_eq, rfl⟩, parsed⟩, grants⟩
          | _ => trivial

/-- What a caller may call on a route, after the check. -/
def PendingRoute.Grants (caller : Caller) (route : PendingRoute) (call : HandlerCall) : Prop :=
  HandlerCall.isRead call ∨ route.Calls caller call

def OwnRoute.Grants (caller : Caller) (route : OwnRoute) (call : HandlerCall) : Prop :=
  caller.mustChangePassword = false ∧ (HandlerCall.isRead call ∨ route.Calls caller call)

def AdminRoute.Grants (caller : Caller) (_ : AdminRoute) (call : HandlerCall) : Prop :=
  caller.mustChangePassword = false ∧ caller.role = .admin ∧ HandlerCall.Signed caller call

/-- What a request to an endpoint may call. -/
def Endpoint.May (authorization : Option (List Char)) (past : Made) (call : HandlerCall) :
    Endpoint → Prop
  | .health _ => call = .inr (.read .reachable)
  | .everyone input => HandlerCall.isRead call ∨ ∃ route, input = .ok route ∧ route.Calls call
  | .pending input => IsCheck authorization past call ∨
      ∃ caller route, Passed authorization input past caller route ∧ route.Grants caller call
  | .own input => IsCheck authorization past call ∨
      ∃ caller route, Passed authorization input past caller route ∧ route.Grants caller call
  | .admin input => IsCheck authorization past call ∨
      ∃ caller route, Passed authorization input past caller route ∧ route.Grants caller call

/-- What a request may call.  Without the key it calls nothing. -/
def HttpRequest.May (secrets : Secrets) (request : HttpRequest) (past : Made)
    (call : HandlerCall) : Prop :=
  (request.endpoint.isOpen || secrets.admits request.apiKey) ∧
    request.endpoint.May request.authorization past call

theorem uses_ofInput {Route α : Type} {granted : Route → HandlerCall → Prop} {input : Input Route}
    {rest : Route → Handler α} (uses : ∀ route, Uses (granted route) (rest route)) :
    Uses (fun call => ∃ route, input = .ok route ∧ granted route call)
      (ofInput input >>= rest) := by
  cases input with
  | error rejection => trivial
  | ok route => exact (uses route).mono fun call grants => ⟨route, rfl, grants⟩

theorem Endpoint.follows_handle (authorization : Option (List Char)) (endpoint : Endpoint) :
    Program.Follows (fun past call => endpoint.May authorization past call) []
      (endpoint.handle authorization) fun _ _ => True := by
  cases endpoint with
  | health route =>
      cases route with
      | live => trivial
      | ready => exact ⟨rfl, fun result => by cases result <;> trivial⟩
  | everyone input =>
      have uses : Uses _ (ofInput input >>= OpenRoute.handle) :=
        uses_ofInput OpenRoute.uses_handle
      refine (uses.follows [] []).weaken fun _ call allowed => ?_
      obtain ⟨-, route, parsed, grants⟩ := allowed
      exact grants.imp_right fun writes => ⟨route, parsed, writes⟩
  | pending input =>
      exact follows_passed fun caller => uses_ofInput (PendingRoute.uses_handle caller)
  | own input =>
      rw [Endpoint.handle, authenticated, bind_assoc]
      refine follows_passed fun caller => ?_
      cases settled : caller.mustChangePassword with
      | true => trivial
      | false =>
          exact uses_ofInput fun route => (route.uses_handle caller).mono fun call grants =>
            ⟨settled, grants⟩
  | admin input =>
      rw [Endpoint.handle, requireAdmin, authenticated, bind_assoc, bind_assoc]
      refine follows_passed fun caller => ?_
      obtain ⟨id, role, mustChange⟩ := caller
      cases mustChange with
      | true => trivial
      | false =>
          cases role with
          | user => trivial
          | admin =>
              exact uses_ofInput fun route => (route.uses_handle _).mono fun call signed =>
                ⟨rfl, rfl, signed⟩

theorem HttpRequest.follows_serve (secrets : Secrets) (request : HttpRequest) :
    Program.Follows (request.May secrets) [] (request.serve secrets) fun _ _ => True := by
  rw [HttpRequest.serve]
  split_ifs with admitted
  · exact (request.endpoint.follows_handle request.authorization).weaken fun past call allowed =>
      ⟨admitted, allowed⟩
  · trivial

/-! ## The discipline of the API -/

/-- The discipline of the services, with what each request writes. -/
def services : Discipline bunker where
  may request past op := May request past op ∧ request.Touches op
  answers := Answers
  follows request :=
    ((discipline.follows request).and ((serve_uses request).follows [] [])).weaken
      (fun _ _ both => ⟨both.1, both.2.2⟩) |>.mono fun _ _ both => both.1

def manners (secrets : Secrets) : (apiLayer secrets).Manners where
  may := HttpRequest.May secrets
  answers _ _ _ := True
  follows := HttpRequest.follows_serve secrets

/-- What the requests to a server may call, operation by operation. -/
def apiDiscipline (secrets : Secrets) : Discipline (server secrets) :=
  (manners secrets).discipline services

end LanBunker
