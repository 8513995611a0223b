import LanBunker.Http.Authority
import LanBunker.Relational.Lookup

/-!
# Where a token comes from

A token is signed by a signup for the player it made, by a login for the player whose password it
verified, or by the change of a password for the caller that an earlier token let in.  Followed
back, the token of every caller goes back to a signup or to a login.
-/

namespace LanBunker

open Interleaving Program

variable {secrets : Secrets}

/-! ## A signup -/

/-- The row behind the id that a signup answers. -/
def Created.By (past : Past) (id : PlayerId) : Prop :=
  ∃ new player, ⟨.store (.players (.create new)), .ok (.player player)⟩ ∈ past ∧ player.id = id

theorem AuthService.follows_signup (handle : Handle) (passwordHash : String) :
    Follows (fun _ _ => True) [] (signup handle passwordHash) fun answer past =>
      ∀ id, answer = .ok id → Created.By past id := by
  refine ⟨trivial, fun draw => ⟨trivial, fun now => ⟨trivial, fun created => ?_⟩⟩⟩
  cases created with
  | error error => exact fun id => nofun
  | ok created =>
      cases created with
      | handleTaken => exact fun id => nofun
      | player stored =>
          intro id answered
          obtain rfl := Except.ok.inj answered
          exact ⟨_, stored, List.mem_append_right _ List.mem_cons_self, rfl⟩

/-- What a signup of the services answers with. -/
def Registers (request : Request) (response : Response) (past : Past) : Prop :=
  match request, response with
  | .signup _ _, .ok (.account id) => Created.By past id
  | _, _ => True

theorem follows_registers (request : Request) :
    Follows (fun _ _ => True) [] request.serve (Registers request) := by
  cases request with
  | signup handle passwordHash =>
      refine follows_bind.mpr ((AuthService.follows_signup handle passwordHash).mono ?_)
      intro answer past created
      cases answer with
      | error error => trivial
      | ok id => exact created id rfl
  | _ => exact follows_of_forall (fun _ _ => trivial) fun _ _ => trivial

/-- The discipline of the services, with what a signup answers. -/
def registering : Discipline bunker where
  may := services.may
  answers request response past := Answers request response past ∧ Registers request response past
  follows request :=
    ((services.follows request).and (follows_registers request)).weaken fun _ _ both => both.1

/-! ## The handler of a signup -/

/-- The account of a signup that a handler got its answer from. -/
def SignsUp (past : Made) (id : PlayerId) : Prop :=
  ∃ handle passwordHash, ⟨.inl (.signup handle passwordHash), .ok (.account id)⟩ ∈ past

/-- A handler signs a token for the account it signed up. -/
def SignsOwn (past : Made) (call : HandlerCall) : Prop :=
  ∀ claims, call = .inr (.encode claims) → SignsUp past claims.sub

theorem AuthService.follows_signupWith (handle : Handle) (password : Password) :
    Follows SignsOwn [] (signupWith handle password) fun _ _ => True := by
  refine ⟨fun claims => nofun, fun hashed => ?_⟩
  cases hashed with
  | none => trivial
  | some passwordHash =>
      refine ⟨fun claims => nofun, fun response => ?_⟩
      cases response with
      | error error => trivial
      | ok payload =>
          cases payload with
          | account id =>
              refine ⟨fun claims => nofun, fun (now : Instant) => ?_⟩
              change Follows SignsOwn _
                (Program.bind (Handler.okOr (TokenIssuer.expiry now) (.ofService .crypto)) _) _
              cases TokenIssuer.expiry now with
              | none => trivial
              | some expiresAt =>
                  refine ⟨fun claims own => ?_, fun encoded => by cases encoded <;> trivial⟩
                  obtain rfl := ApiOp.encode.inj (Sum.inr.inj own)
                  exact ⟨handle, passwordHash, by simp⟩
          | _ => trivial

/-! ## What signs a token -/

/-- A call that leads to a token. -/
def HandlerCall.signs : HandlerCall → Bool
  | .inl (.login _ _) | .inl (.changePassword _ _) | .inr (.encode _) => true
  | _ => false

/-- The request behind a call that leads to a token. -/
inductive Signing (request : HttpRequest) (past : Made) : HandlerCall → Prop where
  | signup {handle : Handle} {password : Password}
      (asked : request.endpoint = .everyone (.ok (.signup handle password))) (claims : Claims) :
      Signing request past (.inr (.encode claims))
  | login {handle : Handle} {password : Password}
      (asked : request.endpoint = .everyone (.ok (.login handle password))) :
      Signing request past (.inl (.login handle password))
  | changePassword {caller : Caller} {change : PasswordChange}
      (asked : request.endpoint = .pending (.ok (.changePassword change)))
      (checked : Checked request.authorization past caller) :
      Signing request past (.inl (.changePassword caller.id change))

theorem HandlerCall.isRead_of_signs {call : HandlerCall} (signs : call.signs) :
    call.isRead = false := by
  rcases call with request | op
  · cases request <;> first | rfl | cases signs
  · cases op <;> first | rfl | cases signs

section Signing

variable {call : HandlerCall}

theorem OpenRoute.signing {route : OpenRoute} (calls : route.Calls call) (signs : call.signs) :
    (∃ handle password claims, route = .signup handle password ∧ call = .inr (.encode claims)) ∨
      ∃ handle password, route = .login handle password ∧ call = .inl (.login handle password) := by
  cases route with
  | signup handle password =>
      obtain rfl | ⟨passwordHash, rfl⟩ | rfl | ⟨claims, rfl⟩ := calls
      · cases signs
      · cases signs
      · cases signs
      · exact Or.inl ⟨handle, password, claims, rfl, rfl⟩
  | login handle password => exact Or.inr ⟨handle, password, rfl, calls⟩
  | _ => exact calls.elim

theorem OwnRoute.not_signs {caller : Caller} {route : OwnRoute} (calls : route.Calls caller call) :
    ¬ call.signs := by
  cases route with
  | changeHandle handle | register id skill | retire id | checkIn code =>
      obtain rfl := calls
      exact Bool.false_ne_true
  | _ => exact calls.elim

theorem HandlerCall.Signed.not_signs {admin : Caller} (signed : HandlerCall.Signed admin call) :
    ¬ call.signs := by
  rcases call with request | op
  · cases request <;> first | exact Bool.false_ne_true | exact signed.elim
  · cases op <;> first | exact Bool.false_ne_true | exact signed.elim

theorem HttpRequest.May.signing {request : HttpRequest} {past : Made}
    (may : request.May secrets past call) (signs : call.signs) : Signing request past call := by
  have not_read : ¬ call.isRead := Bool.eq_false_iff.mp (HandlerCall.isRead_of_signs signs)
  have not_check : ¬ IsCheck request.authorization past call := by
    rintro ⟨-, token, -, rfl⟩
    cases signs
  obtain ⟨-, may⟩ := may
  cases endpoint : request.endpoint with
  | health route =>
      rw [endpoint] at may
      obtain rfl := may
      cases signs
  | everyone input =>
      rw [endpoint] at may
      obtain ⟨route, rfl, calls⟩ := may.resolve_left not_read
      obtain ⟨handle, password, claims, rfl, rfl⟩ | ⟨handle, password, rfl, rfl⟩ :=
        OpenRoute.signing calls signs
      · exact .signup endpoint claims
      · exact .login endpoint
  | pending input =>
      rw [endpoint] at may
      obtain ⟨caller, route, passed, grants⟩ := may.resolve_left not_check
      have calls := grants.resolve_left not_read
      cases route with
      | me => exact calls.elim
      | changePassword change =>
          obtain rfl := calls
          exact .changePassword (endpoint.trans (congrArg Endpoint.pending passed.parsed))
            passed.checked
  | own input =>
      rw [endpoint] at may
      obtain ⟨caller, route, -, -, grants⟩ := may.resolve_left not_check
      exact absurd signs (OwnRoute.not_signs (grants.resolve_left not_read))
  | admin input =>
      rw [endpoint] at may
      obtain ⟨caller, route, -, -, -, signed⟩ := may.resolve_left not_check
      exact absurd signs signed.not_signs

end Signing

/-! ## The discipline of tokens -/

theorem OpenRoute.follows_handle_signup (handle : Handle) (password : Password) :
    Follows SignsOwn [] (OpenRoute.signup handle password).handle fun _ _ => True := by
  refine follows_bind.mpr ((AuthService.follows_signupWith handle password).mono ?_)
  intro result past _
  cases result <;> trivial

theorem HttpRequest.follows_signs (request : HttpRequest) :
    Follows (fun past call => request.May secrets past call ∧ SignsOwn past call) []
      (request.serve secrets) fun _ _ => True := by
  by_cases signup : ∃ handle password, request.endpoint = .everyone (.ok (.signup handle password))
  · have signs : Follows SignsOwn [] (request.serve secrets) fun _ _ => True := by
      obtain ⟨handle, password, endpoint⟩ := signup
      rw [HttpRequest.serve, endpoint]
      split_ifs
      · exact OpenRoute.follows_handle_signup handle password
      · trivial
    exact ((request.follows_serve secrets).and signs).mono fun _ _ _ => trivial
  · refine (request.follows_serve secrets).weaken fun past call may => ⟨may, ?_⟩
    rintro claims rfl
    cases may.signing rfl with
    | signup asked => exact absurd ⟨_, _, asked⟩ signup

def tokenManners (secrets : Secrets) : (apiLayer secrets).Manners where
  may request past call := request.May secrets past call ∧ SignsOwn past call
  answers _ _ _ := True
  follows := HttpRequest.follows_signs

/-- What the requests to a server may call, with the account behind a token they sign. -/
def tokenDiscipline (secrets : Secrets) : Discipline (server secrets) :=
  (tokenManners secrets).discipline registering

/-! ## Every caller goes back to a signup or a login -/

/-- The token that a step signs, with its claims. -/
def signedToken (moment : Moment (server secrets)) : Option (String × Claims) :=
  match moment.label with
  | .call _ _ _ (.inl (.crypto (.encode claims))) (some token) => some (token, claims)
  | .call _ _ _ (.inr (.encode claims)) (some token) => some (token, claims)
  | _ => none

/-- The token that a step decodes, with its claims. -/
def decodedToken (moment : Moment (server secrets)) : Option (String × Claims) :=
  match moment.label with
  | .call _ _ _ (.inl (.crypto (.decode token))) (some claims) => some (token, claims)
  | _ => none

/-- Nobody but the server signs tokens: what decodes was signed before, with the same claims. -/
def Unforged (moments : List (Moment (server secrets))) : Prop :=
  ∀ index < moments.length, ∀ decoded ∈ moments[index]?.bind decodedToken,
    ∃ signing ∈ moments.take index, signedToken signing = some decoded

instance (moments : List (Moment (server secrets))) : Decidable (Unforged moments) :=
  inferInstanceAs (Decidable (∀ index < moments.length, ∀ _ ∈ _, ∃ _ ∈ _, _))

theorem Unforged.of_append {first last : List (Moment (server secrets))}
    (unforged : Unforged (first ++ last)) : Unforged first := by
  intro index inside decoded decodes
  have signed := unforged index (by rw [List.length_append]; omega) decoded
  rw [List.getElem?_append_left inside,
    List.take_append_of_le_length (Nat.le_of_lt inside)] at signed
  exact signed decodes

theorem Unforged.signed {first last : List (Moment (server secrets))}
    {decoding : Moment (server secrets)} (unforged : Unforged (first ++ decoding :: last))
    {decoded : String × Claims} (decodes : decodedToken decoding = some decoded) :
    ∃ signing ∈ first, signedToken signing = some decoded := by
  have signed := unforged first.length (by simp) decoded
  rw [List.getElem?_append_right (Nat.le_refl _), Nat.sub_self, List.getElem?_cons_zero,
    List.take_left] at signed
  exact signed decodes

/-- A step of a request that signs a token. -/
def Signs (name : Nat) (request : HttpRequest) (token : String) (claims : Claims)
    (moment : Moment (server secrets)) : Prop :=
  ∃ past,
    moment.label = .call name request past (.inl (.crypto (.encode claims))) (some token) ∨
      moment.label = .call name request past (.inr (.encode claims)) (some token)

theorem signedToken_eq_some {moment : Moment (server secrets)} {token : String} {claims : Claims}
    (signs : signedToken moment = some (token, claims)) :
    ∃ name request, Signs name request token claims moment := by
  unfold signedToken at signs
  split at signs
  · rename_i name request past claims' token' label
    obtain ⟨rfl, rfl⟩ := Prod.mk.inj (Option.some.inj signs)
    exact ⟨name, request, past, Or.inl label⟩
  · rename_i name request past claims' token' label
    obtain ⟨rfl, rfl⟩ := Prod.mk.inj (Option.some.inj signs)
    exact ⟨name, request, past, Or.inr label⟩
  · cases signs

/-- In a trace a request made an account. -/
structure SignedUp (trace : List (Moment (server secrets))) (name : Nat) (request : HttpRequest)
    (id : PlayerId) : Prop where
  asked : ∃ handle password, request.endpoint = .everyone (.ok (.signup handle password))
  made : ∃ moment ∈ trace, ∃ past new player,
    moment.label = .call name request past (.inl (.store (.players (.create new))))
        (.ok (.player player)) ∧
      new.id = id ∧ (∀ other ∈ moment.before.db.players, other.id ≠ id) ∧
      moment.after.db = { moment.before.db with
        players := moment.before.db.players ++ [PlayerStorage.playerRow new] }

/-- In a trace a request read the password of an account, by its handle, and verified it. -/
def Verified (trace : List (Moment (server secrets))) (name : Nat) (request : HttpRequest)
    (id : PlayerId) : Prop :=
  ∃ handle password passwordHash,
    request.endpoint = .everyone (.ok (.login handle password)) ∧
      (∃ read ∈ trace,
        (∃ past, read.label = .call name request past
          (.inl (.store (.players (.credentialsByHandle handle))))
            (.ok (some ⟨id, passwordHash⟩))) ∧
        ∃ row ∈ read.before.db.players, row.id = id ∧ row.handle.folded = handle.folded ∧
          row.passwordHash = passwordHash) ∧
      ∃ verified ∈ trace, ∃ past, verified.label = .call name request past
        (.inl (.crypto (.verify password passwordHash))) (some true)

/-- In a trace a request is let in on a token, which it decodes after the steps `before`. -/
structure LetInOn (trace before : List (Moment (server secrets))) (name : Nat)
    (request : HttpRequest) (caller : Caller) (token : String) (claims : Claims) : Prop where
  bears : ∃ chars, bearer request.authorization = .ok chars ∧ token = String.ofList chars
  decodes : ∃ decoding after past, trace = before ++ decoding :: after ∧
    decoding.label = .call name request past (.inl (.crypto (.decode token))) (some claims)
  own : claims.sub = caller.id
  found : ∃ moment ∈ trace, Found name request claims caller moment

/-- A token that was signed in a trace, with everything behind it: the signup of its account, a
login to it, or a change of its password that was let in on a token with the same behind it. -/
inductive Rooted : List (Moment (server secrets)) → String → Claims → Prop where
  | signedUp {trace first last : List (Moment (server secrets))}
      {signing : Moment (server secrets)} {name : Nat} {request : HttpRequest} {token : String}
      {claims : Claims} (whole : trace = first ++ signing :: last)
      (signs : Signs name request token claims signing)
      (signedUp : SignedUp first name request claims.sub) : Rooted trace token claims
  | loggedIn {trace first last : List (Moment (server secrets))}
      {signing : Moment (server secrets)} {name : Nat} {request : HttpRequest} {token : String}
      {claims : Claims} (whole : trace = first ++ signing :: last)
      (signs : Signs name request token claims signing)
      (verified : Verified first name request claims.sub) : Rooted trace token claims
  | changed {trace first last before : List (Moment (server secrets))}
      {signing : Moment (server secrets)} {name : Nat} {request : HttpRequest}
      {token earlier : String} {claims presented : Claims} {caller : Caller}
      {change : PasswordChange} (whole : trace = first ++ signing :: last)
      (signs : Signs name request token claims signing)
      (asked : request.endpoint = .pending (.ok (.changePassword change)))
      (letIn : LetInOn first before name request caller earlier presented)
      (own : caller.id = claims.sub) (rooted : Rooted before earlier presented) :
      Rooted trace token claims

section Classify

variable {trace : List (Moment (server secrets))} {name : Nat} {request : HttpRequest}
  {calls : History (server secrets).Op (server secrets).Ans}

/-- A signup that a handler signs a token for made the account. -/
theorem signedUp_of_answered (sound : ∀ moment ∈ trace, (tokenDiscipline secrets).Sound moment)
    (called : Called trace name request calls) {handle : Handle} {password : Password}
    (asked : request.endpoint = .everyone (.ok (.signup handle password))) {past : Made}
    (spells : Layer.Spells registering past calls) {id : PlayerId} (own : SignsUp past id) :
    SignedUp trace name request id := by
  obtain ⟨handle', passwordHash, answered⟩ := own
  obtain ⟨entries, ⟨-, created⟩, inside⟩ := spells.answered answered
  obtain ⟨new, player, created_mem, own⟩ := created
  obtain ⟨moment, member, earlier, label⟩ := called _ (inside _ created_mem)
  have performed := sound moment member
  simp only [Discipline.Sound, label] at performed
  rcases performed.2 with ⟨-, ran⟩ | ⟨busy, -⟩
  · obtain ⟨⟨stored, same, stored_id⟩, fresh, made⟩ | ⟨none_made, -⟩ :=
      PlayerStorage.create_outcome (World.store_eq ran)
    · obtain rfl := Created.player.inj (Except.ok.inj same)
      obtain rfl := own
      exact
        { asked := ⟨handle, password, asked⟩
          made := ⟨moment, member, earlier, new, _, label, stored_id.symm,
            fun other other_mem => stored_id ▸ fresh other other_mem, made⟩ }
    · exact absurd rfl (none_made player)
  · cases busy

/-- The login that signs a token read the hash it verified. -/
theorem verified_of_loggedIn (sound : ∀ moment ∈ trace, (tokenDiscipline secrets).Sound moment)
    (called : Called trace name request calls) {handle : Handle} {password : Password}
    (asked : request.endpoint = .everyone (.ok (.login handle password))) {own : Past}
    (inside : ∀ entry ∈ own, entry.lift ∈ calls) {claims : Claims}
    (loggedIn : LoggedIn own handle password claims) : Verified trace name request claims.sub := by
  obtain ⟨credentials, instant, rfl, sub, -⟩ := loggedIn
  obtain ⟨read, read_mem, past, read_label⟩ := called _ (inside _ List.mem_cons_self)
  obtain ⟨verified, verified_mem, past', verified_label⟩ :=
    called _ (inside _ (List.mem_cons_of_mem _ List.mem_cons_self))
  have performed := sound read read_mem
  simp only [Discipline.Sound, read_label] at performed
  rcases performed.2 with ⟨-, ran⟩ | ⟨busy, -⟩
  · obtain ⟨answer, -⟩ := Prod.mk.inj (World.store_eq ran)
    obtain ⟨row, found, rfl⟩ := Option.map_eq_some_iff.mp (Except.ok.inj answer)
    obtain ⟨row_mem, spelled⟩ := Relational.find?_key_eq_some found
    rw [sub]
    exact ⟨handle, password, row.passwordHash, asked,
      ⟨read, read_mem, ⟨past, read_label⟩, row, row_mem, rfl, spelled, rfl⟩,
      verified, verified_mem, past', verified_label⟩
  · cases busy

end Classify

/-- A token is signed for the account that the request made or whose password it verified, or for
the caller whose password it changes. -/
theorem signs_cases {world : World} {first last : List (Moment (server secrets))}
    {signing : Moment (server secrets)} {stop : Config (server secrets)}
    (run : Run (Config.quiet world) (first ++ signing :: last) stop) {claims : Claims}
    {token : String} {name : Nat} {request : HttpRequest}
    (signs : Signs name request token claims signing) :
    SignedUp first name request claims.sub ∨ Verified first name request claims.sub ∨
      ∃ caller change, request.endpoint = .pending (.ok (.changePassword change)) ∧
        LetInBy first name request caller ∧ caller.id = claims.sub := by
  have sound := (tokenDiscipline secrets).sound run
  have sound_first : ∀ moment ∈ first, (tokenDiscipline secrets).Sound moment :=
    fun moment member => sound moment (List.mem_append_left _ member)
  have api_sound : ∀ moment ∈ first, (apiDiscipline secrets).Sound moment := fun moment member =>
    (apiDiscipline secrets).sound run moment (List.mem_append_left _ member)
  have this_sound := sound signing (by simp)
  obtain ⟨calls, label | label⟩ := signs
  · have called : Called first name request calls := run.called_before (by rw [label]; rfl)
    simp only [Discipline.Sound, label] at this_sound
    obtain ⟨⟨past, before, own, service, spells, rfl, ⟨may, -⟩, service_may⟩, -⟩ := this_sound
    obtain ⟨handle, password, rfl, loggedIn⟩ | ⟨id, change, rfl, sub⟩ := service_may.1
    · cases may.signing rfl with
      | login asked =>
          exact Or.inr (Or.inl (verified_of_loggedIn sound_first called asked
            (fun entry member => List.mem_append_right _ (List.mem_map_of_mem member)) loggedIn))
    · cases may.signing rfl with
      | @changePassword caller change asked checked =>
          have spells' : Layer.Spells services past before :=
            spells.mono fun _ _ _ answers => answers.1
          exact Or.inr (Or.inr ⟨caller, change, asked, letInBy_of_checked api_sound called
            (List.subset_append_left _ _) spells' checked, sub.symm⟩)
  · have called : Called first name request calls := run.called_before (by rw [label]; rfl)
    simp only [Discipline.Sound, label] at this_sound
    obtain ⟨⟨past, spells, may, own⟩, -⟩ := this_sound
    cases may.signing rfl with
    | signup asked =>
        exact Or.inl (signedUp_of_answered sound_first called asked spells (own claims rfl))

/-- If nobody but the server signs tokens, whoever a request is let in as, the token that it decoded
was signed earlier in the run: by the signup that made the account, by a login that verified its
stored password, or by a change of its password let in on a token of which the same holds. -/
theorem caller_rooted {world : World} {trace : List (Moment (server secrets))}
    {stop : Config (server secrets)} (run : Run (Config.quiet world) trace stop)
    (unforged : Unforged trace) {name : Nat} {request : HttpRequest} {caller : Caller}
    (letIn : LetInBy trace name request caller) :
    ∃ before token claims, LetInOn trace before name request caller token claims ∧
      Rooted before token claims := by
  -- By the length of the run: a token is signed before it is decoded.
  induction length : trace.length using Nat.strong_induction_on
    generalizing trace stop name request caller with
  | h steps ih =>
      obtain ⟨claims, own, ⟨decoding, decoding_mem, token, past, bears, decodes⟩, found⟩ := letIn
      obtain ⟨before, after, rfl⟩ := List.append_of_mem decoding_mem
      obtain ⟨signing, signing_mem, signed⟩ :=
        unforged.signed (show decodedToken decoding = some (String.ofList token, claims) by
          rw [decodedToken, decodes])
      refine ⟨before, String.ofList token, claims,
        ⟨⟨token, bears, rfl⟩, ⟨decoding, after, past, rfl, decodes⟩, own, found⟩, ?_⟩
      obtain ⟨signer, signs_in, signs⟩ := signedToken_eq_some signed
      obtain ⟨first, between, rfl⟩ := List.append_of_mem signing_mem
      rw [List.append_assoc, List.cons_append] at run unforged
      rcases signs_cases run signs with
        signedUp | verified | ⟨changer, change, asked, letIn', same⟩
      · exact .signedUp rfl signs signedUp
      · exact .loggedIn rfl signs verified
      · obtain ⟨there, run_first, -⟩ := run.split
        have shorter : first.length < steps := by
          rw [← length, List.append_assoc, List.length_append, List.cons_append, List.length_cons]
          omega
        obtain ⟨earlier, presented, known, letInOn, rooted⟩ :=
          ih first.length shorter run_first unforged.of_append letIn' rfl
        exact .changed rfl signs asked letInOn same rooted

namespace HttpRequest

/-- The player 1 signs up, changes the password a second later, and takes another handle. -/
def replaced : List (serverScript .letters).Command :=
  signup 'm' rfl 1 ++ [.drift { clock := 3000000000 }] ++
    alone 10 (keyed (some "Bearer pss") (.pending (.ok (.changePassword
      ⟨⟨List.replicate 9 'm', by simp, by simp⟩, ⟨List.replicate 9 'n', by simp, by simp⟩⟩)))) 0 ++
    alone 4 (keyed (some "Bearer psss") (.own (.ok (.changeHandle
      ⟨['n', 'n', 'n'], rfl, Handle.triple_long 'n', Handle.triple_short 'n'⟩)))) 0

end HttpRequest

set_option maxRecDepth 10000 in
/-- The rename of a player goes back to the change of the password, and so to the signup. -/
theorem caller_rooted_rename :
    ∃ (trace : List (Moment (server .letters))) (stop : Config (server .letters)) (name : Nat)
      (request : HttpRequest) (caller : Caller),
      Run (Config.quiet (World.initial 2000000000)) trace stop ∧ Unforged trace ∧
        LetInBy trace name request caller ∧
        ∃ before token claims, LetInOn trace before name request caller token claims ∧
          Rooted before token claims := by
  obtain ⟨trace, stop, run, found⟩ := (serverScript .letters).exists_run
    (Config.quiet (World.initial 2000000000)) HttpRequest.replaced
    (fun trace _ => decide (Unforged trace) && trace.any fun moment => decide (Renames moment))
    (by decide +kernel)
  obtain ⟨unforged, renames⟩ := (Bool.and_eq_true _ _).mp found
  have unforged := of_decide_eq_true unforged
  obtain ⟨moment, member, renames⟩ := List.any_eq_true.mp renames
  obtain ⟨name, request, calls, id, handle, answer, label, closed⟩ :=
    (of_decide_eq_true renames).label
  have sound := (apiDiscipline .letters).sound run
  have this_sound := sound moment member
  obtain ⟨first, last, rfl⟩ := List.append_of_mem member
  have called : Called first name request calls := run.called_before (by rw [label]; rfl)
  simp only [Discipline.Sound, label] at this_sound
  obtain ⟨-, opened | check | ⟨caller, letIn, -⟩⟩ := call_authorized
    (fun moment member => sound moment (List.mem_append_left _ member)) called this_sound.1
  · rw [closed] at opened
    cases opened
  · obtain ⟨token, -, impossible | ⟨claims, -, impossible⟩⟩ := check <;> cases impossible
  · obtain ⟨there, run_first, -⟩ := run.split
    exact ⟨first, there, name, request, caller, run_first, unforged.of_append, letIn,
      caller_rooted run_first unforged.of_append letIn⟩

end LanBunker
