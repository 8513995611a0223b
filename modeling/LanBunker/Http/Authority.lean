import LanBunker.Accounts.Credentials
import LanBunker.Http.Confined
import LanBunker.Http.Grants

/-!
# Who changes what

Over any run of a server: a call behind a token comes after the check of that token by the same
request, and every change of the database is one that the checked caller may make.
-/

namespace LanBunker

open Interleaving

variable {secrets : Secrets}

/-- What a route asks of its caller. -/
def Endpoint.Permits (caller : Caller) : Endpoint → Prop
  | .health _ | .everyone _ | .pending _ => True
  | .own _ => caller.mustChangePassword = false
  | .admin _ => caller.mustChangePassword = false ∧ caller.role = .admin

/-- The routes without a token. -/
def Endpoint.isPublic : Endpoint → Bool
  | .health _ | .everyone _ => true
  | _ => false

/-- A route behind a token is behind the key. -/
theorem Endpoint.isOpen_of_not_public {endpoint : Endpoint} (closed : endpoint.isPublic = false) :
    endpoint.isOpen = false := by
  cases endpoint with
  | health route => cases closed
  | everyone input => cases closed
  | _ => rfl

/-- A step of a request that decoded the token it came with. -/
def Decoded (name : Nat) (request : HttpRequest) (claims : Claims)
    (moment : Moment (server secrets)) : Prop :=
  ∃ token past, bearer request.authorization = .ok token ∧
    moment.label =
      .call name request past (.inl (.crypto (.decode (String.ofList token)))) (some claims)

/-- A step of a request that found the row of its caller: the role and the flag it has, and no
password change after the token. -/
def Found (name : Nat) (request : HttpRequest) (claims : Claims) (caller : Caller)
    (moment : Moment (server secrets)) : Prop :=
  (∃ past answer,
    moment.label =
      .call name request past (.inl (.store (.players (.access caller.id)))) answer) ∧
    ∃ row ∈ moment.before.db.players, row.id = caller.id ∧ row.role = caller.role ∧
      row.mustChangePassword = caller.mustChangePassword ∧ row.credentialsChangedAt ≤ claims.iat

/-- Two steps of one request let its caller in. -/
def LetInBy (trace : List (Moment (server secrets))) (name : Nat) (request : HttpRequest)
    (caller : Caller) : Prop :=
  ∃ claims, claims.sub = caller.id ∧ (∃ moment ∈ trace, Decoded name request claims moment) ∧
    ∃ moment ∈ trace, Found name request claims caller moment

/-- The check of a caller, operation by operation: the token of the header is decoded, and the row
of the player that it names is read. -/
def IsCheckOp (request : HttpRequest) (calls : History (server secrets).Op (server secrets).Ans)
    (op : (server secrets).Op) : Prop :=
  ∃ token, bearer request.authorization = .ok token ∧
    (op = .inl (.crypto (.decode (String.ofList token))) ∨
      ∃ claims : Claims, ⟨.inl (.crypto (.decode (String.ofList token))), some claims⟩ ∈ calls ∧
        op = .inl (.store (.players (.access claims.sub))))

/-! ## A call after the check -/

theorem access_found {world after : World} {id : PlayerId} {stored : StoredAccess}
    (performed : World.Exec (.store (.players (.access id))) world (.ok (some stored)) after) :
    ∃ row, world.db.player? id = some row ∧
      stored = ⟨id, row.role, row.mustChangePassword, row.credentialsChangedAt⟩ := by
  rcases performed with ⟨-, ran⟩ | ⟨busy, -⟩
  · obtain ⟨answer, -⟩ := Prod.mk.inj (World.store_eq ran)
    obtain ⟨row, found, same⟩ := Option.map_eq_some_iff.mp (Except.ok.inj answer)
    exact ⟨row, found, same.symm⟩
  · cases busy

/-- What the check answered was decoded and read. -/
theorem letInBy_of_checked {trace : List (Moment (server secrets))}
    (sound : ∀ moment ∈ trace, (apiDiscipline secrets).Sound moment) {name : Nat}
    {request : HttpRequest} {past : Made} {before calls : History (server secrets).Op _}
    (called : Called trace name request calls) (inside : before ⊆ calls)
    (spells : Layer.Spells services past before) {caller : Caller}
    (checked : Checked request.authorization past caller) :
    LetInBy trace name request caller := by
  obtain ⟨token, later, bears, rfl⟩ := checked
  obtain ⟨own, answers, own_mem⟩ := spells.answered List.mem_cons_self
  obtain ⟨claims, stored, rfl, not_stale, rfl⟩ := answers
  obtain ⟨decoded, decoded_mem, past, decoded_label⟩ :=
    called _ (inside (own_mem _ List.mem_cons_self))
  obtain ⟨read, read_mem, past', read_label⟩ :=
    called _ (inside (own_mem _ (List.mem_cons_of_mem _ List.mem_cons_self)))
  have performed := sound read read_mem
  simp only [Discipline.Sound, read_label] at performed
  obtain ⟨row, row_there, shown⟩ := access_found performed.2
  obtain ⟨row_mem, row_id⟩ := Database.player?_some row_there
  subst shown
  exact ⟨claims, rfl, ⟨decoded, decoded_mem, token, past, bears, decoded_label⟩, read, read_mem,
    ⟨past', _, read_label⟩, row, row_mem, row_id, rfl, rfl, not_stale⟩

/-! ## Every call -/

/-- The request of a call that is not part of the check of its caller. -/
theorem authorized_may {trace : List (Moment (server secrets))}
    (sound : ∀ moment ∈ trace, (apiDiscipline secrets).Sound moment) {name : Nat}
    {request : HttpRequest} {past : Made} {before calls : History (server secrets).Op _}
    (called : Called trace name request calls) (inside : before ⊆ calls)
    (spells : Layer.Spells services past before) {call : HandlerCall}
    (may : request.May secrets past call) :
    (request.endpoint.isOpen || secrets.admits request.apiKey) ∧
      (request.endpoint.isPublic ∨ IsCheck request.authorization past call ∨
        ∃ caller, LetInBy trace name request caller ∧ request.endpoint.Permits caller) := by
  obtain ⟨admitted, may⟩ := may
  refine ⟨admitted, ?_⟩
  cases endpoint : request.endpoint with
  | health route => exact Or.inl rfl
  | everyone input => exact Or.inl rfl
  | pending input =>
      rw [endpoint] at may
      refine Or.inr (may.imp_right ?_)
      rintro ⟨caller, route, passed, grants⟩
      exact ⟨caller, letInBy_of_checked sound called inside spells passed.checked, trivial⟩
  | own input =>
      rw [endpoint] at may
      refine Or.inr (may.imp_right ?_)
      rintro ⟨caller, route, passed, settled, -⟩
      exact ⟨caller, letInBy_of_checked sound called inside spells passed.checked, settled⟩
  | admin input =>
      rw [endpoint] at may
      refine Or.inr (may.imp_right ?_)
      rintro ⟨caller, route, passed, settled, admin, -⟩
      exact ⟨caller, letInBy_of_checked sound called inside spells passed.checked, settled, admin⟩

/-- The call of a request, after the calls that a trace holds. -/
theorem call_authorized {trace : List (Moment (server secrets))}
    (sound : ∀ moment ∈ trace, (apiDiscipline secrets).Sound moment) {name : Nat}
    {request : HttpRequest} {calls : History (server secrets).Op (server secrets).Ans}
    (called : Called trace name request calls) {op : (server secrets).Op}
    (may : (apiDiscipline secrets).may request calls op) :
    (request.endpoint.isOpen || secrets.admits request.apiKey) ∧
      (request.endpoint.isPublic ∨ IsCheckOp request calls op ∨
        ∃ caller, LetInBy trace name request caller ∧ request.endpoint.Permits caller) := by
  cases op with
  | inr extra =>
      obtain ⟨past, spells, may⟩ := may
      obtain ⟨admitted, allowed⟩ := authorized_may sound called (List.Subset.refl _) spells may
      refine ⟨admitted, allowed.imp_right (Or.imp_left ?_)⟩
      rintro ⟨-, token, -, impossible⟩
      cases impossible
  | inl op =>
      obtain ⟨past, before, own, service, spells, rfl, may, service_may⟩ := may
      obtain ⟨admitted, allowed⟩ :=
        authorized_may sound called (List.subset_append_left _ _) spells may
      refine ⟨admitted, allowed.imp_right (Or.imp_left ?_)⟩
      rintro ⟨-, token, bears, check⟩
      obtain rfl := Sum.inl.inj check
      refine ⟨token, bears, service_may.2.imp (congrArg Sum.inl) ?_⟩
      rintro ⟨id, rfl⟩
      obtain ⟨_, claims, same, rfl, rfl⟩ := service_may.1
      obtain rfl := Request.authenticate.inj same
      exact ⟨claims, List.mem_append_right _ List.mem_cons_self, rfl⟩

/-- Where a key is set, `/api` calls nothing without a header of its digest.  Every call of a
request to a route behind a token, reads included, is part of the check of its caller or comes
after it. -/
theorem calls_authorized {world : World} {first last : List (Moment (server secrets))}
    {moment : Moment (server secrets)} {stop : Config (server secrets)}
    (run : Run (Config.quiet world) (first ++ moment :: last) stop) {name : Nat}
    {request : HttpRequest} {calls : History (server secrets).Op (server secrets).Ans}
    {op : (server secrets).Op} {answer : (server secrets).Ans op}
    (label : moment.label = .call name request calls op answer) :
    (request.endpoint.isOpen = false → ∀ key, secrets.apiKey = some key →
      ∃ header, request.apiKey = some header ∧
        secrets.digest header = secrets.digest key.chars) ∧
      (request.endpoint.isPublic ∨ IsCheckOp request calls op ∨
        ∃ caller, LetInBy first name request caller ∧ request.endpoint.Permits caller) := by
  have sound := (apiDiscipline secrets).sound run
  have called : Called first name request calls := run.called_before (by rw [label]; rfl)
  have this_sound := sound moment (by simp)
  simp only [Discipline.Sound, label] at this_sound
  obtain ⟨admitted, allowed⟩ := call_authorized
    (fun moment member => sound moment (List.mem_append_left _ member)) called this_sound.1
  refine ⟨fun closed => ?_, allowed⟩
  rw [closed, Bool.false_or] at admitted
  exact Secrets.admits_iff.mp admitted

/-- A step of a request behind a token that calls a rename. -/
def Renames (moment : Moment (server secrets)) : Prop :=
  match moment.label with
  | .call _ request _ (.inr (.rename _ _)) _ => request.endpoint.isPublic = false
  | _ => False

instance (moment : Moment (server secrets)) : Decidable (Renames moment) := by
  unfold Renames
  split <;> infer_instance

theorem Renames.label {moment : Moment (server secrets)} (renames : Renames moment) :
    ∃ name request calls id handle answer,
      moment.label = .call name request calls (.inr (.rename id handle)) answer ∧
      request.endpoint.isPublic = false := by
  unfold Renames at renames
  split at renames
  · rename_i name request calls id handle answer label
    exact ⟨name, request, calls, id, handle, answer, label, renames⟩
  · exact renames.elim

set_option maxRecDepth 10000 in
/-- The rename of a player came with the key, and after the check of the player's token. -/
theorem calls_authorized_rename :
    ∃ (trace : List (Moment (server .letters))) (stop : Config (server .letters)),
      Run (Config.quiet (World.initial 2000000000)) trace stop ∧
      ∃ first moment last name request calls id handle answer header caller,
        trace = first ++ moment :: last ∧
        moment.label = .call name request calls (.inr (.rename id handle)) answer ∧
        request.apiKey = some header ∧
        Secrets.letters.digest header = Secrets.letters.digest (List.replicate 32 'k') ∧
        LetInBy first name request caller ∧
        request.endpoint.Permits caller := by
  obtain ⟨trace, stop, run, found⟩ := (serverScript .letters).exists_run
    (Config.quiet (World.initial 2000000000)) HttpRequest.renamed
    (fun trace _ => trace.any fun moment => decide (Renames moment)) (by decide +kernel)
  obtain ⟨moment, member, renames⟩ := List.any_eq_true.mp found
  obtain ⟨first, last, rfl⟩ := List.append_of_mem member
  obtain ⟨name, request, calls, id, handle, answer, label, closed⟩ :=
    (of_decide_eq_true renames).label
  obtain ⟨keyed, opened | check | ⟨caller, letIn, permits⟩⟩ := calls_authorized run label
  · rw [closed] at opened
    cases opened
  · obtain ⟨token, -, impossible | ⟨claims, -, impossible⟩⟩ := check <;> cases impossible
  · obtain ⟨header, sent, same⟩ := keyed (Endpoint.isOpen_of_not_public closed) _ rfl
    exact ⟨_, stop, run, first, moment, last, name, request, calls, id, handle, answer, header,
      caller, rfl, label, sent, same, letIn, permits⟩

/-! ## Every change -/

/-- A call of a request that came with the key. -/
structure Requested (moment : Moment (server secrets)) (name : Nat) (request : HttpRequest) :
    Prop where
  called : ∃ past op answer, moment.label = .call name request past op answer
  key : secrets.admits request.apiKey

/-- What a step that changed the database was, after the steps of a trace. -/
inductive Change (trace : List (Moment (server secrets))) (moment : Moment (server secrets)) :
    Prop where
  /-- The crew promoted a player with SQL. -/
  | promoted (id : PlayerId) (drift : moment.label = .drift)
      (after : moment.after = moment.before.promote id)
  | signedUp {name : Nat} {request : HttpRequest} {handle : Handle} {password : Password}
      {row : PlayerRow} (requested : Requested moment name request)
      (asked : request.endpoint = .everyone (.ok (.signup handle password)))
      (user : row.handle = handle ∧ row.role = .user)
      (new : ∀ other ∈ moment.before.db.players, other.id ≠ row.id)
      (after : moment.after.db =
        { moment.before.db with players := moment.before.db.players ++ [row] })
  | password {name : Nat} {request : HttpRequest} {caller : Caller} {change : PasswordChange}
      {passwordHash : String} {changedAt : Instant} (requested : Requested moment name request)
      (asked : request.endpoint = .pending (.ok (.changePassword change)))
      (letIn : LetInBy trace name request caller)
      (after : moment.after.db =
        { moment.before.db with
          players := moment.before.db.players.map fun row =>
            if row.id = caller.id then
              { row with
                passwordHash, mustChangePassword := false
                credentialsChangedAt := unixSeconds changedAt }
            else row })
  | own {name : Nat} {request : HttpRequest} {caller : Caller} {route : OwnRoute}
      (requested : Requested moment name request) (asked : request.endpoint = .own (.ok route))
      (letIn : LetInBy trace name request caller) (settled : caller.mustChangePassword = false)
      (confined : Confined caller.id moment.before.db moment.after.db)
  | admin {name : Nat} {request : HttpRequest} {caller : Caller} {route : AdminRoute}
      (requested : Requested moment name request) (asked : request.endpoint = .admin (.ok route))
      (letIn : LetInBy trace name request caller) (settled : caller.mustChangePassword = false)
      (admin : caller.role = .admin)

theorem drift_cases {world after : World} (drift : World.Drift world after) :
    after.db = world.db ∨ ∃ id, after = world.promote id := by
  cases drift with
  | clock clock => exact Or.inl rfl
  | promote id => exact Or.inr ⟨id, rfl⟩

/-- A request that writes nothing calls reads. -/
theorem Request.Touches.isRead {request : Request} {op : StorageOp}
    (touches : request.Touches (.store op)) (nothing : ∀ op, ¬ request.Writes op) :
    op.isRead := by
  cases request with
  | authenticate token =>
      rcases touches with impossible | ⟨id, same⟩
      · cases impossible
      · obtain rfl := Op.store.inj same
        rfl
  | _ => exact touches.resolve_right (nothing op)

theorem HandlerCall.isRead_writes {request : Request} (read : HandlerCall.isRead (.inl request)) :
    ∀ op, ¬ request.Writes op := by
  cases request <;> first | exact fun _ => id | cases read

theorem PendingRoute.changed {caller : Caller} {route : PendingRoute} {service : Request}
    {op : StorageOp} {db after : Database} {answer : Except StorageError op.Ans}
    (calls : route.Calls caller (.inl service)) (touches : service.Touches (.store op))
    (ran : op.method db = (answer, after)) (changed : after ≠ db) :
    ∃ change passwordHash changedAt, route = .changePassword change ∧
      after = { db with
        players := db.players.map fun row =>
          if row.id = caller.id then
            { row with
              passwordHash, mustChangePassword := false
              credentialsChangedAt := unixSeconds changedAt }
          else row } := by
  cases route with
  | me => exact calls.elim
  | changePassword change =>
      obtain rfl := Sum.inl.inj calls
      rcases touches with read | ⟨passwordHash, changedAt, rfl⟩
      · exact absurd ((congrArg Prod.snd ran).symm.trans (StorageOp.method_snd read db)) changed
      · rcases PlayerStorage.setPassword_cases ran with ⟨-, -, after_eq⟩ | ⟨same, -⟩
        · exact ⟨change, passwordHash, changedAt, rfl, after_eq⟩
        · exact absurd same changed

theorem OwnRoute.confined {caller : Caller} {route : OwnRoute} {service : Request}
    {op : StorageOp} {db after : Database} {answer : Except StorageError op.Ans}
    (calls : route.Calls caller (.inl service)) (touches : service.Touches (.store op))
    (ran : op.method db = (answer, after)) : Confined caller.id db after := by
  have unchanged : op.isRead → Confined caller.id db after := fun read =>
    .of_eq ((congrArg Prod.snd ran).symm.trans (StorageOp.method_snd read db))
  cases route with
  | register id skill =>
      obtain rfl := Sum.inl.inj calls
      rcases touches with read | ⟨entrant, guard, rfl, -, player⟩ | ⟨skill, guard, rfl⟩
      · exact unchanged read
      · exact player ▸ Confined.of_addEntrant ran
      · exact Confined.of_setSkill ran
  | retire id =>
      obtain rfl := Sum.inl.inj calls
      rcases touches with read | ⟨guard, rfl⟩
      · exact unchanged read
      · exact Confined.of_removeEntrantOf ran
  | checkIn code =>
      obtain rfl := Sum.inl.inj calls
      rcases touches with read | ⟨id, instant, draw, rfl⟩
      · exact unchanged read
      · exact Confined.of_checkIn ran
  | changeHandle handle => cases calls
  | myCycles query => exact calls.elim
  | myMatches query => exact calls.elim
  | registrations => exact calls.elim
  | checkins => exact calls.elim

section Changes

variable {trace : List (Moment (server secrets))} {moment : Moment (server secrets)}
  {name : Nat} {request : HttpRequest} {past : Made} {before calls : History (server secrets).Op _}

/-- A storage method that a service called for a handler. -/
theorem change_of_store (sound : ∀ moment ∈ trace, (apiDiscipline secrets).Sound moment)
    (called : Called trace name request calls) (inside : before ⊆ calls)
    (spells : Layer.Spells services past before) {service : Request}
    (may : request.May secrets past (.inl service)) {op : StorageOp}
    {answer : Except StorageError op.Ans}
    (label : moment.label = .call name request calls (.inl (.store op)) answer)
    (touches : service.Touches (.store op))
    (ran : op.method moment.before.db = (answer, moment.after.db))
    (changed : moment.after.db ≠ moment.before.db) : Change trace moment := by
  have not_read : ¬ op.isRead := fun read =>
    changed ((congrArg Prod.snd ran).symm.trans (StorageOp.method_snd read _))
  have not_reading : ¬ HandlerCall.isRead (.inl service) := fun read =>
    not_read (touches.isRead (HandlerCall.isRead_writes read))
  have not_check : ¬ IsCheck request.authorization past (.inl service) := by
    rintro ⟨-, token, -, check⟩
    obtain rfl := Sum.inl.inj check
    exact not_read (touches.isRead fun _ => id)
  obtain ⟨admitted, may⟩ := may
  have requested : request.endpoint.isOpen = false → Requested moment name request := fun closed =>
    ⟨⟨_, _, _, label⟩, by simpa [closed] using admitted⟩
  cases endpoint : request.endpoint with
  | health route =>
      rw [endpoint] at may
      cases may
  | everyone input =>
      rw [endpoint] at may requested
      obtain ⟨route, rfl, calls⟩ := may.resolve_left not_reading
      cases route with
      | signup handle password =>
          obtain impossible | ⟨passwordHash, same⟩ | impossible | ⟨claims, impossible⟩ := calls
          · cases impossible
          · obtain rfl := Sum.inl.inj same
            obtain ⟨id, createdAt, rfl⟩ := touches.resolve_left not_read
            rcases PlayerStorage.create_cases ran with same | ⟨new, after⟩
            · exact absurd same changed
            · exact .signedUp (requested rfl) endpoint ⟨rfl, rfl⟩ new after
          · cases impossible
          · cases impossible
      | login handle password =>
          obtain rfl := Sum.inl.inj calls
          exact absurd (touches.isRead fun _ => id) not_read
      | _ => exact calls.elim
  | pending input =>
      rw [endpoint] at may requested
      obtain ⟨caller, route, ⟨checked, rfl⟩, grants⟩ := may.resolve_left not_check
      obtain ⟨change, passwordHash, changedAt, rfl, after⟩ :=
        PendingRoute.changed (grants.resolve_left not_reading) touches ran changed
      exact .password (requested rfl) endpoint
        (letInBy_of_checked sound called inside spells checked) after
  | own input =>
      rw [endpoint] at may requested
      obtain ⟨caller, route, ⟨checked, rfl⟩, settled, grants⟩ := may.resolve_left not_check
      exact .own (requested rfl) endpoint (letInBy_of_checked sound called inside spells checked)
        settled (OwnRoute.confined (grants.resolve_left not_reading) touches ran)
  | admin input =>
      rw [endpoint] at may requested
      obtain ⟨caller, route, ⟨checked, rfl⟩, settled, admin, -⟩ := may.resolve_left not_check
      exact .admin (requested rfl) endpoint (letInBy_of_checked sound called inside spells checked)
        settled admin

/-- A rename that a handler called. -/
theorem change_of_rename (sound : ∀ moment ∈ trace, (apiDiscipline secrets).Sound moment)
    (called : Called trace name request calls) (spells : Layer.Spells services past calls)
    {id : PlayerId} {handle : Handle} (may : request.May secrets past (.inr (.rename id handle)))
    {answer : Except StorageError Renamed}
    (label : moment.label = .call name request calls (.inr (.rename id handle)) answer)
    (ran : PlayerStorage.rename id handle moment.before.db = (answer, moment.after.db)) :
    Change trace moment := by
  have not_check : ¬ IsCheck request.authorization past (.inr (.rename id handle)) := by
    rintro ⟨-, token, -, check⟩
    cases check
  obtain ⟨admitted, may⟩ := may
  have requested : request.endpoint.isOpen = false → Requested moment name request := fun closed =>
    ⟨⟨_, _, _, label⟩, by simpa [closed] using admitted⟩
  have inside : calls ⊆ calls := List.Subset.refl _
  cases endpoint : request.endpoint with
  | health route =>
      rw [endpoint] at may
      cases may
  | everyone input =>
      rw [endpoint] at may
      obtain ⟨route, -, calls⟩ := may.resolve_left Bool.false_ne_true
      cases route with
      | signup handle password =>
          obtain impossible | ⟨passwordHash, impossible⟩ | impossible | ⟨claims, impossible⟩ :=
            calls <;> cases impossible
      | login handle password => cases calls
      | _ => exact calls.elim
  | pending input =>
      rw [endpoint] at may
      obtain ⟨caller, route, -, grants⟩ := may.resolve_left not_check
      have calls := grants.resolve_left Bool.false_ne_true
      cases route with
      | me => exact calls.elim
      | changePassword change => cases calls
  | own input =>
      rw [endpoint] at may requested
      obtain ⟨caller, route, ⟨checked, rfl⟩, settled, grants⟩ := may.resolve_left not_check
      have calls := grants.resolve_left Bool.false_ne_true
      cases route with
      | changeHandle handle' =>
          obtain ⟨rfl, -⟩ := ApiOp.rename.inj (Sum.inr.inj calls)
          exact .own (requested rfl) endpoint
            (letInBy_of_checked sound called inside spells checked) settled
            (Confined.of_rename ran)
      | register id skill => cases calls
      | retire id => cases calls
      | checkIn code => cases calls
      | _ => exact calls.elim
  | admin input =>
      rw [endpoint] at may requested
      obtain ⟨caller, route, ⟨checked, rfl⟩, settled, admin, -⟩ := may.resolve_left not_check
      exact .admin (requested rfl) endpoint
        (letInBy_of_checked sound called inside spells checked) settled admin

end Changes

/-- Every step of a run that changes the database is a promotion by the crew, a signup, the change
of the caller's own password, what a caller with a settled password may do to their own rows, or the
work of an admin.  The caller was checked by the same request, earlier in the run. -/
theorem changes_authorized {world : World} {first last : List (Moment (server secrets))}
    {moment : Moment (server secrets)} {stop : Config (server secrets)}
    (run : Run (Config.quiet world) (first ++ moment :: last) stop)
    (changed : moment.after.db ≠ moment.before.db) : Change first moment := by
  have sound := (apiDiscipline secrets).sound run
  have sound_first : ∀ moment ∈ first, (apiDiscipline secrets).Sound moment :=
    fun moment member => sound moment (List.mem_append_left _ member)
  have called : ∀ {name request calls}, moment.label.caller = some (name, request, calls) →
      Called first name request calls := run.called_before
  have this_sound := sound moment (by simp)
  have unchanged : moment.after ≠ moment.before := fun same => changed (congrArg World.db same)
  cases label : moment.label with
  | arrive name request =>
      simp only [Discipline.Sound, label] at this_sound
      exact absurd this_sound unchanged
  | reply name request calls response =>
      simp only [Discipline.Sound, label] at this_sound
      exact absurd this_sound.1 unchanged
  | drop name request =>
      simp only [Discipline.Sound, label] at this_sound
      exact absurd this_sound unchanged
  | drift =>
      simp only [Discipline.Sound, label] at this_sound
      rcases drift_cases this_sound with same | ⟨id, after⟩
      · exact absurd same changed
      · exact .promoted id label after
  | call name request calls op answer =>
      simp only [Discipline.Sound, label] at this_sound
      obtain ⟨may, exec⟩ := this_sound
      have called := called (by rw [label]; rfl)
      cases op with
      | inl op =>
          obtain ⟨past, before, own, service, spells, rfl, may, service_may⟩ := may
          cases op with
          | store op =>
              rcases exec with ⟨-, stored⟩ | ⟨-, same⟩
              · exact change_of_store sound_first called (List.subset_append_left _ _) spells may
                  label service_may.2 (World.store_eq stored) changed
              · exact absurd same unchanged
          | now => exact absurd exec.2 unchanged
          | draw kind => exact absurd exec unchanged
          | drawCode => exact absurd exec unchanged
          | shuffle entrants => exact absurd exec.2 unchanged
          | crypto op => exact absurd exec unchanged
      | inr extra =>
          obtain ⟨past, spells, may⟩ := may
          cases extra with
          | rename id handle =>
              rcases exec with ⟨db, ran, after⟩ | ⟨-, same⟩
              · refine change_of_rename sound_first called spells may label ?_
                rw [after]
                exact ran
              · exact absurd same unchanged
          | read op =>
              rcases exec with ⟨db, ran, after⟩ | ⟨-, same⟩
              · refine absurd ?_ changed
                rw [after]
                exact (congrArg Prod.snd ran).symm.trans (op.method_snd _)
              · exact absurd same unchanged
          | now => exact absurd exec.2 unchanged
          | hash password => exact absurd exec unchanged
          | encode claims => exact absurd exec unchanged

set_option maxRecDepth 10000 in
/-- The rename of a player changes the database, as the caller may. -/
theorem changes_authorized_rename :
    ∃ (trace : List (Moment (server .letters))) (stop : Config (server .letters)),
      Run (Config.quiet (World.initial 2000000000)) trace stop ∧
      ∃ first moment last, trace = first ++ moment :: last ∧
        Renames moment ∧ moment.after.db ≠ moment.before.db ∧
        Change first moment := by
  obtain ⟨trace, stop, run, found⟩ := (serverScript .letters).exists_run
    (Config.quiet (World.initial 2000000000)) HttpRequest.renamed
    (fun trace _ => trace.any fun moment =>
      decide (Renames moment ∧ moment.after.db ≠ moment.before.db)) (by decide +kernel)
  obtain ⟨moment, member, tested⟩ := List.any_eq_true.mp found
  obtain ⟨renames, changed⟩ := of_decide_eq_true tested
  obtain ⟨first, last, rfl⟩ := List.append_of_mem member
  exact ⟨_, stop, run, first, moment, last, rfl, renames, changed, changes_authorized run changed⟩

end LanBunker
