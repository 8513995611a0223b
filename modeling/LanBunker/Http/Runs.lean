import LanBunker.Accounts.Moves
import LanBunker.Http.Authority

/-!
# Runs of a server

A run of a server is a run of the services, call by call, where a change of a handle just happens.
A caller who loses the account, the token or what a route asks for loses the route for every request
that comes after.
-/

namespace LanBunker

open Interleaving PlayerStorage

variable {secrets : Secrets}

/-! ## The services below -/

/-- A step of a request that calls a rename. -/
def CallsRename (moment : Moment (server secrets)) : Prop :=
  ∃ name request past id handle answer,
    moment.label = .call name request past (.inr (.rename id handle)) answer

/-- The services, where a player may get another handle beside them. -/
abbrev renamable : System :=
  { bunker with
    drift := fun world after =>
      World.Drift world after ∨
        ∃ id handle answer, ApiOp.Perform (.rename id handle) world answer after }

/-- What the API does without the services leaves the world alone, a rename apart. -/
theorem ApiOp.after_eq {op : ApiOp} {world after : World} {answer : op.Ans}
    (performed : op.Perform world answer after) (other : ∀ id handle, op ≠ .rename id handle) :
    after = world := by
  cases op with
  | read op =>
      rcases performed with ⟨db, ran, rfl⟩ | ⟨-, same⟩
      · obtain rfl := (congrArg Prod.snd ran).symm.trans (op.method_snd world.db)
        rfl
      · exact same
  | rename id handle => exact absurd rfl (other id handle)
  | now => exact performed.2
  | hash password => exact performed
  | encode claims => exact performed

/-- The services may do by themselves what a step of the API does without them, if they may rename
a player as the step does. -/
theorem covered_rebased {drift : World → World → Prop} {moment : Moment (server secrets)}
    (sound : (apiDiscipline secrets).Sound moment)
    (drifts : ∀ world after, World.Drift world after → drift world after)
    (renames : CallsRename moment →
      moment.after = moment.before ∨ drift moment.before moment.after) :
    ((apiLayer secrets).rebased drift).Covered moment := by
  obtain ⟨before, label, after⟩ := moment
  cases label with
  | call name request past op answer =>
      cases op with
      | inl op => trivial
      | inr extra =>
          by_cases rename : ∃ id handle, extra = .rename id handle
          · obtain ⟨id, handle, rfl⟩ := rename
            exact renames ⟨name, request, past, id, handle, answer, rfl⟩
          · exact Or.inl (ApiOp.after_eq sound.2 fun id handle same => rename ⟨id, handle, same⟩)
  | drift => exact Or.inr (drifts _ _ sound)
  | arrive name request => trivial
  | reply name request past response => trivial
  | drop name request => trivial

/-- Every run of a server is a run of the services, call by call: the same operations with the same
answers at the same states, where a rename just happens.  If no rename changes anything it is a run
of the services alone.  The replies of the two are not related, nor the requests that a call is
part of. -/
theorem server_mirrored {world : World} {trace : List (Moment (server secrets))}
    {stop : Config (server secrets)} (run : Run (Config.quiet world) trace stop) :
    (∃ lower stop', Run (Config.quiet world : Config renamable) lower stop' ∧
      stop'.state = stop.state ∧
        ((apiLayer secrets).rebased renamable.drift).Mirrors trace lower) ∧
    ((∀ moment ∈ trace, CallsRename moment → moment.after = moment.before) →
      ∃ lower stop', Run (Config.quiet world : Config bunker) lower stop' ∧
        stop'.state = stop.state ∧ (apiLayer secrets).Mirrors trace lower) := by
  have sound := (apiDiscipline secrets).sound run
  refine ⟨?_, fun unrenamed => ?_⟩
  · refine ((apiLayer secrets).rebased renamable.drift).run_mirrored run fun moment member => ?_
    refine covered_rebased (sound moment member) (fun _ _ => Or.inl) ?_
    rintro ⟨name, request, past, id, handle, answer, label⟩
    have performed := sound moment member
    simp only [Discipline.Sound, label] at performed
    exact Or.inr (Or.inr ⟨id, handle, answer, performed.2⟩)
  · refine (apiLayer secrets).run_mirrored run fun moment member => ?_
    exact covered_rebased (sound moment member) (fun _ _ => id) fun renames =>
      Or.inl (unrenamed moment member renames)

set_option maxRecDepth 10000 in
/-- A run with a rename is a run of the services with that rename beside them. -/
theorem server_mirrored_rename :
    ∃ (trace : List (Moment (server .letters))) (stop : Config (server .letters)),
      Run (Config.quiet (World.initial 2000000000)) trace stop ∧
      (∃ moment ∈ trace, Renames moment ∧ moment.after.db ≠ moment.before.db) ∧
      ∃ lower stop', Run (Config.quiet (World.initial 2000000000) : Config renamable) lower stop' ∧
        stop'.state = stop.state ∧
          ((apiLayer .letters).rebased renamable.drift).Mirrors trace lower := by
  obtain ⟨trace, stop, run, found⟩ := (serverScript .letters).exists_run
    (Config.quiet (World.initial 2000000000)) HttpRequest.renamed
    (fun trace _ => trace.any fun moment =>
      decide (Renames moment ∧ moment.after.db ≠ moment.before.db)) (by decide +kernel)
  obtain ⟨moment, member, tested⟩ := List.any_eq_true.mp found
  exact ⟨trace, stop, run, ⟨moment, member, of_decide_eq_true tested⟩, (server_mirrored run).1⟩

/-- A step of a server changes nothing, is a step of the services, or renames a player. -/
theorem server_step {moment : Moment (server secrets)}
    (sound : (apiDiscipline secrets).Sound moment) :
    moment.after = moment.before ∨
      (∃ lower : Moment bunker, discipline.Sound lower ∧ lower.before = moment.before ∧
        lower.after = moment.after) ∨
      ∃ id handle answer db, rename id handle moment.before.db = (answer, db) ∧
        moment.after = { moment.before with db } := by
  obtain ⟨before, label, after⟩ := moment
  cases label with
  | call name request past op answer =>
      obtain ⟨may, performed⟩ := sound
      cases op with
      | inl op =>
          obtain ⟨-, -, own, service, -, -, -, service_may⟩ := may
          exact Or.inr (Or.inl
            ⟨⟨before, .call name service own op answer, after⟩, ⟨service_may.1, performed⟩, rfl,
              rfl⟩)
      | inr extra =>
          by_cases renames : ∃ id handle, extra = .rename id handle
          · obtain ⟨id, handle, rfl⟩ := renames
            rcases performed with ⟨db, ran, after_eq⟩ | ⟨-, same⟩
            · exact Or.inr (Or.inr ⟨id, handle, answer, db, ran, after_eq⟩)
            · exact Or.inl same
          · exact Or.inl (ApiOp.after_eq performed fun id handle same => renames ⟨id, handle, same⟩)
  | drift => exact Or.inr (Or.inl ⟨⟨before, .drift, after⟩, sound, rfl, rfl⟩)
  | arrive name request => exact Or.inl sound
  | reply name request past response => exact Or.inl sound.1
  | drop name request => exact Or.inl sound

/-- What the steps of the services and a rename keep holds along every run of a server. -/
theorem server_invariant {holds : World → Prop} {world : World}
    {trace : List (Moment (server secrets))} {stop : Config (server secrets)}
    (run : Run (Config.quiet world) trace stop) (initial : holds world)
    (services : ∀ lower : Moment bunker, discipline.Sound lower → holds lower.before →
      holds lower.after)
    (renames : ∀ {world : World} {id handle answer db}, holds world →
      rename id handle world.db = (answer, db) → holds { world with db }) :
    holds stop.state ∧ ∀ moment ∈ trace, holds moment.before ∧ holds moment.after := by
  refine run.invariant initial fun moment member held => ?_
  rcases server_step ((apiDiscipline secrets).sound run moment member) with
    same | ⟨lower, sound, before, after⟩ | ⟨id, handle, answer, db, ran, after⟩
  · exact same ▸ held
  · exact after ▸ services lower sound (before ▸ held)
  · exact after ▸ renames held ran

/-! ## What a caller loses -/

/-- The name of a request that arrives. -/
def arrivedName (moment : Moment (server secrets)) : Option Nat :=
  match moment.label with
  | .arrive name _ => some name
  | _ => none

/-- The claims of a token that a request decodes. -/
def decodedBy (name : Nat) (moment : Moment (server secrets)) : Option Claims :=
  match moment.label with
  | .call name' _ _ (.inl (.crypto (.decode _))) answer => if name' = name then answer else none
  | _ => none

theorem Decoded.decodedBy {name : Nat} {request : HttpRequest} {claims : Claims}
    {moment : Moment (server secrets)} (decoded : Decoded name request claims moment) :
    decodedBy name moment = some claims := by
  obtain ⟨token, past, -, label⟩ := decoded
  simp only [LanBunker.decodedBy, label, if_true]

/-- In every state of a trace, the account of the token of a request is gone, or its password
changed in a later second than the token's, or it lacks what the endpoint asks for.  A change in the
second of the token revokes nothing, and a player without the role or with a temporary password
lacks nothing on the routes that ask for neither. -/
def Revoked (trace : List (Moment (server secrets))) (name : Nat) (endpoint : Endpoint) : Prop :=
  ∀ decoded ∈ trace, ∀ claims ∈ decodedBy name decoded, ∀ moment ∈ trace,
    ∀ row ∈ moment.before.db.players, row.id = claims.sub →
      claims.iat < row.credentialsChangedAt ∨
        ¬ endpoint.Permits ⟨row.id, row.role, row.mustChangePassword⟩

/-- The check that lets a request in happened after it arrived. -/
theorem letIn_since_arrival {world : World}
    {first middle last : List (Moment (server secrets))} {moment : Moment (server secrets)}
    {stop : Config (server secrets)}
    (run : Run (Config.quiet world) (first ++ middle ++ moment :: last) stop) {name : Nat}
    {request : HttpRequest} {calls : History (server secrets).Op (server secrets).Ans}
    {op : (server secrets).Op} {answer : (server secrets).Ans op}
    (label : moment.label = .call name request calls op answer)
    (arrived : ∃ arrival ∈ middle, arrivedName arrival = some name) :
    request.endpoint.isPublic ∨ IsCheckOp request calls op ∨
      ∃ caller, LetInBy middle name request caller ∧ request.endpoint.Permits caller := by
  have sound := (apiDiscipline secrets).sound run
  have sound_middle : ∀ moment ∈ middle, (apiDiscipline secrets).Sound moment :=
    fun moment member => sound moment (by simp [member])
  obtain ⟨here, _, front, step, -⟩ := run.at_moment
  obtain ⟨there, before, between⟩ := front.split
  obtain ⟨arrival, arrival_mem, named⟩ := arrived
  have given : there.arrivals ≤ name := by
    unfold arrivedName at named
    split at named
    · rename_i arrives
      obtain rfl := Option.some.inj named
      exact between.arrived arrival_mem arrives
    · cases named
  have called : Called middle name request calls :=
    between.caller_called (before.named (by simp [Config.Named, Config.quiet])) step
      (by rw [label]; rfl) given
  have this_sound := sound moment (by simp)
  simp only [Discipline.Sound, label] at this_sound
  exact (call_authorized sound_middle called this_sound.1).2

/-- A request that arrives after the account of its token lost what the endpoint asks for does
nothing but the check, whatever runs beside it and whatever was true before it arrived. -/
theorem revoked_at_once {world : World} {first middle last : List (Moment (server secrets))}
    {moment : Moment (server secrets)} {stop : Config (server secrets)}
    (run : Run (Config.quiet world) (first ++ middle ++ moment :: last) stop) {name : Nat}
    {request : HttpRequest} {calls : History (server secrets).Op (server secrets).Ans}
    {op : (server secrets).Op} {answer : (server secrets).Ans op}
    (label : moment.label = .call name request calls op answer)
    (arrived : ∃ arrival ∈ middle, arrivedName arrival = some name)
    (behind_token : request.endpoint.isPublic = false)
    (revoked : Revoked middle name request.endpoint) : IsCheckOp request calls op := by
  rcases letIn_since_arrival run label arrived with
    opened | check | ⟨caller, ⟨claims, own, ⟨decoded, decoded_mem, decodes⟩, found⟩, permits⟩
  · rw [behind_token] at opened
    cases opened
  · exact check
  · obtain ⟨read, read_mem, -, row, row_mem, row_id, role, mustChange, fresh⟩ := found
    rcases revoked decoded decoded_mem claims decodes.decodedBy read read_mem row row_mem
      (row_id.trans own.symm) with stale | refused
    · exact absurd fresh (Int.not_le.mpr stale)
    · rw [row_id, role, mustChange] at refused
      exact absurd permits refused

instance (caller : Caller) (endpoint : Endpoint) : Decidable (endpoint.Permits caller) := by
  unfold Endpoint.Permits
  split <;> infer_instance

instance (trace : List (Moment (server secrets))) (name : Nat) (endpoint : Endpoint) :
    Decidable (Revoked trace name endpoint) := by
  unfold Revoked
  infer_instance

/-- A call of a request that arrived in a trace and decoded its token there, when the account of
the token had lost what the request needs. -/
def callsRevoked (middle : List (Moment (server secrets))) (moment : Moment (server secrets)) :
    Bool :=
  match moment.label with
  | .call name request _ _ _ =>
      (middle.any fun arrival => arrivedName arrival = some name) &&
        (middle.any fun decoded => (decodedBy name decoded).isSome) &&
          !request.endpoint.isPublic && decide (Revoked middle name request.endpoint)
  | _ => false

theorem callsRevoked_label {middle : List (Moment (server secrets))}
    {moment : Moment (server secrets)} (revokes : callsRevoked middle moment) :
    ∃ name request calls op answer,
      moment.label = .call name request calls op answer ∧
        (∃ arrival ∈ middle, arrivedName arrival = some name) ∧
          (∃ decoded ∈ middle, (decodedBy name decoded).isSome) ∧
            request.endpoint.isPublic = false ∧ Revoked middle name request.endpoint := by
  unfold callsRevoked at revokes
  split at revokes
  · rename_i name request calls op answer label
    simp only [Bool.and_eq_true, List.any_eq_true, decide_eq_true_eq, Bool.not_eq_true'] at revokes
    obtain ⟨⟨⟨arrived, decoded⟩, behind_token⟩, revoked⟩ := revokes
    exact ⟨name, request, calls, op, answer, label, arrived, decoded, behind_token, revoked⟩
  · cases revokes

set_option maxRecDepth 10000 in
/-- The next request of a demoted admin only checks its caller. -/
theorem revoked_at_once_demoted :
    ∃ (first middle : List (Moment (server .letters))) (moment : Moment (server .letters))
      (stop : Config (server .letters)) (name : Nat) (request : HttpRequest)
      (calls : History (server .letters).Op (server .letters).Ans) (op : (server .letters).Op)
      (answer : (server .letters).Ans op),
      Run (Config.quiet (World.initial 2000000000)) (first ++ middle ++ [moment]) stop ∧
        moment.label = .call name request calls op answer ∧
        (∃ decoded ∈ middle, (decodedBy name decoded).isSome) ∧
        IsCheckOp request calls op := by
  obtain ⟨trace, stop, run, found⟩ := (serverScript .letters).exists_run
    (Config.quiet (World.initial 2000000000)) HttpRequest.demoted
    (fun trace _ => trace.getLast?.any (callsRevoked (trace.dropLast.drop 23)))
    (by decide +kernel)
  obtain ⟨moment, last, tested⟩ := (Option.any_eq_true _ _).mp found
  obtain ⟨first, middle, rfl, revokes⟩ : ∃ first middle, trace = first ++ middle ++ [moment] ∧
      callsRevoked middle moment := by
    refine ⟨trace.dropLast.take 23, trace.dropLast.drop 23, ?_, tested⟩
    rw [List.take_append_drop]
    exact (List.dropLast_append_getLast? moment last).symm
  obtain ⟨name, request, calls, op, answer, label, arrived, decoded, behind_token, revoked⟩ :=
    callsRevoked_label revokes
  exact ⟨first, middle, moment, stop, name, request, calls, op, answer, run, label, decoded,
    revoked_at_once run label arrived behind_token revoked⟩

end LanBunker
