import LanBunker.Interleaving.Program
import Mathlib.Data.List.Induction

/-!
# Requests over a shared state

Any number of requests run at once over one state.  Each step is the arrival of a request, one
atomic operation of a running request, its reply, its disappearance, or a change of the state that
no request makes.  A run carries the trace of its steps, and a thread its own history.
-/

namespace Interleaving

/-- What requests are served, and what their operations do to the shared state. -/
structure System where
  State : Type
  Op : Type
  Ans : Op → Type
  Request : Type
  Response : Type
  serve : Request → Program Op Ans Response
  /-- The operation takes the state before to the answer and the state after. -/
  exec : (op : Op) → State → Ans op → State → Prop
  /-- What happens to the state by itself. -/
  drift : State → State → Prop

variable (sys : System)

/-- A running request. -/
structure Thread where
  name : Nat
  request : sys.Request
  past : History sys.Op sys.Ans
  rest : Program sys.Op sys.Ans sys.Response

/-- The shared state and the running requests.  Requests are named by their arrival. -/
structure Config where
  state : sys.State
  arrivals : Nat
  pool : List (Thread sys)

/-- What a step was. -/
inductive Label where
  | arrive (name : Nat) (request : sys.Request)
  | call (name : Nat) (request : sys.Request) (past : History sys.Op sys.Ans) (op : sys.Op)
      (answer : sys.Ans op)
  | reply (name : Nat) (request : sys.Request) (past : History sys.Op sys.Ans)
      (response : sys.Response)
  | drop (name : Nat) (request : sys.Request)
  | drift

/-- The request behind a call or a reply, with its history then. -/
def Label.caller {sys : System} :
    Label sys → Option (Nat × sys.Request × History sys.Op sys.Ans)
  | .call name request past _ _ => some (name, request, past)
  | .reply name request past _ => some (name, request, past)
  | _ => none

/-- A step with the states around it. -/
structure Moment where
  before : sys.State
  label : Label sys
  after : sys.State

variable {sys}

/-- Nothing runs yet. -/
def Config.quiet (state : sys.State) : Config sys := { state, arrivals := 0, pool := [] }

/-- One step.  A request can be dropped at any point, with what it already did left done. -/
inductive Step : Config sys → Moment sys → Config sys → Prop where
  | arrive (config : Config sys) (request : sys.Request) :
      Step config ⟨config.state, .arrive config.arrivals request, config.state⟩
        { config with
          arrivals := config.arrivals + 1
          pool := config.pool ++ [⟨config.arrivals, request, [], sys.serve request⟩] }
  | call {config : Config sys} {index name : Nat} {request : sys.Request}
      {past : History sys.Op sys.Ans} {op : sys.Op}
      {next : sys.Ans op → Program sys.Op sys.Ans sys.Response} {answer : sys.Ans op}
      {after : sys.State}
      (running : config.pool[index]? = some ⟨name, request, past, .call op next⟩)
      (exec : sys.exec op config.state answer after) :
      Step config ⟨config.state, .call name request past op answer, after⟩
        { config with
          state := after
          pool := config.pool.set index ⟨name, request, past ++ [⟨op, answer⟩], next answer⟩ }
  | reply {config : Config sys} {index name : Nat} {request : sys.Request}
      {past : History sys.Op sys.Ans} {response : sys.Response}
      (running : config.pool[index]? = some ⟨name, request, past, .answer response⟩) :
      Step config ⟨config.state, .reply name request past response, config.state⟩
        { config with pool := config.pool.eraseIdx index }
  | drop {config : Config sys} {index : Nat} {thread : Thread sys}
      (running : config.pool[index]? = some thread) :
      Step config ⟨config.state, .drop thread.name thread.request, config.state⟩
        { config with pool := config.pool.eraseIdx index }
  | drift {config : Config sys} {after : sys.State} (drift : sys.drift config.state after) :
      Step config ⟨config.state, .drift, after⟩ { config with state := after }

/-- Any number of steps, with their trace. -/
inductive Run : Config sys → List (Moment sys) → Config sys → Prop where
  | nil (config : Config sys) : Run config [] config
  | snoc {start middle stop : Config sys} {trace : List (Moment sys)} {moment : Moment sys}
      (run : Run start trace middle) (step : Step middle moment stop) :
      Run start (trace ++ [moment]) stop

theorem Step.before_eq {start stop : Config sys} {moment : Moment sys}
    (step : Step start moment stop) : moment.before = start.state := by
  cases step <;> rfl

theorem Step.after_eq {start stop : Config sys} {moment : Moment sys}
    (step : Step start moment stop) : moment.after = stop.state := by
  cases step <;> rfl

namespace Run

variable {start stop : Config sys} {trace : List (Moment sys)}

theorem trans {middle : Config sys} {first second : List (Moment sys)}
    (run : Run start first middle) (further : Run middle second stop) :
    Run start (first ++ second) stop := by
  induction further with
  | nil => simpa using run
  | snoc further step ih =>
      rw [← List.append_assoc]
      exact ih.snoc step

/-- A run can be cut at any place of its trace. -/
theorem split {first second : List (Moment sys)} (run : Run start (first ++ second) stop) :
    ∃ middle, Run start first middle ∧ Run middle second stop := by
  induction second using List.reverseRecOn generalizing stop with
  | nil => exact ⟨stop, by simpa using run, .nil stop⟩
  | append_singleton second moment ih =>
      generalize whole : first ++ (second ++ [moment]) = trace at run
      cases run with
      | nil => simp at whole
      | @snoc middle _ trace moment' run step =>
          rw [← List.append_assoc] at whole
          obtain ⟨rfl, moment_eq⟩ := List.append_inj' whole rfl
          obtain rfl := List.singleton_inj.mp moment_eq
          obtain ⟨cut, front, back⟩ := ih run
          exact ⟨cut, front, back.snoc step⟩

/-- The run up to a moment, the moment and the run after it. -/
theorem at_moment {first second : List (Moment sys)} {moment : Moment sys}
    (run : Run start (first ++ moment :: second) stop) :
    ∃ here there, Run start first here ∧ Step here moment there ∧ Run there second stop := by
  have cut : Run start ((first ++ [moment]) ++ second) stop := by simpa using run
  obtain ⟨there, front, back⟩ := cut.split
  generalize prefix_eq : first ++ [moment] = front_trace at front
  cases front with
  | nil => simp at prefix_eq
  | @snoc here _ trace moment' front step =>
      obtain ⟨rfl, moment_eq⟩ := List.append_inj' prefix_eq rfl
      obtain rfl := List.singleton_inj.mp moment_eq
      exact ⟨here, there, front, step, back⟩

/-- What every step of a run preserves holds all along it. -/
theorem invariant {holds : sys.State → Prop} (run : Run start trace stop)
    (initial : holds start.state)
    (keeps : ∀ moment ∈ trace, holds moment.before → holds moment.after) :
    holds stop.state ∧ ∀ moment ∈ trace, holds moment.before ∧ holds moment.after := by
  induction run with
  | nil => exact ⟨initial, by simp⟩
  | @snoc middle stop trace moment run step ih =>
      obtain ⟨here, along⟩ := ih fun moment member =>
        keeps moment (List.mem_append_left _ member)
      have before : holds moment.before := step.before_eq ▸ here
      have after := keeps moment (by simp) before
      refine ⟨step.after_eq ▸ after, fun moment' member => ?_⟩
      rcases List.mem_append.mp member with earlier | last
      · exact along moment' earlier
      · obtain rfl := List.mem_singleton.mp last
        exact ⟨before, after⟩

/-- What every step of a run keeps between two states, the run keeps between its ends. -/
theorem related {relates : sys.State → sys.State → Prop} (run : Run start trace stop)
    (refl : ∀ state, relates state state)
    (trans : ∀ {first second third}, relates first second → relates second third →
      relates first third)
    (keeps : ∀ moment ∈ trace, relates moment.before moment.after) :
    relates start.state stop.state := by
  induction run with
  | nil => exact refl _
  | @snoc middle stop trace moment run step ih =>
      have front := ih fun moment member => keeps moment (List.mem_append_left _ member)
      have last := keeps moment (by simp)
      rw [step.before_eq, step.after_eq] at last
      exact trans front last

end Run

/-! ## Threads and their histories -/

/-- Every running request has a name that was given. -/
def Config.Named (config : Config sys) : Prop :=
  ∀ thread ∈ config.pool, thread.name < config.arrivals

/-- The trace holds every call of the history. -/
def Called (trace : List (Moment sys)) (name : Nat) (request : sys.Request)
    (past : History sys.Op sys.Ans) : Prop :=
  ∀ entry ∈ past, ∃ moment ∈ trace, ∃ earlier,
    moment.label = .call name request earlier entry.op entry.answer

namespace Step

variable {start stop : Config sys} {moment : Moment sys}

theorem arrivals_le (step : Step start moment stop) : start.arrivals ≤ stop.arrivals := by
  cases step with
  | arrive => exact Nat.le_succ _
  | call => exact Nat.le_refl _
  | reply => exact Nat.le_refl _
  | drop => exact Nat.le_refl _
  | drift => exact Nat.le_refl _

/-- Where a thread after a step comes from: it was there, it just arrived, or it just called. -/
theorem thread_cases (step : Step start moment stop) {thread : Thread sys}
    (member : thread ∈ stop.pool) :
    thread ∈ start.pool ∨
      (thread = ⟨start.arrivals, thread.request, [], sys.serve thread.request⟩ ∧
        stop.arrivals = start.arrivals + 1) ∨
      ∃ past op next answer, ⟨thread.name, thread.request, past, .call op next⟩ ∈ start.pool ∧
        thread = ⟨thread.name, thread.request, past ++ [⟨op, answer⟩], next answer⟩ ∧
        moment.label = .call thread.name thread.request past op answer := by
  cases step with
  | arrive request =>
      rcases List.mem_append.mp member with old | new
      · exact Or.inl old
      · obtain rfl := List.mem_singleton.mp new
        exact Or.inr (Or.inl ⟨rfl, rfl⟩)
  | call running exec =>
      rcases List.mem_or_eq_of_mem_set member with old | rfl
      · exact Or.inl old
      · exact Or.inr (Or.inr ⟨_, _, _, _, List.mem_of_getElem? running, rfl, rfl⟩)
  | reply running => exact Or.inl (List.mem_of_mem_eraseIdx member)
  | drop running => exact Or.inl (List.mem_of_mem_eraseIdx member)
  | drift drift => exact Or.inl member

/-- The caller of a step was running. -/
theorem caller_mem (step : Step start moment stop) {name : Nat} {request : sys.Request}
    {past : History sys.Op sys.Ans} (caller : moment.label.caller = some (name, request, past)) :
    ∃ rest, ⟨name, request, past, rest⟩ ∈ start.pool := by
  cases step with
  | arrive => cases caller
  | call running exec =>
      obtain ⟨rfl, rfl, rfl⟩ := by simpa [Label.caller] using caller
      exact ⟨_, List.mem_of_getElem? running⟩
  | reply running =>
      obtain ⟨rfl, rfl, rfl⟩ := by simpa [Label.caller] using caller
      exact ⟨_, List.mem_of_getElem? running⟩
  | drop running => cases caller
  | drift drift => cases caller

theorem named (step : Step start moment stop) (named : start.Named) : stop.Named := by
  intro thread member
  rcases step.thread_cases member with old | ⟨new, more⟩ | ⟨past, op, next, answer, old, -, -⟩
  · exact Nat.lt_of_lt_of_le (named thread old) step.arrivals_le
  · rw [new, more]
    exact Nat.lt_succ_self _
  · have before := named _ old
    exact Nat.lt_of_lt_of_le before step.arrivals_le

end Step

namespace Run

variable {start stop : Config sys} {trace : List (Moment sys)}

theorem named (run : Run start trace stop) (named : start.Named) : stop.Named := by
  induction run with
  | nil => exact named
  | snoc run step ih => exact step.named ih

theorem arrivals_le (run : Run start trace stop) : start.arrivals ≤ stop.arrivals := by
  induction run with
  | nil => exact Nat.le_refl _
  | snoc run step ih => exact Nat.le_trans ih step.arrivals_le

/-- Every call of a request that arrived in a run is in the trace of the run, with the calls before
it behind it. -/
theorem called_with (run : Run start trace stop) (named : start.Named) :
    ∀ thread ∈ stop.pool, start.arrivals ≤ thread.name → ∀ before entry after,
      thread.past = before ++ entry :: after → ∃ moment ∈ trace,
        moment.label = .call thread.name thread.request before entry.op entry.answer := by
  induction run with
  | nil =>
      intro thread member arrived
      exact absurd (named thread member) (Nat.not_lt.mpr arrived)
  | @snoc middle stop trace moment run step ih =>
      intro thread member arrived before entry after whole
      rcases step.thread_cases member with
        old | ⟨new, -⟩ | ⟨past, op, next, answer, old, now, label⟩
      · obtain ⟨call, call_mem, call_label⟩ := ih thread old arrived before entry after whole
        exact ⟨call, List.mem_append_left _ call_mem, call_label⟩
      · rw [new] at whole
        exact absurd whole.symm (by simp)
      · rw [now] at whole
        rcases List.eq_nil_or_concat after with rfl | ⟨others, last, rfl⟩
        · obtain ⟨rfl, same⟩ := List.append_inj' whole rfl
          obtain rfl := List.singleton_inj.mp same
          exact ⟨moment, by simp, label⟩
        · have earlier : past = before ++ entry :: others := by
            rw [List.concat_eq_append, ← List.cons_append, ← List.append_assoc] at whole
            exact (List.append_inj' whole rfl).1
          obtain ⟨call, call_mem, call_label⟩ := ih _ old arrived before entry others earlier
          exact ⟨call, List.mem_append_left _ call_mem, call_label⟩

/-- The history of a request that arrived in a run is in the trace of the run. -/
theorem called (run : Run start trace stop) (named : start.Named) :
    ∀ thread ∈ stop.pool, start.arrivals ≤ thread.name →
      Called trace thread.name thread.request thread.past := by
  intro thread member arrived entry entry_mem
  obtain ⟨before, after, whole⟩ := List.append_of_mem entry_mem
  obtain ⟨moment, moment_mem, label⟩ :=
    run.called_with named thread member arrived before entry after whole
  exact ⟨moment, moment_mem, before, label⟩

/-- A request that arrives in a run has a name that was not given before. -/
theorem arrived (run : Run start trace stop) {moment : Moment sys} (member : moment ∈ trace)
    {name : Nat} {request : sys.Request} (label : moment.label = .arrive name request) :
    start.arrivals ≤ name := by
  induction run with
  | nil => cases member
  | snoc run step ih =>
      rcases List.mem_append.mp member with earlier | last
      · exact ih earlier
      · obtain rfl := List.mem_singleton.mp last
        cases step with
        | arrive request =>
            obtain ⟨rfl, -⟩ := Label.arrive.inj label
            exact run.arrivals_le
        | call => cases label
        | reply => cases label
        | drop => cases label
        | drift => cases label

/-- The caller of the step after a run made all its calls in the run, if it arrived there. -/
theorem caller_called (run : Run start trace stop) (named : start.Named) {there : Config sys}
    {moment : Moment sys} (step : Step stop moment there) {name : Nat} {request : sys.Request}
    {past : History sys.Op sys.Ans} (caller : moment.label.caller = some (name, request, past))
    (given : start.arrivals ≤ name) : Called trace name request past := by
  obtain ⟨rest, running⟩ := step.caller_mem caller
  exact run.called named _ running given

/-- A call that the request of a moment has behind it was made earlier in the run. -/
theorem called_before {state : sys.State} {first last : List (Moment sys)} {moment : Moment sys}
    (run : Run (Config.quiet state) (first ++ moment :: last) stop) {name : Nat}
    {request : sys.Request} {past : History sys.Op sys.Ans}
    (caller : moment.label.caller = some (name, request, past)) :
    Called first name request past := by
  obtain ⟨here, _, front, step, _⟩ := run.at_moment
  exact front.caller_called (by simp [Config.Named, Config.quiet]) step caller (Nat.zero_le _)

/-- The last of them was made with the calls before it behind it. -/
theorem last_call {state : sys.State} {first last : List (Moment sys)} {moment : Moment sys}
    (run : Run (Config.quiet state) (first ++ moment :: last) stop) {name : Nat}
    {request : sys.Request} {past : History sys.Op sys.Ans} {entry : Entry sys.Op sys.Ans}
    (caller : moment.label.caller = some (name, request, past ++ [entry])) :
    ∃ early call between, first = early ++ call :: between ∧
      call.label = .call name request past entry.op entry.answer := by
  obtain ⟨here, _, front, step, _⟩ := run.at_moment
  obtain ⟨rest, running⟩ := step.caller_mem caller
  obtain ⟨call, call_mem, label⟩ := front.called_with (by simp [Config.Named, Config.quiet])
    _ running (Nat.zero_le _) past entry [] rfl
  obtain ⟨early, between, rfl⟩ := List.append_of_mem call_mem
  exact ⟨early, call, between, rfl, label⟩

/-- What follows a hit follows the first hit. -/
theorem mem_tail_dropWhile {α : Type*} {miss : α → Bool} {early between : List α} {hit item : α}
    (hits : miss hit = false) (member : item ∈ between) :
    item ∈ ((early ++ hit :: between).dropWhile miss).tail := by
  induction early with
  | nil =>
      rw [List.nil_append, List.dropWhile_cons_of_neg (by simp [hits])]
      exact member
  | cons first early ih =>
      rw [List.cons_append, List.dropWhile_cons]
      split_ifs
      · exact ih
      · exact List.mem_append_right _ (List.mem_cons_of_mem _ member)

/-- From such a call a run leads to the moment. -/
theorem since {state : sys.State} {first last : List (Moment sys)} {moment : Moment sys}
    (run : Run (Config.quiet state) (first ++ moment :: last) stop) {name : Nat}
    {request : sys.Request} {past : History sys.Op sys.Ans}
    (caller : moment.label.caller = some (name, request, past)) {entry : Entry sys.Op sys.Ans}
    (member : entry ∈ past) :
    ∃ early call between earlier there here, first = early ++ call :: between ∧
      call.label = .call name request earlier entry.op entry.answer ∧
      there.state = call.after ∧ Run there between here ∧ here.state = moment.before := by
  obtain ⟨call, call_mem, earlier, label⟩ := run.called_before caller entry member
  obtain ⟨here, _, front, step, _⟩ := run.at_moment
  obtain ⟨early, between, rfl⟩ := List.append_of_mem call_mem
  obtain ⟨_, there, _, call_step, rest⟩ := front.at_moment
  exact ⟨early, call, between, earlier, there, here, rfl, label, call_step.after_eq.symm, rest,
    step.before_eq.symm⟩

end Run

/-! ## What every step is, for requests of one discipline -/

/-- What requests may call after a history, and what they may answer with it. -/
structure Discipline (sys : System) where
  may : sys.Request → History sys.Op sys.Ans → sys.Op → Prop
  answers : sys.Request → sys.Response → History sys.Op sys.Ans → Prop
  follows : ∀ request, (sys.serve request).Follows (may request) [] (answers request)

namespace Discipline

variable (discipline : Discipline sys)

/-- What a moment of a run is: a call is one the request may make and its effect is that of the
operation, a reply is one the request may give, and nothing else touches the state but drift. -/
def Sound (moment : Moment sys) : Prop :=
  match moment.label with
  | .arrive _ _ => moment.after = moment.before
  | .call _ request past op answer =>
      discipline.may request past op ∧ sys.exec op moment.before answer moment.after
  | .reply _ request past response =>
      moment.after = moment.before ∧ discipline.answers request response past
  | .drop _ _ => moment.after = moment.before
  | .drift => sys.drift moment.before moment.after

/-- A thread goes on as its request may. -/
def Obeys (thread : Thread sys) : Prop :=
  thread.rest.Follows (discipline.may thread.request) thread.past
    (discipline.answers thread.request)

variable {discipline} {start stop : Config sys}

theorem obeys_step {moment : Moment sys} (step : Step start moment stop)
    (obey : ∀ thread ∈ start.pool, discipline.Obeys thread) :
    ∀ thread ∈ stop.pool, discipline.Obeys thread := by
  intro thread member
  rcases step.thread_cases member with old | ⟨new, -⟩ | ⟨past, op, next, answer, old, now, -⟩
  · exact obey thread old
  · rw [new]
    exact discipline.follows thread.request
  · rw [now]
    exact (obey _ old).2 answer

theorem sound_step {moment : Moment sys} (step : Step start moment stop)
    (obey : ∀ thread ∈ start.pool, discipline.Obeys thread) : discipline.Sound moment := by
  cases step with
  | arrive request => rfl
  | call running exec => exact ⟨(obey _ (List.mem_of_getElem? running)).1, exec⟩
  | reply running => exact ⟨rfl, obey _ (List.mem_of_getElem? running)⟩
  | drop running => rfl
  | drift drift => exact drift

variable (discipline)

/-- Every moment of a run from a quiet start is sound. -/
theorem sound {state : sys.State} {trace : List (Moment sys)}
    (run : Run (Config.quiet state) trace stop) : ∀ moment ∈ trace, discipline.Sound moment := by
  have both : (∀ thread ∈ stop.pool, discipline.Obeys thread) ∧
      ∀ moment ∈ trace, discipline.Sound moment := by
    generalize origin : Config.quiet state = start at run
    induction run with
    | nil =>
        subst origin
        exact ⟨by simp [Config.quiet], by simp⟩
    | @snoc middle stop trace moment run step ih =>
        obtain ⟨obey, along⟩ := ih
        refine ⟨obeys_step step obey, fun moment' member => ?_⟩
        rcases List.mem_append.mp member with earlier | last
        · exact along moment' earlier
        · obtain rfl := List.mem_singleton.mp last
          exact sound_step step obey
  exact both.2

end Discipline
end Interleaving
