import LanBunker.Interleaving.System

/-!
# Invariants and what a request may rely on

A request works with answers that are older than the state it writes to.  What survives is a
relation between an earlier and a later state that every step keeps: with it, every answer in the
history of a request was given by a state that the present one still relies on.
-/

namespace Interleaving

variable {sys : System}

/-- A state invariant, and a relation from every earlier state to every later one. -/
structure Guarantee (sys : System) where
  holds : sys.State → Prop
  relies : sys.State → sys.State → Prop
  refl : ∀ state, relies state state
  trans : ∀ {first second third}, relies first second → relies second third → relies first third

namespace Guarantee

variable (guarantee : Guarantee sys)

/-- An answer that an earlier state gave, and that the present state relies on. -/
def Seen (entry : Entry sys.Op sys.Ans) (state : sys.State) : Prop :=
  ∃ before after, guarantee.holds before ∧ sys.exec entry.op before entry.answer after ∧
    guarantee.holds after ∧ guarantee.relies before after ∧ guarantee.relies after state

variable {guarantee} in
theorem Seen.mono {entry : Entry sys.Op sys.Ans} {state later : sys.State}
    (seen : guarantee.Seen entry state) (relies : guarantee.relies state later) :
    guarantee.Seen entry later := by
  obtain ⟨before, after, holds, exec, holds_after, step, rest⟩ := seen
  exact ⟨before, after, holds, exec, holds_after, step, guarantee.trans rest relies⟩

/-- A history whose calls were made one after the other, each at a state that every later one
relies on. -/
inductive Lived : History sys.Op sys.Ans → sys.State → Prop where
  | nil (state : sys.State) : Lived [] state
  | snoc {past : History sys.Op sys.Ans} {op : sys.Op} {answer : sys.Ans op}
      {before after state : sys.State} (lived : Lived past before)
      (holds : guarantee.holds before) (exec : sys.exec op before answer after)
      (holds_after : guarantee.holds after) (step : guarantee.relies before after)
      (rest : guarantee.relies after state) : Lived (past ++ [⟨op, answer⟩]) state

section Lived

variable {guarantee} {past : History sys.Op sys.Ans} {state later : sys.State}

theorem Lived.mono (lived : guarantee.Lived past state) (relies : guarantee.relies state later) :
    guarantee.Lived past later := by
  cases lived with
  | nil => exact .nil later
  | snoc lived holds exec holds_after step rest =>
      exact .snoc lived holds exec holds_after step (guarantee.trans rest relies)

/-- Every answer of a history was seen. -/
theorem Lived.seen (lived : guarantee.Lived past state) :
    ∀ entry ∈ past, guarantee.Seen entry state := by
  induction lived with
  | nil =>
      intro entry impossible
      cases impossible
  | snoc lived holds exec holds_after step rest ih =>
      intro entry member
      rcases List.mem_append.mp member with earlier | last
      · exact (ih entry earlier).mono (guarantee.trans step rest)
      · obtain rfl := List.mem_singleton.mp last
        exact ⟨_, _, holds, exec, holds_after, step, rest⟩

/-- The last call of a history, with the state it was made at. -/
theorem Lived.last {op : sys.Op} {answer : sys.Ans op}
    (lived : guarantee.Lived (past ++ [⟨op, answer⟩]) state) :
    ∃ before after, guarantee.Lived past before ∧ guarantee.holds before ∧
      sys.exec op before answer after ∧ guarantee.relies before state := by
  generalize whole : past ++ [⟨op, answer⟩] = history at lived
  cases lived with
  | nil => simp at whole
  | snoc lived holds exec holds_after step rest =>
      obtain ⟨rfl, last⟩ := List.append_inj' whole rfl
      obtain ⟨rfl, answers⟩ := Entry.mk.inj (List.singleton_inj.mp last)
      obtain rfl := eq_of_heq answers
      exact ⟨_, _, lived, holds, exec, guarantee.trans step rest⟩

end Lived

/-- The request of a moment has lived through its history. -/
def Informed (moment : Moment sys) : Prop :=
  ∀ name request past, moment.label.caller = some (name, request, past) →
    guarantee.Lived past moment.before

/-- What is known of every moment of a run, `stop` being the last state. -/
structure Along (stop : sys.State) (moment : Moment sys) : Prop where
  before : guarantee.holds moment.before
  after : guarantee.holds moment.after
  step : guarantee.relies moment.before moment.after
  rest : guarantee.relies moment.after stop
  informed : guarantee.Informed moment

/-- The obligation: one step of a request of the discipline keeps the guarantee. -/
def KeptBy (discipline : Discipline sys) (condition : Moment sys → Prop) : Prop :=
  ∀ moment, guarantee.holds moment.before → guarantee.Informed moment →
    discipline.Sound moment → condition moment →
    guarantee.holds moment.after ∧ guarantee.relies moment.before moment.after

section Run

variable {guarantee} {discipline : Discipline sys} {condition : Moment sys → Prop}
  {state : sys.State} {stop : Config sys} {trace : List (Moment sys)}

/-- The caller of a step is a running request with its history. -/
private theorem informed_of_pool {middle : Config sys} {moment : Moment sys}
    (step : Step middle moment stop)
    (lived : ∀ thread ∈ middle.pool, guarantee.Lived thread.past middle.state) :
    guarantee.Informed moment := by
  intro name request past caller
  obtain ⟨rest, running⟩ := step.caller_mem caller
  rw [step.before_eq]
  exact lived _ running

/-- One step keeps every history lived. -/
private theorem lived_step {middle : Config sys} {moment : Moment sys}
    (step : Step middle moment stop)
    (lived : ∀ thread ∈ middle.pool, guarantee.Lived thread.past middle.state)
    (sound : discipline.Sound moment) (before : guarantee.holds moment.before)
    (after : guarantee.holds moment.after)
    (relies : guarantee.relies moment.before moment.after) :
    ∀ thread ∈ stop.pool, guarantee.Lived thread.past stop.state := by
  intro thread member
  rw [← step.after_eq]
  rcases step.thread_cases member with
    old | ⟨new, -⟩ | ⟨past, op, next, answer, old, now, label⟩
  · exact (lived thread old).mono (step.before_eq ▸ relies)
  · rw [new]
    exact .nil _
  · rw [now]
    simp only [Discipline.Sound, label] at sound
    exact .snoc (step.before_eq ▸ lived _ old) before sound.2 after relies (guarantee.refl _)

/-- What one step keeps, every run keeps. -/
theorem along_run (kept : guarantee.KeptBy discipline condition) (initial : guarantee.holds state)
    (run : Run (Config.quiet state) trace stop) (meets : ∀ moment ∈ trace, condition moment) :
    guarantee.holds stop.state ∧ ∀ moment ∈ trace, guarantee.Along stop.state moment := by
  have sound := discipline.sound run
  have all : guarantee.holds stop.state ∧
      (∀ thread ∈ stop.pool, guarantee.Lived thread.past stop.state) ∧
      ∀ moment ∈ trace, guarantee.Along stop.state moment := by
    generalize origin : Config.quiet state = start at run
    induction run with
    | nil =>
        subst origin
        exact ⟨initial, by simp [Config.quiet], by simp⟩
    | @snoc middle stop trace moment run step ih =>
        obtain ⟨holds, lived, along⟩ :=
          ih (fun moment member => meets moment (List.mem_append_left _ member))
            fun moment member => sound moment (List.mem_append_left _ member)
        have before : guarantee.holds moment.before := step.before_eq ▸ holds
        have informed := informed_of_pool step lived
        have this_sound := sound moment (by simp)
        obtain ⟨after, relies⟩ := kept moment before informed this_sound (meets moment (by simp))
        refine ⟨step.after_eq ▸ after, lived_step step lived this_sound before after relies,
          fun moment' member => ?_⟩
        rcases List.mem_append.mp member with earlier | last
        · have old := along moment' earlier
          refine { old with rest := guarantee.trans old.rest ?_ }
          rw [← step.before_eq, ← step.after_eq]
          exact relies
        · obtain rfl := List.mem_singleton.mp last
          exact ⟨before, after, relies, step.after_eq ▸ guarantee.refl _, informed⟩
  exact ⟨all.1, all.2.2⟩

/-- The later of two moments relies on the earlier. -/
theorem relies_pairwise (kept : guarantee.KeptBy discipline condition)
    (initial : guarantee.holds state) (run : Run (Config.quiet state) trace stop)
    (meets : ∀ moment ∈ trace, condition moment) :
    trace.Pairwise fun early late => guarantee.relies early.after late.before := by
  generalize origin : Config.quiet state = start at run
  induction run with
  | nil => exact List.Pairwise.nil
  | @snoc middle stop trace moment run step ih =>
      subst origin
      have meets_before := fun moment member => meets moment (List.mem_append_left _ member)
      refine List.pairwise_append.mpr ⟨ih meets_before, List.pairwise_singleton _ _, ?_⟩
      intro early early_mem late late_mem
      obtain rfl := List.mem_singleton.mp late_mem
      rw [step.before_eq]
      exact ((along_run kept initial run meets_before).2 early early_mem).rest

end Run
end Guarantee
end Interleaving
