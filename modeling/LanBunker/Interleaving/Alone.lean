import LanBunker.Interleaving.Program

/-!
# A program on its own

A program with nothing beside it: every call acts on the state that the call before it left.  What
holds of every outcome is computed along the program.
-/

namespace Interleaving.Program

variable {Op : Type} {Ans : Op → Type} {State α β : Type}
  {exec : (op : Op) → State → Ans op → State → Prop}

/-- The program ends in a value and leaves a state behind. -/
inductive Runs (exec : (op : Op) → State → Ans op → State → Prop) :
    Program Op Ans α → State → α → State → Prop where
  | answer (value : α) (state : State) : Runs exec (.answer value) state value state
  | call {op : Op} {next : Ans op → Program Op Ans α} {state middle stop : State} {result : Ans op}
      {value : α} (performed : exec op state result middle)
      (rest : Runs exec (next result) middle value stop) :
      Runs exec (.call op next) state value stop

/-- Every outcome of the program from this state meets `post`. -/
def Always (exec : (op : Op) → State → Ans op → State → Prop) :
    Program Op Ans α → State → (α → State → Prop) → Prop
  | .answer value, state, post => post value state
  | .call op next, state, post =>
      ∀ result after, exec op state result after → Always exec (next result) after post

theorem always_iff {program : Program Op Ans α} {state : State} {post : α → State → Prop} :
    program.Always exec state post ↔
      ∀ value stop, program.Runs exec state value stop → post value stop := by
  constructor
  · intro always value stop runs
    induction runs with
    | answer value state => exact always
    | call performed rest ih => exact ih (always _ _ performed)
  · intro all
    induction program generalizing state with
    | answer value => exact all value state (.answer value state)
    | call op next ih =>
        intro result after performed
        exact ih result fun value stop runs => all value stop (.call performed runs)

/-- The rule of sequence. -/
theorem always_bind {program : Program Op Ans α} {rest : α → Program Op Ans β} {state : State}
    {post : β → State → Prop} :
    (program.bind rest).Always exec state post ↔
      program.Always exec state fun value middle => (rest value).Always exec middle post := by
  induction program generalizing state with
  | answer value => rfl
  | call op next ih =>
      refine forall_congr' fun result => forall_congr' fun after => forall_congr' fun _ => ?_
      exact ih result

/-- The rule of consequence. -/
theorem Always.mono {program : Program Op Ans α} {state : State} {post post' : α → State → Prop}
    (always : program.Always exec state post)
    (weaker : ∀ value stop, post value stop → post' value stop) :
    program.Always exec state post' := by
  rw [always_iff] at always ⊢
  intro value stop runs
  exact weaker value stop (always value stop runs)

/-- Where every call can be performed, every program ends. -/
theorem exists_runs (total : ∀ op state, ∃ result after, exec op state result after)
    (program : Program Op Ans α) (state : State) :
    ∃ value stop, program.Runs exec state value stop := by
  induction program generalizing state with
  | answer value => exact ⟨value, state, .answer value state⟩
  | call op next ih =>
      obtain ⟨result, middle, performed⟩ := total op state
      obtain ⟨value, stop, runs⟩ := ih result middle
      exact ⟨value, stop, .call performed runs⟩

end Interleaving.Program
