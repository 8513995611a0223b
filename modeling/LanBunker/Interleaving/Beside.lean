import LanBunker.Interleaving.Alone

/-!
# Two programs side by side

Two programs over one state, in any order of their calls.  A program is robust when its outcome
stands whatever steps a relation allows between its calls, and its own steps are such steps too.
Two robust programs can be reasoned about one at a time.
-/

namespace Interleaving.Program

variable {Op : Type} {Ans : Op → Type} {State α β : Type}
  {exec : (op : Op) → State → Ans op → State → Prop} {rely : State → State → Prop}

/-- The programs end in two values, their calls made in some order over one state. -/
inductive Beside (exec : (op : Op) → State → Ans op → State → Prop) :
    Program Op Ans α → Program Op Ans β → State → α → β → State → Prop where
  | answers (value : α) (other : β) (state : State) :
      Beside exec (.answer value) (.answer other) state value other state
  | left {op : Op} {next : Ans op → Program Op Ans α} {second : Program Op Ans β}
      {state middle stop : State} {result : Ans op} {value : α} {other : β}
      (performed : exec op state result middle)
      (rest : Beside exec (next result) second middle value other stop) :
      Beside exec (.call op next) second state value other stop
  | right {op : Op} {first : Program Op Ans α} {next : Ans op → Program Op Ans β}
      {state middle stop : State} {result : Ans op} {value : α} {other : β}
      (performed : exec op state result middle)
      (rest : Beside exec first (next result) middle value other stop) :
      Beside exec first (.call op next) state value other stop

/-- The second program whole, and then the first, is one order of the calls. -/
theorem Runs.beside {first : Program Op Ans α} {second : Program Op Ans β}
    {state middle stop : State} {value : α} {other : β} (runs : second.Runs exec state other middle)
    (next : first.Runs exec middle value stop) :
    Beside exec first second state value other stop := by
  induction runs with
  | answer other state =>
      induction next with
      | answer value state => exact .answers value other state
      | call performed rest ih => exact .left performed ih
  | call performed rest ih => exact .right performed (ih next)

/-- Every outcome meets `post`, whatever steps of `rely` are made between the calls, and every call
is such a step. -/
def Robust (exec : (op : Op) → State → Ans op → State → Prop) (rely : State → State → Prop) :
    Program Op Ans α → State → (α → State → Prop) → Prop
  | .answer value, state, post => ∀ later, rely state later → post value later
  | .call op next, state, post =>
      ∀ later, rely state later → ∀ result after, exec op later result after →
        rely later after ∧ Robust exec rely (next result) after post

section Robust

variable {program : Program Op Ans α} {state later stop : State} {post : α → State → Prop}

/-- What is robust stays so under the steps it allows. -/
theorem Robust.persists (robust : program.Robust exec rely state post)
    (trans : ∀ first second third, rely first second → rely second third → rely first third)
    (step : rely state later) : program.Robust exec rely later post := by
  cases program with
  | answer value => exact fun last further => robust last (trans _ _ _ step further)
  | call op next => exact fun last further => robust last (trans _ _ _ step further)

/-- The rule of sequence. -/
theorem robust_bind {rest : α → Program Op Ans β} {post : β → State → Prop}
    (robust : program.Robust exec rely state fun value middle =>
      (rest value).Robust exec rely middle post)
    (refl : ∀ state, rely state state) : (program.bind rest).Robust exec rely state post := by
  induction program generalizing state with
  | answer value => exact robust state (refl state)
  | call op next ih =>
      intro later step result after performed
      obtain ⟨kept, further⟩ := robust later step result after performed
      exact ⟨kept, ih result further⟩

/-- The rule of consequence. -/
theorem Robust.mono {post' : α → State → Prop} (robust : program.Robust exec rely state post)
    (weaker : ∀ value stop, post value stop → post' value stop) :
    program.Robust exec rely state post' := by
  induction program generalizing state with
  | answer value => exact fun later step => weaker value later (robust later step)
  | call op next ih =>
      intro later step result after performed
      obtain ⟨kept, further⟩ := robust later step result after performed
      exact ⟨kept, ih result further⟩

/-- Every outcome is reached by steps of `rely`. -/
theorem Robust.reached (robust : program.Robust exec rely state post)
    (trans : ∀ first second third, rely first second → rely second third → rely first third) :
    program.Robust exec rely state fun value stop => rely state stop ∧ post value stop := by
  induction program generalizing state with
  | answer value => exact fun later step => ⟨step, robust later step⟩
  | call op next ih =>
      intro later step result after performed
      obtain ⟨kept, further⟩ := robust later step result after performed
      refine ⟨kept, (ih result further).mono fun value stop holds => ⟨?_, holds.2⟩⟩
      exact trans _ _ _ step (trans _ _ _ kept holds.1)

/-- A robust program has its outcome on its own. -/
theorem Robust.runs {value : α} (robust : program.Robust exec rely state post)
    (refl : ∀ state, rely state state) (runs : program.Runs exec state value stop) :
    post value stop := by
  induction runs with
  | answer value state => exact robust state (refl state)
  | call performed rest ih => exact ih (robust _ (refl _) _ _ performed).2

/-- Two robust programs side by side each have their outcome. -/
theorem Beside.robust {first : Program Op Ans α} {second : Program Op Ans β}
    {other_post : β → State → Prop} {value : α} {other : β}
    (beside : Beside exec first second state value other stop)
    (refl : ∀ state, rely state state)
    (trans : ∀ first second third, rely first second → rely second third → rely first third)
    (robust : first.Robust exec rely state post)
    (other_robust : second.Robust exec rely state other_post) :
    post value stop ∧ other_post other stop := by
  induction beside with
  | answers value other state => exact ⟨robust _ (refl _), other_robust _ (refl _)⟩
  | left performed rest ih =>
      obtain ⟨kept, further⟩ := robust _ (refl _) _ _ performed
      exact ih further (other_robust.persists trans kept)
  | right performed rest ih =>
      obtain ⟨kept, further⟩ := other_robust _ (refl _) _ _ performed
      exact ih (robust.persists trans kept) further

end Robust
end Interleaving.Program
