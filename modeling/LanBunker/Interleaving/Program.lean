import Mathlib.Data.List.Basic

/-!
# Programs of atomic operations

A request is a program: it answers, or it calls one atomic operation and goes on with what the
operation answered.  What a program may call depends on what it was answered before, and that is
a property of the program alone, whatever runs beside it.
-/

namespace Interleaving

/-- A request in progress, over operations `Op` that answer in `Ans`. -/
inductive Program (Op : Type) (Ans : Op → Type) (α : Type) where
  | answer (value : α)
  | call (op : Op) (next : Ans op → Program Op Ans α)

/-- An operation that was called, with what it answered. -/
structure Entry (Op : Type) (Ans : Op → Type) where
  op : Op
  answer : Ans op

/-- The calls a program has made so far, in order. -/
abbrev History (Op : Type) (Ans : Op → Type) := List (Entry Op Ans)

namespace Program

variable {Op : Type} {Ans : Op → Type} {α β : Type}

/-- Goes on with a second program from the answer of the first. -/
def bind : Program Op Ans α → (α → Program Op Ans β) → Program Op Ans β
  | .answer value, rest => rest value
  | .call op next, rest => .call op fun result => (next result).bind rest

@[simp]
theorem bind_answer (value : α) (rest : α → Program Op Ans β) :
    (Program.answer value : Program Op Ans α).bind rest = rest value := rfl

/-- Every call is one that `may` be made after the calls before it, and every answer meets `post`
with the whole history, whatever the operations answer. -/
def Follows (may : History Op Ans → Op → Prop) (past : History Op Ans) :
    Program Op Ans α → (α → History Op Ans → Prop) → Prop
  | .answer value, post => post value past
  | .call op next, post =>
      may past op ∧ ∀ result, (next result).Follows may (past ++ [⟨op, result⟩]) post

section Follows

variable {may : History Op Ans → Op → Prop} {past : History Op Ans}

/-- The rule of sequence. -/
theorem follows_bind {program : Program Op Ans α} {rest : α → Program Op Ans β}
    {post : β → History Op Ans → Prop} :
    (program.bind rest).Follows may past post ↔
      program.Follows may past fun value past => (rest value).Follows may past post := by
  induction program generalizing past with
  | answer value => rfl
  | call op next ih =>
      refine and_congr_right fun _ => forall_congr' fun result => ?_
      exact ih result

/-- The rule of consequence. -/
theorem Follows.mono {program : Program Op Ans α} {post post' : α → History Op Ans → Prop}
    (follows : program.Follows may past post)
    (weaker : ∀ value past, post value past → post' value past) :
    program.Follows may past post' := by
  induction program generalizing past with
  | answer value => exact weaker value past follows
  | call op next ih =>
      obtain ⟨allowed, rest⟩ := follows
      exact ⟨allowed, fun result => ih result (rest result)⟩

theorem Follows.weaken {may' : History Op Ans → Op → Prop} {program : Program Op Ans α}
    {post : α → History Op Ans → Prop} (follows : program.Follows may past post)
    (weaker : ∀ past op, may past op → may' past op) : program.Follows may' past post := by
  induction program generalizing past with
  | answer value => exact follows
  | call op next ih =>
      obtain ⟨allowed, rest⟩ := follows
      exact ⟨weaker past op allowed, fun result => ih result (rest result)⟩

/-- A program follows what asks for nothing. -/
theorem follows_of_forall {program : Program Op Ans α} {post : α → History Op Ans → Prop}
    (all : ∀ past op, may past op) (ends : ∀ value past, post value past) :
    program.Follows may past post := by
  induction program generalizing past with
  | answer value => exact ends value past
  | call op next ih => exact ⟨all past op, fun result => ih result⟩

end Follows
end Program
end Interleaving
