import LanBunker.Storage.Database

/-!
# Proof rules for storage methods

How a transaction can end, by the shape of its body, and what a commit makes of it.
-/

namespace LanBunker

/-! ## Statements -/

@[simp]
theorem guarded_nil_ok {otherwise : Except StorageError (Nat × Database)}
    {result : Nat × Database} : guarded [] otherwise = .ok result ↔ otherwise = .ok result :=
  Iff.rfl

@[simp]
theorem guarded_cons_ok {holds : Bool} {error : StorageError}
    {checks : List (Bool × StorageError)} {otherwise : Except StorageError (Nat × Database)}
    {result : Nat × Database} :
    guarded ((holds, error) :: checks) otherwise = .ok result ↔
      holds = true ∧ guarded checks otherwise = .ok result := by
  cases holds <;> simp [guarded]

theorem guarded_passed {holds : Bool} {error : StorageError}
    {checks : List (Bool × StorageError)} {otherwise : Except StorageError (Nat × Database)}
    (passes : holds = true) :
    guarded ((holds, error) :: checks) otherwise = guarded checks otherwise := by
  rw [guarded, if_pos passes]

theorem guarded_failed {holds : Bool} {error : StorageError}
    {checks : List (Bool × StorageError)} {otherwise : Except StorageError (Nat × Database)}
    (fails : holds = false) : guarded ((holds, error) :: checks) otherwise = .error error := by
  rw [guarded, if_neg (Bool.eq_false_iff.mp fails)]

/-- A refused statement failed one of its checks. -/
theorem guarded_error {checks : List (Bool × StorageError)} {result : Nat × Database}
    {error : StorageError} (refused : guarded checks (.ok result) = .error error) :
    ∃ check ∈ checks, check.1 = false ∧ check.2 = error := by
  induction checks with
  | nil => cases refused
  | cons check checks ih =>
      obtain ⟨holds, failure⟩ := check
      cases holds with
      | false => exact ⟨_, List.mem_cons_self, rfl, by simpa [guarded] using refused⟩
      | true =>
          obtain ⟨other, member, fails⟩ := ih (by simpa [guarded] using refused)
          exact ⟨other, List.mem_cons_of_mem _ member, fails⟩

/-! ## Transactions -/

/-- What the caller of an aborted transaction sees. -/
def Abort.answer {β : Type} : Abort β → Except StorageError β
  | .failed error => .error error
  | .dropped answer => .ok answer

namespace Transaction

variable {α β γ : Type}

/-- However the body ends: with a value it meets `done`, without a commit it meets `aborted`. -/
def Ends (body : Transaction β α) (db : Database) (done : α → Database → Prop)
    (aborted : Abort β → Prop) : Prop :=
  match body db with
  | .ok (value, after) => done value after
  | .error abort => aborted abort

section Ends

variable {db : Database} {done : α → Database → Prop} {aborted : Abort β → Prop}

theorem ends_pure {value : α} :
    Ends (pure value : Transaction β α) db done aborted ↔ done value db := Iff.rfl

/-- The rule of sequence. -/
theorem ends_bind {body : Transaction β γ} {rest : γ → Transaction β α} :
    Ends (body >>= rest) db done aborted ↔
      Ends body db (fun value after => Ends (rest value) after done aborted) aborted := by
  simp only [Ends, bind, StateT.bind, Except.bind]
  cases body db with
  | ok result => rfl
  | error abort => rfl

theorem ends_execute {statement : Statement} {done : Nat → Database → Prop} :
    Ends (execute statement) db done aborted ↔
      (∀ affected after, statement db = .ok (affected, after) → done affected after) ∧
        ∀ error, statement db = .error error → aborted (.failed error) := by
  simp only [Ends, execute]
  cases statement db with
  | ok result =>
      obtain ⟨affected, after⟩ := result
      simp
  | error error => simp

theorem ends_attempt {statement : Statement} {done : Except StorageError Nat → Database → Prop} :
    Ends (attempt statement) db done aborted ↔
      (∀ affected after, statement db = .ok (affected, after) → done (.ok affected) after) ∧
        ∀ error, statement db = .error error → done (.error error) db := by
  simp only [Ends, attempt]
  cases statement db with
  | ok result =>
      obtain ⟨affected, after⟩ := result
      simp
  | error error => simp

theorem ends_fail {error : StorageError} :
    Ends (fail error : Transaction β α) db done aborted ↔ aborted (.failed error) := Iff.rfl

theorem ends_rollback {answer : β} :
    Ends (rollback answer : Transaction β α) db done aborted ↔ aborted (.dropped answer) := Iff.rfl

theorem ends_read {query : Database → α} :
    Ends (read query : Transaction β α) db done aborted ↔ done (query db) db := Iff.rfl

/-- A commit leaves what the body left, an abort leaves the database alone. -/
theorem commit_cases {body : Transaction β β} {done : β → Database → Prop}
    (ends : Ends body db done aborted) {answer : Except StorageError β} {after : Database}
    (committed : commit body db = (answer, after)) :
    (∃ value, answer = .ok value ∧ done value after) ∨
      after = db ∧ ∃ abort, answer = abort.answer ∧ aborted abort := by
  revert ends committed
  simp only [Ends, commit]
  cases body db with
  | ok result =>
      intro ends committed
      obtain ⟨rfl, rfl⟩ := Prod.mk.inj committed
      exact Or.inl ⟨result.1, rfl, ends⟩
  | error abort =>
      intro ends committed
      cases abort with
      | failed error =>
          obtain ⟨rfl, rfl⟩ := Prod.mk.inj committed
          exact Or.inr ⟨rfl, .failed error, rfl, ends⟩
      | dropped value =>
          obtain ⟨rfl, rfl⟩ := Prod.mk.inj committed
          exact Or.inr ⟨rfl, .dropped value, rfl, ends⟩

/-- The rule of a transaction: what holds of every end of the body holds of its caller. -/
theorem commit_outcome {body : Transaction β β}
    {outcome : Except StorageError β → Database → Prop} {answer : Except StorageError β}
    {after : Database} (committed : commit body db = (answer, after))
    (ends : Ends body db (fun value after => outcome (.ok value) after)
      fun abort => outcome abort.answer db) : outcome answer after := by
  rcases commit_cases ends committed with ⟨value, rfl, done⟩ | ⟨rfl, abort, rfl, refused⟩
  · exact done
  · exact refused

/-- A method that answers `yes` exactly when it commits. -/
theorem commit_answer {body : Transaction β β} {yes : β} {written : Database → Prop}
    {answer : Except StorageError β} {after : Database}
    (committed : commit body db = (answer, after))
    (ends : Ends body db (fun value after => value = yes ∧ written after)
      fun abort => abort.answer ≠ .ok yes) :
    answer = .ok yes ∧ written after ∨ after = db ∧ answer ≠ .ok yes := by
  rcases commit_cases ends committed with
    ⟨value, answer_eq, rfl, done⟩ | ⟨unchanged, abort, rfl, other⟩
  · exact Or.inl ⟨answer_eq, done⟩
  · exact Or.inr ⟨unchanged, other⟩

/-- The effect of a method, whatever it answers. -/
theorem commit_effect {body : Transaction β β} {effect : Database → Prop}
    {answer : Except StorageError β} {after : Database}
    (committed : commit body db = (answer, after)) (nothing : effect db)
    (ends : Ends body db (fun _ after => effect after) fun _ => True) : effect after := by
  rcases commit_cases ends committed with ⟨value, -, done⟩ | ⟨rfl, -⟩
  · exact done
  · exact nothing

end Ends
end Transaction

/-- A method of one statement answers with its effect, or fails and has none. -/
theorem Method.single_cases {β : Type} {statement : Statement} {answerOf : Nat → β} {db : Database}
    {answer : Except StorageError β} {after : Database}
    (called : Method.single statement answerOf db = (answer, after)) :
    (∃ affected, statement db = .ok (affected, after) ∧ answer = .ok (answerOf affected)) ∨
      after = db ∧ ∃ error, statement db = .error error ∧ answer = .error error := by
  revert called
  simp only [Method.single]
  cases statement db with
  | ok result =>
      intro called
      obtain ⟨rfl, rfl⟩ := Prod.mk.inj called
      exact Or.inl ⟨result.1, rfl, rfl⟩
  | error error =>
      intro called
      obtain ⟨rfl, rfl⟩ := Prod.mk.inj called
      exact Or.inr ⟨rfl, error, rfl, rfl⟩

end LanBunker
