import LanBunker.Interleaving.System

/-!
# Requests one at a time

A request arrives only when no other runs.  What a request has read is then touched by its own
calls and by drift alone.
-/

namespace Interleaving

variable {sys : System}

/-- A run in which no two requests overlap. -/
inductive SerialRun : Config sys → List (Moment sys) → Config sys → Prop where
  | nil (config : Config sys) : SerialRun config [] config
  | snoc {start middle stop : Config sys} {trace : List (Moment sys)} {moment : Moment sys}
      (run : SerialRun start trace middle) (step : Step middle moment stop)
      (alone : ∀ name request, moment.label = .arrive name request → middle.pool = []) :
      SerialRun start (trace ++ [moment]) stop

namespace SerialRun

variable {start stop : Config sys} {trace : List (Moment sys)}

theorem run (serial : SerialRun start trace stop) : Run start trace stop := by
  induction serial with
  | nil => exact .nil _
  | snoc serial step alone ih => exact ih.snoc step

theorem trans {middle : Config sys} {further : List (Moment sys)}
    (serial : SerialRun start trace middle) (more : SerialRun middle further stop) :
    SerialRun start (trace ++ further) stop := by
  induction more with
  | nil => simpa using serial
  | snoc more step alone ih =>
      rw [← List.append_assoc]
      exact ih.snoc step alone

/-- At most one request runs. -/
theorem pool_length_le (serial : SerialRun start trace stop) (quiet : start.pool.length ≤ 1) :
    stop.pool.length ≤ 1 := by
  induction serial with
  | nil => exact quiet
  | snoc serial step alone ih =>
      cases step with
      | arrive request =>
          rw [List.length_append, alone _ _ rfl]
          exact Nat.le_refl _
      | call => rwa [List.length_set]
      | reply => exact Nat.le_trans (List.length_eraseIdx_le _ _) ih
      | drop => exact Nat.le_trans (List.length_eraseIdx_le _ _) ih
      | drift => exact ih

/-- What holds of a request and its history when it arrives, and what its own calls and drift keep,
holds at every step it takes. -/
theorem history_invariant {holds : sys.Request → History sys.Op sys.Ans → sys.State → Prop}
    (serial : SerialRun start trace stop) (quiet : start.pool = [])
    (arrives : ∀ request state, holds request [] state)
    (calls : ∀ moment ∈ trace, ∀ name request past op answer,
      moment.label = .call name request past op answer → holds request past moment.before →
        holds request (past ++ [⟨op, answer⟩]) moment.after)
    (drifts : ∀ moment ∈ trace, moment.label = .drift → ∀ request past,
      holds request past moment.before → holds request past moment.after) :
    ∀ moment ∈ trace, ∀ name request past, moment.label.caller = some (name, request, past) →
      holds request past moment.before := by
  suffices both : (∀ thread ∈ stop.pool, holds thread.request thread.past stop.state) ∧
      ∀ moment ∈ trace, ∀ name request past,
        moment.label.caller = some (name, request, past) → holds request past moment.before from
    both.2
  induction serial with
  | nil => exact ⟨by simp [quiet], by simp⟩
  | @snoc middle stop trace moment serial step alone ih =>
      obtain ⟨here, along⟩ := ih
        (fun moment member => calls moment (List.mem_append_left _ member))
        (fun moment member => drifts moment (List.mem_append_left _ member))
      have called := calls moment (List.mem_append_right _ (List.mem_singleton_self _))
      have drifted := drifts moment (List.mem_append_right _ (List.mem_singleton_self _))
      have single := serial.pool_length_le (by simp [quiet])
      have now : ∀ name request past, moment.label.caller = some (name, request, past) →
          holds request past moment.before := by
        intro name request past caller
        obtain ⟨rest, running⟩ := step.caller_mem caller
        rw [step.before_eq]
        exact here _ running
      refine ⟨?_, fun other member => ?_⟩
      · cases step with
        | arrive request =>
            intro thread member
            rw [alone _ _ rfl, List.nil_append, List.mem_singleton] at member
            rw [member]
            exact arrives _ _
        | call running exec =>
            intro thread member
            have positive := (List.getElem?_eq_some_iff.mp running).1
            obtain ⟨lone, pool_eq⟩ := List.length_eq_one_iff.mp 
              (Nat.le_antisymm single (Nat.lt_of_le_of_lt (Nat.zero_le _) positive))
            obtain rfl := Nat.lt_one_iff.mp (Nat.lt_of_lt_of_le positive single)
            rw [pool_eq, List.set_cons_zero, List.mem_singleton] at member
            rw [member]
            exact called _ _ _ _ _ rfl (now _ _ _ rfl)
        | reply running => exact fun thread member => here thread (List.mem_of_mem_eraseIdx member)
        | drop running => exact fun thread member => here thread (List.mem_of_mem_eraseIdx member)
        | drift drift => exact fun thread member => drifted rfl _ _ (here thread member)
      · rcases List.mem_append.mp member with earlier | last
        · exact along other earlier
        · obtain rfl := List.mem_singleton.mp last
          exact now

end SerialRun
end Interleaving
