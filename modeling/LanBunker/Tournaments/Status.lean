import LanBunker.Tournaments.Runs

/-!
# Where a bracket can be

A bracket belongs to a live or a concluded tournament.  The way back from live to open checks for
a bracket when it reads the tournament, and not again when it writes: a bracket drawn between the
two ends up in an open tournament.  That write is the only way in.
-/

namespace LanBunker

open Interleaving TournamentStorage

/-- The tournament has no match, or it is live or concluded. -/
def Board.Housed (board : Board) : Prop :=
  board.rows = [] ∨ board.status = some .live ∨ board.status = some .concluded

instance (board : Board) : Decidable board.Housed := inferInstanceAs (Decidable (_ ∨ _ ∨ _))

/-- A tournament that goes back to open has no match when the write commits. -/
def ReopensEmpty (moment : Moment bunker) : Prop :=
  ∀ name request past id winner awards instant draw,
    moment.label =
      .call name request past
        (.store (.tournaments (.setStatus id .live .opened winner awards instant draw)))
        (.ok true) →
    (moment.before.db.board id).rows = []

/-- Every other move keeps a bracket where it may be. -/
theorem Board.Housed.move {moment : Moment bunker} {fresh used : List Nat} {id : TournamentId}
    {board after : Board} (housed : board.Housed) (ok : board.Ok used id)
    (move : Board.Move moment.label fresh id board after)
    (before : moment.before.db.board id = board) (reopens : ReopensEmpty moment) :
    after.Housed := by
  cases move with
  | stay => exact housed
  | anonymised player => exact housed
  | created absent =>
      rw [ok.absent absent]
      exact Or.inl rfl
  | edited found open_row same_status same_winner =>
      refine housed.imp_right fun status_eq => ?_
      simpa [status, found, same_status] using status_eq
  | @moved row target instant draw found move answered =>
      refine Or.inl ?_
      rcases housed with no_rows | status_eq
      · exact no_rows
      · -- The only move away from live goes back to open.
        have live : row.status = .live ∨ row.status = .concluded := by
          simpa [status, found] using status_eq
        obtain ⟨name, request, past, label⟩ := answered
        rcases live with live | concluded
        · cases target with
          | opened =>
              rw [live] at label
              exact before ▸ reopens name request past id none [] instant draw label
          | _ => simp [Moves, live] at move
        · simp [Moves, concluded] at move
  | concluded found => exact Or.inr (Or.inr rfl)
  | deleted => exact Or.inl rfl
  | entered found open_row no_bracket => exact Or.inl no_bracket
  | rated found open_row no_bracket => exact Or.inl no_bracket
  | left found open_row no_bracket => exact Or.inl no_bracket
  | drawn found live =>
      refine Or.inr (Or.inl ?_)
      simp [status, found, live]
  | undrawn => exact Or.inl rfl
  | resulted found open_row holds => exact Or.inr (housed.resolve_left holds.rows_ne_nil)

section Run

variable {clock : Instant} {trace : List (Moment bunker)} {stop : Config bunker}

/-- A tournament that went back to open is open. -/
theorem reopened_status (run : Run (Config.quiet (World.initial clock)) trace stop)
    {moment : Moment bunker} (member : moment ∈ trace) {name : Nat} {request : Request}
    {past : Past} {id : TournamentId} {winner : Option EntrantId} {awards : List Award}
    {instant : Instant} {draw : Nat → PointEntryId}
    (label : moment.label =
      .call name request past
        (.store (.tournaments (.setStatus id .live .opened winner awards instant draw)))
        (.ok true)) :
    (moment.after.db.board id).status = some .opened ∧
      (moment.after.db.board id).rows = (moment.before.db.board id).rows := by
  have seen := observed run member label
  rcases setStatus_cases seen.called with ⟨-, moved⟩ | ⟨-, refused⟩
  · obtain ⟨row, -, -, after_eq⟩ := board_moved seen.good moved
    rw [after_eq]
    exact ⟨rfl, rfl⟩
  · exact absurd rfl refused

/-- A run keeps every bracket in a live or concluded tournament exactly if every write back to open
finds no match. -/
theorem housed_iff_reopens_empty (run : Run (Config.quiet (World.initial clock)) trace stop) :
    (∀ moment ∈ trace, ∀ id, (moment.after.db.board id).Housed) ↔
      ∀ moment ∈ trace, ReopensEmpty moment := by
  constructor
  · intro housed moment member name request past id winner awards instant draw label
    obtain ⟨opened, rows_eq⟩ := reopened_status run member label
    have here := housed moment member id
    rw [Board.Housed, rows_eq, opened] at here
    simpa using here
  · intro reopens moment member id
    have empty : ∀ _ : TournamentId, Board.empty.Housed := fun _ => Or.inl rfl
    refine (((board_invariant empty ?_ run reopens) id).2 moment member).2
    intro moment fresh id reopens good move housed
    exact housed.move (good.boards id) move rfl reopens

end Run

set_option maxRecDepth 10000 in
/-- The cup is drawn while it is live. -/
theorem housed_iff_reopens_empty_cup :
    ∃ trace stop, Run Cup.start trace stop ∧ (stop.state.db.board Cup.id).rows ≠ [] ∧
      ((∀ moment ∈ trace, ∀ id, (moment.after.db.board id).Housed) ↔
        ∀ moment ∈ trace, ReopensEmpty moment) := by
  obtain ⟨trace, stop, run, drawn⟩ := bunkerScript.exists_run Cup.start Cup.drawn
    (fun _ stop => decide ((stop.state.db.board Cup.id).rows ≠ [])) (by decide +kernel)
  exact ⟨trace, stop, run, of_decide_eq_true drawn, housed_iff_reopens_empty run⟩

set_option maxRecDepth 10000 in
/-- A request reads a live cup without a match, the bracket is drawn, and then the request takes
the cup back to open. -/
theorem not_housed :
    ∃ trace stop, Run Cup.start trace stop ∧ ¬(stop.state.db.board Cup.id).Housed := by
  obtain ⟨trace, stop, run, lost⟩ := bunkerScript.exists_run Cup.start
    (Cup.entered ++ bunkerScript.alone 0 3 (.changeStatus Cup.id ⟨.opened, none⟩) {} ++
      bunkerScript.alone 1 7 (.generateBracket Cup.id) { uuid := 31 } ++ [.advance 0 {}])
    (fun _ stop => decide ¬(stop.state.db.board Cup.id).Housed) (by decide +kernel)
  exact ⟨trace, stop, run, of_decide_eq_true lost⟩

end LanBunker
