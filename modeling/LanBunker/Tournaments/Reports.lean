import LanBunker.Tournaments.Runs

/-!
# No result is lost

Requests enter and clear results on brackets they read a while ago.  Every result that is written
is nevertheless the result of its request on the bracket that is stored then, and a bracket with a
played match is neither replaced nor deleted.
-/

namespace LanBunker

open Interleaving TournamentStorage

variable {clock : Instant} {trace : List (Moment bunker)} {stop : Config bunker}
  {moment : Moment bunker} {name : Nat} {request : Request} {past : Past} {id : TournamentId}
  {expected : TournamentStatus}

/-- A written result is the result of its request on the stored bracket. -/
theorem written_result (run : Run (Config.quiet (World.initial clock)) trace stop)
    (member : moment ∈ trace) {changes : List (Match × Match)} (some_change : changes ≠ [])
    (label : moment.label =
      .call name request past (.store (.tournaments (.updateMatches id expected changes)))
        (.ok true)) :
    ∃ call order bracket changed, request.result? = some (id, call) ∧
      (moment.before.db.board id).Holds id order bracket ∧ (bracket.result call).1 = .ok changed ∧
      (moment.after.db.board id).rows = (bracket.play call).flat.map (MatchRow.ofMatch id) := by
  obtain ⟨good, lived, ⟨-, called⟩, exec⟩ := observed run member label
  obtain ⟨source, call, tournament, rows, read, changed, requested, loaded, id_eq, rows_read,
    read_eq, result_eq, rfl⟩ := called
  obtain rfl : source = id := (loaded.tournament_id lived).symm.trans id_eq
  have changed_ne : changed ≠ [] := by
    rintro rfl
    exact some_change rfl
  rcases updateMatches_cases exec with ⟨-, resulted⟩ | ⟨-, refused⟩
  · obtain ⟨earlier, earlier_good, answered, relies⟩ := rows_read.seen lived
    obtain rfl := matches_answer answered
    rcases (earlier_good.boards source).bracketOf_matchList with
      ⟨-, no_bracket⟩ | ⟨read_order, other, read_holds, found⟩
    · rw [no_bracket] at read_eq
      cases read_eq
    · rw [found] at read_eq
      obtain rfl := Option.some.inj (Except.ok.inj read_eq)
      obtain ⟨order, bracket, holds, accepted, rows_eq⟩ :=
        resulted_board resulted (good.boards source) (earlier_good.boards source) read_holds
          (relies.2 source) result_eq changed_ne
      exact ⟨call, order, bracket, changed, requested, holds, accepted, rows_eq⟩
  · exact absurd rfl refused

/-- A bracket that is replaced holds no played match. -/
theorem replaced_unplayed (run : Run (Config.quiet (World.initial clock)) trace stop)
    (member : moment ∈ trace) {order : List EntrantId} {bracket : Bracket}
    (label : moment.label =
      .call name request past (.store (.tournaments (.replaceBracket id expected order bracket)))
        (.ok .done)) : ∀ row ∈ (moment.before.db.board id).rows, row.isPlayed = false := by
  rcases replaceBracket_cases (observed run member label).called with ⟨-, seated⟩ | ⟨-, refused⟩
  · exact seated.unplayed
  · exact absurd rfl refused

/-- A bracket that is deleted holds no played match. -/
theorem deleted_unplayed (run : Run (Config.quiet (World.initial clock)) trace stop)
    (member : moment ∈ trace)
    (label : moment.label =
      .call name request past (.store (.tournaments (.deleteBracket id expected))) (.ok .done)) :
    ∀ row ∈ (moment.before.db.board id).rows, row.isPlayed = false := by
  rcases deleteBracket_cases (observed run member label).called with ⟨-, unseated⟩ | ⟨-, refused⟩
  · exact unseated.unplayed
  · exact absurd rfl refused

/-- A step takes no result from a tournament, and writes none by halves. -/
structure KeepsResults (id : TournamentId) (moment : Moment bunker) : Prop where
  /-- A written result is accepted on the stored bracket, and the rows become its outcome. -/
  written : ∀ name request past expected changes, changes ≠ [] →
    moment.label =
      .call name request past (.store (.tournaments (.updateMatches id expected changes)))
        (.ok true) →
    ∃ call bracket changed, request.result? = some (id, call) ∧
      bracketOf (moment.before.db.board id).matchList = .ok (some bracket) ∧
      (moment.before.db.board id).rows = bracket.flat.map (MatchRow.ofMatch id) ∧
      (bracket.result call).1 = .ok changed ∧
      (moment.after.db.board id).rows = (bracket.result call).2.flat.map (MatchRow.ofMatch id)
  /-- A new bracket takes no played match away. -/
  replaced : ∀ name request past expected order bracket,
    moment.label =
      .call name request past (.store (.tournaments (.replaceBracket id expected order bracket)))
        (.ok .done) →
    ∀ row ∈ (moment.before.db.board id).rows, row.isPlayed → row ∈ (moment.after.db.board id).rows
  /-- A delete takes no played match away. -/
  deleted : ∀ name request past expected,
    moment.label =
      .call name request past (.store (.tournaments (.deleteBracket id expected))) (.ok .done) →
    ∀ row ∈ (moment.before.db.board id).rows, row.isPlayed → row ∈ (moment.after.db.board id).rows

/-- No result is lost or half written, whatever requests run beside each other. -/
theorem no_result_lost (run : Run (Config.quiet (World.initial clock)) trace stop) :
    ∀ moment ∈ trace, ∀ id, KeepsResults id moment := by
  intro moment member id
  refine
    { written := fun name request past expected changes some_change label => ?_
      replaced := fun name request past expected order bracket label row row_mem played => ?_
      deleted := fun name request past expected label row row_mem played => ?_ }
  · obtain ⟨call, order, bracket, changed, requested, holds, accepted, rows_eq⟩ :=
      written_result run member some_change label
    refine ⟨call, bracket, changed, requested, holds.bracketOf_matchList, holds.2.2, accepted, ?_⟩
    rw [rows_eq, Bracket.play_eq]
  · have unplayed := replaced_unplayed run member label row row_mem
    simp [unplayed] at played
  · have unplayed := deleted_unplayed run member label row row_mem
    simp [unplayed] at played

/-- A step that wrote a result. -/
def writesResult (moment : Moment bunker) : Bool :=
  match moment.label with
  | .call _ _ _ (.store (.tournaments (.updateMatches _ _ (_ :: _)))) (.ok true) => true
  | _ => false

set_option maxRecDepth 10000 in
/-- The final of a cup is reported. -/
theorem no_result_lost_cup :
    ∃ trace stop, Run Cup.start trace stop ∧ trace.any writesResult ∧
      ∀ moment ∈ trace, KeepsResults Cup.id moment := by
  obtain ⟨trace, stop, run, written⟩ := bunkerScript.exists_run Cup.start
    (Cup.drawn ++ alone 4 (.reportResult Cup.id ⟨31⟩ ⟨21⟩) 0)
    (fun trace _ => trace.any writesResult) (by decide +kernel)
  exact ⟨trace, stop, run, written, fun moment member => no_result_lost run moment member Cup.id⟩

end LanBunker
