import LanBunker.Tournaments.Runs

/-!
# The field of a bracket

A bracket is drawn over entrants that were read a while ago.  The write checks that each of them
is still there, but not that nobody was added since: an entrant that came between the read and the
write is in no match.  Where every stored entrant is in the drawn order, the bracket covers the
field for as long as it stands.
-/

namespace LanBunker

open Interleaving TournamentStorage

namespace Board

/-- The sides of round one, match by match. -/
def opening (board : Board) : List EntrantId :=
  (board.rows.filter fun row => row.round = 1).flatMap fun row =>
    row.entrantA.toList ++ row.entrantB.toList

/-- The bracket covers the whole field. -/
structure Covered (board : Board) : Prop where
  /-- The seeds are the numbers from one on, each once. -/
  seeds : (board.entrants.map EntrantRow.seed).Perm
    ((List.range board.entrants.length).map fun place => some (place + 1))
  /-- Every entrant is one side of one match of round one, and nobody else is. -/
  opening : board.opening.Perm (board.entrants.map EntrantRow.id)
  /-- No entrant stands twice. -/
  nodup : board.opening.Nodup

instance (board : Board) : Decidable board.Covered :=
  decidable_of_iff (_ ∧ _ ∧ _) ⟨fun ⟨seeds, opening, nodup⟩ => ⟨seeds, opening, nodup⟩,
    fun ⟨seeds, opening, nodup⟩ => ⟨seeds, opening, nodup⟩⟩

/-- The order a bracket was drawn over lists the entrants, and their seeds are their places. -/
def Lists (board : Board) (order : List EntrantId) : Prop :=
  (board.entrants.map EntrantRow.id).Perm order ∧
    ∀ entrant ∈ board.entrants, ∀ place, order[place]? = some entrant.id →
      entrant.seed = some (place + 1)

/-- There is no bracket, or it was drawn over the whole field. -/
def Filled (id : TournamentId) (board : Board) : Prop :=
  board.rows = [] ∨ ∃ order bracket, board.Holds id order bracket ∧ board.Lists order

variable {id : TournamentId} {board after : Board} {order : List EntrantId} {bracket : Bracket}

theorem opening_eq (coherent : Bracket.Coherent order bracket)
    (rows_eq : board.rows = bracket.flat.map (MatchRow.ofMatch id)) : board.opening = order := by
  rw [opening, rows_eq, List.filter_map, List.flatMap_map]
  exact coherent.opening_flat

theorem Holds.opening_eq (holds : board.Holds id order bracket) : board.opening = order :=
  Board.opening_eq holds.1.coherent holds.2.2

theorem Lists.seeds (lists : board.Lists order) (distinct : order.Nodup) :
    (board.entrants.map EntrantRow.seed).Perm
      ((List.range board.entrants.length).map fun place => some (place + 1)) := by
  obtain ⟨perm, seeded⟩ := lists
  have by_place : board.entrants.map EntrantRow.seed =
      (board.entrants.map EntrantRow.id).map fun entrant => some (order.idxOf entrant + 1) := by
    rw [List.map_map]
    refine List.map_congr_left fun entrant member => ?_
    have listed : entrant.id ∈ order := perm.subset (List.mem_map_of_mem member)
    have placed := List.getElem?_eq_getElem (List.idxOf_lt_length_of_mem listed)
    rw [List.getElem_idxOf] at placed
    exact seeded entrant member _ placed
  have places : order.map (fun entrant => some (order.idxOf entrant + 1)) =
      (List.range order.length).map fun place => some (place + 1) := by
    refine List.ext_getElem (by simp) fun place short _ => ?_
    rw [List.getElem_map, List.getElem_map, List.getElem_range,
      distinct.idxOf_getElem place (by simpa using short)]
  have same_length : board.entrants.length = order.length := by
    rw [← List.length_map EntrantRow.id, perm.length_eq]
  rw [by_place, same_length, ← places]
  exact perm.map _

/-- A filled board with a match is covered. -/
theorem Filled.covered (filled : board.Filled id) (some_match : board.rows ≠ [])
    (distinct : (board.entrants.map EntrantRow.id).Nodup) : board.Covered := by
  obtain ⟨order, bracket, holds, lists⟩ := filled.resolve_left some_match
  have order_nodup := lists.1.nodup_iff.mp distinct
  exact
    { seeds := lists.seeds order_nodup
      opening := holds.opening_eq ▸ lists.1.symm
      nodup := holds.opening_eq ▸ order_nodup }

/-- A write that keeps the entrants, with their seeds, and the matches. -/
theorem Filled.map_entrants (filled : board.Filled id) {write : EntrantRow → EntrantRow}
    (same : ∀ entrant, (write entrant).id = entrant.id ∧ (write entrant).seed = entrant.seed)
    {ledger : List PointRow} :
    ({ board with entrants := board.entrants.map write, ledger } : Board).Filled id := by
  refine filled.imp_right ?_
  rintro ⟨order, bracket, ⟨drawn, seated, rows_eq⟩, perm, seeded⟩
  have same_ids : ∀ entrant, (write entrant).id = entrant.id := fun entrant => (same entrant).1
  refine ⟨order, bracket, ⟨drawn, fun entrant member => ?_, rows_eq⟩, ?_, ?_⟩
  · exact (seats_map same_ids).mpr (seated entrant member)
  · have ids : (board.entrants.map write).map EntrantRow.id = board.entrants.map EntrantRow.id := by
      simp [Function.comp_def, same_ids]
    rw [ids]
    exact perm
  · intro entrant member place placed
    obtain ⟨before, before_mem, rfl⟩ := List.mem_map.mp member
    rw [same_ids before] at placed
    exact (same before).2.trans (seeded before before_mem place placed)

/-- A bracket is drawn over an order without repeats, and no result changes its opening. -/
theorem Move.opening_nodup {label : Label bunker} {fresh : List Nat}
    (move : Move label fresh id board after) (distinct : board.opening.Nodup) :
    after.opening.Nodup := by
  cases move with
  | stay => exact distinct
  | anonymised player => exact distinct
  | created => exact distinct
  | edited => exact distinct
  | moved => exact distinct
  | concluded => exact distinct
  | deleted => exact List.nodup_nil
  | entered => exact distinct
  | rated => exact distinct
  | left => exact distinct
  | drawn found live unplayed generated ids new order_nodup =>
      rw [opening_eq (Bracket.coherent_generate generated) rfl]
      exact order_nodup
  | undrawn => exact List.nodup_nil
  | resulted found open_row holds =>
      rw [opening_eq (holds.1.play _).coherent rfl, ← holds.opening_eq]
      exact distinct

end Board

/-- A bracket of the tournament that is written has every stored entrant in its order. -/
def DrawsWholeOf (id : TournamentId) (moment : Moment bunker) : Prop :=
  ∀ name request past expected order bracket,
    moment.label =
      .call name request past (.store (.tournaments (.replaceBracket id expected order bracket)))
        (.ok .done) →
    ∀ entrant ∈ (moment.before.db.board id).entrants, entrant.id ∈ order

/-- A bracket that is written has every stored entrant in its order. -/
def DrawsWhole (moment : Moment bunker) : Prop :=
  ∀ name request past id expected order bracket,
    moment.label =
      .call name request past (.store (.tournaments (.replaceBracket id expected order bracket)))
        (.ok .done) →
    ∀ entrant ∈ (moment.before.db.board id).entrants, entrant.id ∈ order

theorem Board.Filled.move {moment : Moment bunker} {fresh used : List Nat} {id : TournamentId}
    {board after : Board} (filled : board.Filled id) (ok : board.Ok used id)
    (distinct : (board.entrants.map EntrantRow.id).Nodup)
    (move : Board.Move moment.label fresh id board after)
    (before : moment.before.db.board id = board) (whole : DrawsWholeOf id moment) :
    after.Filled id := by
  cases move with
  | stay => exact filled
  | anonymised player => exact filled.map_entrants fun entrant => by split_ifs <;> exact ⟨rfl, rfl⟩
  | created absent =>
      rw [ok.absent absent]
      exact Or.inl rfl
  | edited => exact filled
  | moved => exact filled
  | concluded => exact filled
  | deleted => exact Or.inl rfl
  | entered found open_row no_bracket => exact Or.inl no_bracket
  | rated found open_row no_bracket => exact Or.inl no_bracket
  | left found open_row no_bracket => exact Or.inl no_bracket
  | @drawn row order draw bracket seat found live unplayed generated ids new order_nodup seated
      same_ids seeds answered =>
      obtain ⟨name, request, past, label⟩ := answered
      have listed := whole name request past .live order bracket label
      rw [before] at listed
      refine Or.inr ⟨order, bracket, ⟨.of_generate generated ids, fun entrant member => ?_, rfl⟩,
        ?_, fun entrant member place placed => ?_⟩
      · exact (seats_map same_ids).mpr (seated entrant member)
      · have same : (board.entrants.map seat).map EntrantRow.id =
            board.entrants.map EntrantRow.id := by
          simp [Function.comp_def, same_ids]
        rw [same, List.perm_ext_iff_of_nodup distinct order_nodup]
        intro entrant
        constructor
        · intro member
          obtain ⟨row, row_mem, rfl⟩ := List.mem_map.mp member
          exact listed row row_mem
        · intro member
          obtain ⟨row, row_mem, rfl⟩ := seated entrant member
          exact List.mem_map_of_mem row_mem
      · obtain ⟨row, row_mem, rfl⟩ := List.mem_map.mp member
        rw [same_ids row] at placed
        exact seeds row row_mem place placed
  | undrawn => exact Or.inl rfl
  | @resulted row order bracket call found open_row holds =>
      obtain ⟨listed, other, other_holds, lists⟩ := filled.resolve_left holds.rows_ne_nil
      obtain rfl : listed = order := other_holds.opening_eq.symm.trans holds.opening_eq
      exact Or.inr ⟨listed, bracket.play call, ⟨holds.1.play call, holds.2.1, rfl⟩, lists⟩

section Run

variable {clock : Instant} {trace : List (Moment bunker)} {stop : Config bunker}

/-- A bracket that was written opens with the order it was drawn over. -/
theorem opening_of_written (run : Run (Config.quiet (World.initial clock)) trace stop)
    {moment : Moment bunker} (member : moment ∈ trace) {name : Nat} {request : Request}
    {past : Past} {id : TournamentId} {expected : TournamentStatus} {order : List EntrantId}
    {bracket : Bracket}
    (label : moment.label =
      .call name request past (.store (.tournaments (.replaceBracket id expected order bracket)))
        (.ok .done)) :
    (moment.after.db.board id).rows ≠ [] ∧ (moment.after.db.board id).opening = order ∧
      (moment.after.db.board id).entrants.map EntrantRow.id =
        (moment.before.db.board id).entrants.map EntrantRow.id := by
  obtain ⟨good, lived, ⟨-, source, tournament, entrants, listed, -, -, -, -, -, draw, generated⟩,
    called⟩ := observed run member label
  have coherent := Bracket.coherent_generate generated
  rcases replaceBracket_cases called with ⟨-, seated⟩ | ⟨-, refused⟩
  · obtain ⟨rows_eq, ids⟩ := board_seated seated
    refine ⟨?_, Board.opening_eq coherent rows_eq, ids⟩
    rw [rows_eq]
    simpa using coherent.flat_ne_nil
  · exact absurd rfl refused

/-- In every run nobody stands twice in the opening of a bracket. -/
theorem opening_nodup_along (run : Run (Config.quiet (World.initial clock)) trace stop)
    (id : TournamentId) : (stop.state.db.board id).opening.Nodup := by
  let holds : TournamentId → Board → Prop := fun _ board => board.opening.Nodup
  have empty : ∀ id, holds id .empty := fun _ => List.nodup_nil
  exact (board_invariant empty (fun moment fresh id _ _ move distinct =>
    move.opening_nodup distinct) run (fun _ _ => trivial) id).1

/-- Where every bracket of a tournament is drawn over the stored entrants, every one is over its
field. -/
theorem filled_along (run : Run (Config.quiet (World.initial clock)) trace stop)
    {id : TournamentId} (whole : ∀ moment ∈ trace, DrawsWholeOf id moment) :
    (stop.state.db.board id).Filled id ∧ ∀ moment ∈ trace,
      (moment.before.db.board id).Filled id ∧ (moment.after.db.board id).Filled id := by
  let holds : TournamentId → Board → Prop := fun other board => other = id → board.Filled other
  have empty : ∀ other, holds other .empty := fun _ _ => Or.inl rfl
  obtain ⟨last, along⟩ := board_invariant empty (fun moment fresh other whole good move filled => by
    rintro rfl
    exact (filled rfl).move (good.boards other) (good.entrants_nodup other) move rfl whole)
    run whole id
  exact ⟨last rfl, fun moment member => ⟨(along moment member).1 rfl, (along moment member).2 rfl⟩⟩

/-- In a run every bracket covers its whole field exactly if every bracket is drawn over the
entrants that are stored when it is written. -/
theorem covered_iff_draws_whole (run : Run (Config.quiet (World.initial clock)) trace stop) :
    (∀ moment ∈ trace, ∀ id, (moment.after.db.board id).rows ≠ [] →
        (moment.after.db.board id).Covered) ↔
      ∀ moment ∈ trace, DrawsWhole moment := by
  constructor
  · intro covered moment member name request past id expected order bracket label entrant there
    obtain ⟨some_match, opening_eq, ids⟩ := opening_of_written run member label
    have perm := (covered moment member id some_match).opening
    rw [opening_eq, ids] at perm
    exact perm.symm.subset (List.mem_map_of_mem there)
  · intro whole moment member id some_match
    have whole_of : ∀ moment ∈ trace, DrawsWholeOf id moment :=
      fun moment member name request past => whole moment member name request past id
    have filled := ((filled_along run whole_of).2 moment member).2
    have good := ((boards_along run).2 moment member).after
    exact filled.covered some_match (good.entrants_nodup id)

end Run

set_option maxRecDepth 10000 in
/-- The cup is drawn over both entrants. -/
theorem covered_iff_draws_whole_cup :
    ∃ trace stop, Run Cup.start trace stop ∧ (stop.state.db.board Cup.id).Covered ∧
      ((∀ moment ∈ trace, ∀ id, (moment.after.db.board id).rows ≠ [] →
          (moment.after.db.board id).Covered) ↔
        ∀ moment ∈ trace, DrawsWhole moment) := by
  obtain ⟨trace, stop, run, covered⟩ := bunkerScript.exists_run Cup.start Cup.drawn
    (fun _ stop => decide (stop.state.db.board Cup.id).Covered) (by decide +kernel)
  exact ⟨trace, stop, run, of_decide_eq_true covered, covered_iff_draws_whole run⟩

set_option maxRecDepth 10000 in
/-- A request reads both entrants of the cup, the player 3 is added, and then the request writes
the bracket of two. -/
theorem not_covered :
    ∃ trace stop, Run Cup.start trace stop ∧ (stop.state.db.board Cup.id).rows ≠ [] ∧
      ¬(stop.state.db.board Cup.id).Covered := by
  obtain ⟨trace, stop, run, left_out⟩ := bunkerScript.exists_run Cup.start
    (Cup.entered ++ Cup.signup 'c' (by decide) 3 ++
      bunkerScript.alone 0 5 (.generateBracket Cup.id) { uuid := 31 } ++
      bunkerScript.alone 1 7 (.addEntrant Cup.id ⟨3⟩ none) { uuid := 23 } ++ [.advance 0 {}])
    (fun _ stop => decide ((stop.state.db.board Cup.id).rows ≠ [] ∧
      ¬(stop.state.db.board Cup.id).Covered)) (by decide +kernel)
  exact ⟨trace, stop, run, of_decide_eq_true left_out⟩

end LanBunker
