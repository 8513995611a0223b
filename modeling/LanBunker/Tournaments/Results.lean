import LanBunker.Effects.Tournaments
import LanBunker.Relational.Lookup
import LanBunker.Tournaments.Board

/-!
# Results on the stored bracket

A request reads the bracket, plays its call in memory and writes the one or two rows that changed,
each as long as it holds what was read.  Those rows decide the call: on the bracket that is stored
then it is accepted too, and the rows become the rows of its outcome.
-/

namespace LanBunker

open Relational TournamentStorage

namespace Board

/-- What a read of the matches answers. -/
def matchList (board : Board) : List Match :=
  ((board.rows.insertionSort fun left right => matchOrder left right).take readLimit).map
    MatchRow.toMatch

variable {used : List Nat} {id : TournamentId} {board : Board} {order : List EntrantId}
  {bracket : Bracket}

/-! ## Reading the bracket -/

/-- The rows of a bracket are read in the order of the bracket, and none is cut off. -/
theorem Holds.matchList_eq (holds : board.Holds id order bracket) :
    board.matchList = bracket.flat := by
  obtain ⟨drawn, -, rows_eq⟩ := holds
  have sorted :
      (board.rows.insertionSort fun left right => matchOrder left right) = board.rows := by
    apply List.Pairwise.insertionSort_eq
    rw [rows_eq, List.pairwise_map]
    refine drawn.coherent.flat_ordered.imp fun {left right} before => ?_
    have placed : left.round < right.round ∨ left.round = right.round ∧ left.slot ≤ right.slot :=
      Or.imp_right (fun same => ⟨same.1, Nat.le_of_lt same.2⟩) before
    exact decide_eq_true placed
  have whole : board.rows.take readLimit = board.rows := by
    apply List.take_of_length_le
    rw [rows_eq, List.length_map]
    exact Nat.le_of_lt drawn.flat_length
  rw [matchList, sorted, whole, rows_eq, List.map_map]
  exact List.map_id' _

theorem Holds.rows_ne_nil (holds : board.Holds id order bracket) : board.rows ≠ [] := by
  obtain ⟨drawn, -, rows_eq⟩ := holds
  rw [rows_eq]
  simpa using drawn.coherent.flat_ne_nil

theorem Holds.bracketOf_matchList (holds : board.Holds id order bracket) :
    bracketOf board.matchList = .ok (some bracket) := by
  have some_row : board.matchList.isEmpty = false := by
    rw [List.isEmpty_eq_false_iff]
    intro empty
    have no_rows := holds.rows_ne_nil
    rw [holds.2.2] at no_rows
    rw [holds.matchList_eq] at empty
    simp [empty] at no_rows
  simp only [bracketOf, some_row]
  rw [holds.matchList_eq, holds.1.coherent.fromMatches_flat]
  rfl

/-- What a read of the matches finds: nothing, or the bracket the board holds. -/
theorem Ok.bracketOf_matchList (ok : board.Ok used id) :
    board.rows = [] ∧ bracketOf board.matchList = .ok none ∨
      ∃ order bracket, board.Holds id order bracket ∧
        bracketOf board.matchList = .ok (some bracket) := by
  rcases ok.bracket with no_rows | ⟨order, bracket, holds⟩
  · exact Or.inl ⟨no_rows, by simp [matchList, no_rows, bracketOf]⟩
  · exact Or.inr ⟨order, bracket, holds, holds.bracketOf_matchList⟩

end Board

/-! ## The rows a result changes -/

section Changes

variable {id : TournamentId} {read : Bracket}

/-- A match that changed is paired with the match of its id that was read. -/
private theorem find_read (ids : read.DistinctIds) {m : Match} (member : m ∈ read.flat)
    {after : Match} (same : after.id = m.id) :
    (read.flat.find? fun row => row.id = after.id) = some m := by
  rw [same]
  exact find?_key_of_mem ids member

/-- The changes of a result: the match itself, and the match it feeds. -/
theorem changePairs_enter (ids : read.DistinctIds) {round slot : Nat} {m : Match}
    (found : read.get round slot = some m) (winner : Option EntrantId) :
    changePairs read ((read.enter round slot winner).changed round slot) =
      (m, { m with winner }) :: ((read.get (round + 1) (slot / 2)).map fun next =>
        (next, Match.fed slot winner next)).toList := by
  have here : (read.flat.find? fun row => row.id = m.id) = some m :=
    find_read ids (Bracket.mem_flat_iff.mpr ⟨round, slot, found⟩) rfl
  rw [Bracket.changed_enter found, changePairs]
  cases next_found : read.get (round + 1) (slot / 2) with
  | none => simp [here]
  | some next =>
      have there : (read.flat.find? fun row => row.id = next.id) = some next :=
        find_read ids (Bracket.mem_flat_iff.mpr ⟨_, _, next_found⟩) rfl
      simp [here, there]

/-- Changing a row that holds what was read, in the rows of a bracket. -/
theorem map_changeRow {flat : List Match} (ids : (flat.map Match.id).Nodup) {before after : Match}
    (member : before ∈ flat) (same_place : after.id = before.id ∧ after.round = before.round ∧
      after.slot = before.slot) :
    (flat.map (MatchRow.ofMatch id)).map (changeRow id (before, after)) =
      (Bracket.overwrite flat after).map (MatchRow.ofMatch id) := by
  rw [List.map_map, Bracket.overwrite, List.map_map]
  refine List.map_congr_left fun m m_mem => ?_
  obtain ⟨id_eq, round_eq, slot_eq⟩ := same_place
  by_cases same : m.id = after.id
  · obtain rfl := List.inj_on_of_nodup_map ids m_mem member (same.trans id_eq)
    have as_read : isAsRead id m after (.ofMatch id m) = true := by
      simp [isAsRead, MatchRow.ofMatch, id_eq]
    simp only [Function.comp_apply, changeRow, as_read, if_true, if_pos same]
    simp [withResult, MatchRow.ofMatch, id_eq, round_eq, slot_eq]
  · have not_read : isAsRead id before after (.ofMatch id m) = false := by
      simp [isAsRead, MatchRow.ofMatch, same]
    simp [changeRow, not_read, same]

@[simp]
theorem changeRow_tournament (change : Match × Match) (row : MatchRow) :
    (changeRow id change row).tournament = row.tournament := by
  rw [changeRow]
  split_ifs <;> rfl

@[simp]
theorem changeRow_id (change : Match × Match) (row : MatchRow) :
    (changeRow id change row).id = row.id := by
  rw [changeRow]
  split_ifs <;> rfl

/-- A change leaves the rows of other matches alone. -/
theorem changeRow_of_id_ne {change : Match × Match} {row : MatchRow}
    (other : row.id ≠ change.2.id) : changeRow id change row = row := by
  have not_read : isAsRead id change.1 change.2 row = false := by simp [isAsRead, other]
  simp [changeRow, not_read]

theorem changeRow_of_tournament_ne {change : Match × Match} {row : MatchRow}
    (other : row.tournament ≠ id) : changeRow id change row = row := by
  have not_read : isAsRead id change.1 change.2 row = false := by simp [isAsRead, other]
  simp [changeRow, not_read]

/-- Only the rows of the tournament are counted. -/
theorem rewrites_own (id : TournamentId) (rows : List MatchRow) (changes : List (Match × Match)) :
    Rewrites id (rows.filter fun row => row.tournament = id) changes ↔
      Rewrites id rows changes := by
  induction changes generalizing rows with
  | nil => rfl
  | cons change changes ih =>
      have counted : (rows.filter fun row => row.tournament = id).countP
          (isAsRead id change.1 change.2) = rows.countP (isAsRead id change.1 change.2) := by
        rw [List.countP_filter]
        refine List.countP_congr fun row _ => ?_
        simp only [isAsRead, Bool.and_eq_true, decide_eq_true_eq]
        exact ⟨And.left, fun as_read => ⟨as_read, as_read.2.1⟩⟩
      have changed : (rows.filter fun row => row.tournament = id).map (changeRow id change) =
          (rows.map (changeRow id change)).filter fun row => row.tournament = id := by
        rw [List.filter_map]
        congr 1
        refine List.filter_congr fun row _ => ?_
        rw [Function.comp_apply, changeRow_tournament]
      rw [Rewrites, Rewrites, counted, changed, ih]

/-- The rows of one tournament after the changes of another, or of its own. -/
theorem filter_rewritten (rows : List MatchRow) (changes : List (Match × Match))
    (other : TournamentId) :
    (rewritten id rows changes).filter (fun row => row.tournament = other) =
      if other = id then rewritten id (rows.filter fun row => row.tournament = other) changes
      else rows.filter fun row => row.tournament = other := by
  induction changes generalizing rows with
  | nil => simp [rewritten]
  | cons change changes ih =>
      have first : (rows.map (changeRow id change)).filter (fun row => row.tournament = other) =
          (rows.filter fun row => row.tournament = other).map (changeRow id change) := by
        rw [List.filter_map]
        congr 1
        exact List.filter_congr fun row _ => by simp
      have unfolded : ∀ rows, rewritten id rows (change :: changes) =
          rewritten id (rows.map (changeRow id change)) changes := fun _ => rfl
      rw [unfolded, unfolded, ih, first]
      split_ifs with here
      · rfl
      · refine (List.map_congr_left fun row member => ?_).trans (List.map_id' _)
        obtain rfl := of_decide_eq_true (List.mem_filter.mp member).2
        exact changeRow_of_tournament_ne here

/-- Changes of different rows, each from a match that was read to a match at its place. -/
structure ReadChanges (rows : List Match) (changes : List (Match × Match)) : Prop where
  member : ∀ change ∈ changes, change.1 ∈ rows
  same_place : ∀ change ∈ changes, change.2.id = change.1.id ∧ change.2.round = change.1.round ∧
    change.2.slot = change.1.slot
  ids : (changes.map fun change => change.2.id).Nodup

/-- As long as the rows hold what was read, every change finds its one row, and together they write
the changed matches over the rows. -/
theorem ReadChanges.written {rows : List Match} {changes : List (Match × Match)}
    (read : ReadChanges rows changes) (ids : (rows.map Match.id).Nodup) (id : TournamentId) :
    Rewrites id (rows.map (MatchRow.ofMatch id)) changes ∧
      rewritten id (rows.map (MatchRow.ofMatch id)) changes =
        ((changes.map Prod.snd).foldl Bracket.overwrite rows).map (MatchRow.ofMatch id) := by
  induction changes generalizing rows with
  | nil => exact ⟨trivial, rfl⟩
  | cons change changes ih =>
      obtain ⟨before, after⟩ := change
      obtain ⟨members, places, distinct⟩ := read
      rw [List.map_cons, List.nodup_cons] at distinct
      have before_mem : before ∈ rows := members (before, after) List.mem_cons_self
      have place : after.id = before.id ∧ after.round = before.round ∧ after.slot = before.slot :=
        places (before, after) List.mem_cons_self
      have still_ids : ((Bracket.overwrite rows after).map Match.id).Nodup := by
        rw [Bracket.overwrite_ids]
        exact ids
      have rest : ReadChanges (Bracket.overwrite rows after) changes := by
        refine ⟨fun later later_mem => ?_, fun later later_mem => ?_, distinct.2⟩
        · have later_place := places later (List.mem_cons_of_mem _ later_mem)
          refine Bracket.mem_overwrite_of_ne (members later (List.mem_cons_of_mem _ later_mem)) ?_
          intro same
          refine distinct.1 (List.mem_map.mpr ⟨later, later_mem, ?_⟩)
          rw [later_place.1, same]
        · exact places later (List.mem_cons_of_mem _ later_mem)
      have one : (rows.map (MatchRow.ofMatch id)).countP (isAsRead id before after) = 1 := by
        have same_row : ∀ m ∈ rows, isAsRead id before after (.ofMatch id m) =
            (m.id == before.id) := by
          intro m m_mem
          by_cases same : m.id = before.id
          · obtain rfl := List.inj_on_of_nodup_map ids m_mem before_mem same
            simp [isAsRead, MatchRow.ofMatch, place.1]
          · simp [isAsRead, MatchRow.ofMatch, place.1, same]
        rw [List.countP_map, List.countP_congr fun m m_mem => by
          rw [Function.comp_apply, same_row m m_mem]]
        have counted := List.count_eq_one_of_mem ids (List.mem_map_of_mem before_mem)
        rw [List.count, List.countP_map] at counted
        exact counted
      obtain ⟨rewrites, rows_eq⟩ := ih rest still_ids
      rw [Rewrites, map_changeRow ids before_mem place]
      refine ⟨⟨one, rewrites⟩, ?_⟩
      rw [List.map_cons, List.foldl_cons, ← rows_eq, ← map_changeRow ids before_mem place]
      rfl

/-- The changes that a result on the rows of the bracket makes. -/
theorem readChanges_enter (ids : read.DistinctIds) {round slot : Nat} {m : Match}
    (found : read.get round slot = some m) (winner : Option EntrantId) :
    ReadChanges read.flat
      (changePairs read ((read.enter round slot winner).changed round slot)) := by
  have m_mem : m ∈ read.flat := Bracket.mem_flat_iff.mpr ⟨_, _, found⟩
  rw [changePairs_enter ids found]
  cases next_found : read.get (round + 1) (slot / 2) with
  | none => exact ⟨by simpa using m_mem, by simp, by simp⟩
  | some next =>
      have next_mem : next ∈ read.flat := Bracket.mem_flat_iff.mpr ⟨_, _, next_found⟩
      have other : m.id ≠ next.id := (ids.next_ne found next_found).symm
      exact ⟨by simp [m_mem, next_mem], by simp, by simpa using other⟩

end Changes

/-! ## The call on the stored bracket -/

section Call

variable {id : TournamentId} {db after : Database} {board read_board : Board} {used : List Nat}
  {order read_order : List EntrantId} {bracket read : Bracket}

/-- A row that holds a match as it was read is that match of the stored bracket. -/
private theorem stored_match (holds : board.Holds id order bracket)
    (read_holds : read_board.Holds id read_order read) (same : Bracket.SameRows read bracket)
    {round slot : Nat} {m changed : Match} (found : read.get round slot = some m)
    (same_id : changed.id = m.id) {row : MatchRow} (member : row ∈ board.rows)
    (as_read : isAsRead id m changed row) : bracket.get round slot = some m := by
  obtain ⟨other, other_found, other_id⟩ :=
    same.get read_holds.1.coherent holds.1.coherent found
  rw [holds.2.2] at member
  obtain ⟨stored, stored_mem, rfl⟩ := List.mem_map.mp member
  simp only [isAsRead, MatchRow.ofMatch, decide_eq_true_eq] at as_read
  obtain ⟨id_eq, -, a_eq, b_eq, winner_eq⟩ := as_read
  have other_mem : other ∈ bracket.flat := Bracket.mem_flat_iff.mpr ⟨round, slot, other_found⟩
  obtain rfl : stored = other := List.inj_on_of_nodup_map holds.1.distinctIds stored_mem other_mem
    (id_eq.trans (same_id.trans other_id.symm))
  have stored_placed := holds.1.coherent.placed round slot stored other_found
  have read_placed := read_holds.1.coherent.placed round slot m found
  obtain ⟨_, _, _, _, _, _⟩ := stored
  obtain ⟨_, _, _, _, _, _⟩ := m
  simp_all

/-- A row that was counted is on the board. -/
private theorem row_of_count {rows : List MatchRow} {m changed : Match}
    (counted : rows.countP (isAsRead id m changed) = 1) :
    ∃ row ∈ rows, row.tournament = id ∧ row.id = changed.id ∧ isAsRead id m changed row := by
  obtain ⟨row, member, as_read⟩ := List.countP_pos_iff.mp (counted ▸ Nat.one_pos)
  refine ⟨row, member, ?_, ?_, as_read⟩
  all_goals
    simp only [isAsRead, decide_eq_true_eq] at as_read
    simp [as_read]

/-- As long as a row of the bracket that was read is on the board, the board holds that bracket,
with the results it has now. -/
private theorem holds_read {used' : List Nat} (ok : board.Ok used' id)
    (read_ok : read_board.Ok used id) (read_holds : read_board.Holds id read_order read)
    (later : Board.Later used id read_board board) {m : Match} (m_mem : m ∈ read.flat)
    {row : MatchRow} (row_on_board : row ∈ board.rows) (row_id : row.id = m.id) :
    ∃ order bracket, board.Holds id order bracket ∧ Bracket.SameRows read bracket := by
  have m_used := read_ok.rows_used (.ofMatch id m) (read_holds.2.2 ▸ List.mem_map_of_mem m_mem)
  have places : board.rows.map Board.place = read_board.rows.map Board.place := by
    refine later.rows.resolve_left fun new => ?_
    have fresh := new row row_on_board
    rw [row_id] at fresh
    exact fresh m_used
  obtain ⟨order, bracket, holds⟩ := ok.bracket.resolve_left (List.ne_nil_of_mem row_on_board)
  rw [holds.2.2, read_holds.2.2, List.map_map, List.map_map] at places
  exact ⟨order, bracket, holds, places.symm⟩

/-- The changes of a result, row by row, are the result on the bracket. -/
private theorem rewritten_enter (ids : bracket.DistinctIds) {round slot : Nat} {m : Match}
    (here : bracket.get round slot = some m) (winner : Option EntrantId) :
    rewritten id (bracket.flat.map (MatchRow.ofMatch id))
        ((m, { m with winner }) :: ((bracket.get (round + 1) (slot / 2)).map fun next =>
          (next, next.fed slot winner)).toList) =
      (bracket.enter round slot winner).flat.map (MatchRow.ofMatch id) := by
  have read := readChanges_enter ids here winner
  rw [changePairs_enter ids here] at read
  rw [(read.written ids id).2, Bracket.flat_enter ids here, Bracket.changed_enter here]
  cases bracket.get (round + 1) (slot / 2) with
  | none => rfl
  | some next => rfl

/-- A call whose changes are written finds the match it is about, and the one that match feeds, on
the stored bracket as it read them. -/
theorem resulted_stored {expected : TournamentStatus} {call : Bracket.Call} {changed : List Match}
    (resulted : Resulted id expected (changePairs read changed) db after)
    {used' : List Nat} (ok : (db.board id).Ok used' id) (read_ok : read_board.Ok used id)
    (read_holds : read_board.Holds id read_order read)
    (later : Board.Later used id read_board (db.board id))
    (called : (read.result call).1 = .ok changed) (some_change : changed ≠ []) :
    ∃ order bracket round slot m winner, (db.board id).Holds id order bracket ∧
      m.id = call.matchId ∧ read.Enterable round slot m ∧ call.Enters m winner ∧
      read.result call = (.ok changed, read.enter round slot winner) ∧
      bracket.get round slot = some m ∧
      read.get (round + 1) (slot / 2) = bracket.get (round + 1) (slot / 2) := by
  obtain ⟨error, refused⟩ | nothing | ⟨round, slot, m, winner, id_eq, enterable, enters, entered⟩ :=
    Bracket.result_cases read call
  · rw [refused] at called
    cases called
  · rw [nothing] at called
    exact absurd (Except.ok.inj called).symm some_change
  have whole := entered
  rw [entered] at called
  obtain rfl := Except.ok.inj called
  have read_ids := read_holds.1.distinctIds
  obtain ⟨-, rewrites, -⟩ := resulted
  rw [changePairs_enter read_ids enterable.found] at rewrites
  obtain ⟨counted, rest⟩ := rewrites
  -- The row of the match itself is still there, so no other bracket was drawn since.
  obtain ⟨row, row_mem, row_tournament, row_id, as_read⟩ := row_of_count counted
  have row_on_board : row ∈ (db.board id).rows :=
    List.mem_filter.mpr ⟨row_mem, decide_eq_true row_tournament⟩
  obtain ⟨order, bracket, holds, same⟩ := holds_read ok read_ok read_holds later
    (Bracket.mem_flat_iff.mpr ⟨round, slot, enterable.found⟩) row_on_board row_id
  have here : bracket.get round slot = some m :=
    stored_match holds read_holds same enterable.found rfl row_on_board as_read
  -- The row of the match it feeds is not touched by the first change.
  have next_here : ∀ next, read.get (round + 1) (slot / 2) = some next →
      bracket.get (round + 1) (slot / 2) = some next := by
    intro next next_found
    rw [next_found] at rest
    obtain ⟨row', row'_mem, row'_tournament, row'_id, as_read'⟩ := row_of_count rest.1
    obtain ⟨stored, stored_mem, rfl⟩ := List.mem_map.mp row'_mem
    rw [changeRow_id, Match.fed_id] at row'_id
    have other : stored.id ≠ m.id := row'_id ▸ read_ids.next_ne enterable.found next_found
    have untouched : changeRow id (m, { m with winner }) stored = stored :=
      changeRow_of_id_ne other
    rw [untouched] at row'_tournament as_read'
    exact stored_match holds read_holds same next_found (next.fed_id slot winner)
      (List.mem_filter.mpr ⟨stored_mem, decide_eq_true row'_tournament⟩) as_read'
  have next_eq := same.get_eq read_holds.1.coherent holds.1.coherent next_here
  exact ⟨order, bracket, round, slot, m, winner, holds, id_eq, enterable, enters, whole, here,
    next_eq⟩

/-- The changes of a call on the bracket that was read are, once they are written, the call on the
stored bracket. -/
theorem resulted_board {expected : TournamentStatus} {call : Bracket.Call} {changed : List Match}
    (resulted : Resulted id expected (changePairs read changed) db after)
    {used' : List Nat} (ok : (db.board id).Ok used' id) (read_ok : read_board.Ok used id)
    (read_holds : read_board.Holds id read_order read)
    (later : Board.Later used id read_board (db.board id))
    (called : (read.result call).1 = .ok changed) (some_change : changed ≠ []) :
    ∃ order bracket, (db.board id).Holds id order bracket ∧
      (bracket.result call).1 = .ok changed ∧
      (after.board id).rows = (bracket.play call).flat.map (MatchRow.ofMatch id) := by
  obtain ⟨order, bracket, round, slot, m, winner, holds, id_eq, enterable, enters, entered, here,
    next_eq⟩ := resulted_stored resulted ok read_ok read_holds later called some_change
  have entered_again :=
    Bracket.result_of_enters read_holds.1.distinctIds id_eq enterable enters
  obtain rfl : (read.enter round slot winner).changed round slot = changed :=
    Except.ok.inj (congrArg Prod.fst (entered_again.symm.trans entered))
  obtain ⟨-, -, after_eq⟩ := resulted
  rw [changePairs_enter read_holds.1.distinctIds enterable.found] at after_eq
  have redone := Bracket.redo holds.1.distinctIds id_eq enterable enters here next_eq
  refine ⟨order, bracket, holds, by rw [redone], ?_⟩
  have rows_after : (after.board id).rows =
      rewritten id (bracket.flat.map (MatchRow.ofMatch id))
        ((m, { m with winner }) :: ((read.get (round + 1) (slot / 2)).map fun next =>
          (next, next.fed slot winner)).toList) := by
    rw [after_eq, ← holds.2.2]
    exact (filter_rewritten _ _ _).trans (if_pos rfl)
  rw [rows_after, Bracket.play_eq, redone, next_eq]
  exact rewritten_enter holds.1.distinctIds here winner

end Call
end LanBunker
