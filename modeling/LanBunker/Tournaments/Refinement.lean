import LanBunker.Effects.Events
import LanBunker.Effects.Players
import LanBunker.Interleaving.Rely
import LanBunker.Tournaments.Results

/-!
# Every step moves every board

The database refines its boards: whatever runs beside whatever, one step of the bunker is one move
of each board.  A write that was planned on old reads is a move because the reads still say enough
of the state it writes to.
-/

namespace LanBunker

open Relational Interleaving TournamentStorage

/-! ## Tables and boards -/

section Tables

variable {db : Database} {id : TournamentId}

theorem tournament?_eq_some {row : TournamentRow} (found : tournament? id db = some row) :
    row ∈ db.tournaments ∧ row.id = id := find?_key_eq_some found

theorem tournament?_of_mem (distinct : (db.tournaments.map TournamentRow.id).Nodup)
    {row : TournamentRow} (member : row ∈ db.tournaments) :
    tournament? row.id db = some row := find?_key_of_mem distinct member

/-- A write that keeps the ids, on the row of a tournament. -/
theorem find?_map_write {rows : List TournamentRow} {write : TournamentRow → TournamentRow}
    (same_ids : ∀ row, (write row).id = row.id) :
    ((rows.map write).find? fun row => row.id = id) =
      (rows.find? fun row => row.id = id).map write := by
  rw [List.find?_map]
  congr 2
  funext row
  simp [same_ids]

/-- A write that only touches other tournaments keeps the row. -/
theorem map_write_of_ne {write : TournamentRow → TournamentRow}
    (others : ∀ row, row.id = id → write row = row) :
    (tournament? id db).map write = tournament? id db := by
  cases found : tournament? id db with
  | none => rfl
  | some row => rw [Option.map_some, others row (tournament?_eq_some found).2]

theorem filter_map_entrants {rows : List EntrantRow} {write : EntrantRow → EntrantRow}
    (same : ∀ row, (write row).tournament = row.tournament) :
    (rows.map write).filter (fun row => row.tournament = id) =
      (rows.filter fun row => row.tournament = id).map write := by
  rw [List.filter_map]
  congr 1
  exact List.filter_congr fun row _ => by simp [same]

/-- Two filters of one table, the second of which says nothing new. -/
theorem filter_filter_of_imp {α : Type*} {rows : List α} {kept named : α → Bool}
    (keeps : ∀ row ∈ rows, named row → kept row) :
    (rows.filter kept).filter named = rows.filter named := by
  rw [List.filter_filter]
  refine List.filter_congr fun row member => ?_
  cases is_named : named row with
  | false => rfl
  | true => simp [keeps row member is_named]

end Tables

/-! ## One step of the database -/

/-- Every board makes a move, and no id comes twice. -/
structure Steps (label : Label bunker) (fresh : List Nat) (db after : Database) : Prop where
  tournaments : (after.tournaments.map TournamentRow.id).Nodup
  entrants : (after.tournamentEntrants.map EntrantRow.id).Nodup
  moves : ∀ id, Board.Move label fresh id (db.board id) (after.board id)

/-- What the proofs below take from the state before the step. -/
structure Database.Good (used : List Nat) (db : Database) : Prop where
  tournaments : (db.tournaments.map TournamentRow.id).Nodup
  entrants : (db.tournamentEntrants.map EntrantRow.id).Nodup
  boards : ∀ id, (db.board id).Ok used id

/-- The entrants of a board are distinct. -/
theorem Database.Good.entrants_nodup {used : List Nat} {db : Database} (good : db.Good used)
    (id : TournamentId) : ((db.board id).entrants.map EntrantRow.id).Nodup :=
  good.entrants.sublist (List.filter_sublist.map EntrantRow.id)

section Steps

variable {label : Label bunker} {used fresh : List Nat} {db after : Database} {id : TournamentId}

/-- A step that writes nothing. -/
theorem Steps.same (good : db.Good used) (same : after = db) : Steps label fresh db after := by
  subst same
  exact ⟨good.tournaments, good.entrants, fun _ => .stay _⟩

/-- A step that no board shows. -/
theorem Steps.of_boards (good : db.Good used) (tournaments : after.tournaments = db.tournaments)
    (entrants : after.tournamentEntrants = db.tournamentEntrants)
    (boards : ∀ id, after.board id = db.board id) : Steps label fresh db after where
  tournaments := tournaments ▸ good.tournaments
  entrants := entrants ▸ good.entrants
  moves id := boards id ▸ .stay _

/-- A step that only the ledger shows, in rows that no tournament has. -/
theorem Steps.of_ledger (good : db.Good used) {entries : List PointRow}
    {events : List EventRow} {checkins : List CheckinRow}
    (same : ∀ id : TournamentId, (entries.filter fun row => row.tournament = some id) =
      db.pointEntries.filter fun row => row.tournament = some id) :
    Steps label fresh db
      { db with pointEntries := entries, events, eventCheckins := checkins } := by
  refine .of_boards good rfl rfl fun id => ?_
  simp only [Database.board, same id]
  rfl

theorem Steps.ledger_append (good : db.Good used) {row : PointRow} {checkins : List CheckinRow}
    (untied : row.tournament = none) :
    Steps label fresh db
      { db with pointEntries := db.pointEntries ++ [row], eventCheckins := checkins } := by
  refine .of_ledger good fun id => ?_
  simp [List.filter_append, untied]

/-- A delete of ledger rows that belong to an event. -/
theorem Steps.ledger_filter (good : db.Good used) {kept : PointRow → Bool}
    {events : List EventRow} {checkins : List CheckinRow}
    (keeps : ∀ row, row.event = none → kept row) :
    Steps label fresh db { db with
      pointEntries := db.pointEntries.filter kept, events, eventCheckins := checkins } := by
  refine .of_ledger good fun id => filter_filter_of_imp fun row member tied => keeps row ?_
  exact (good.boards id).tied row (List.mem_filter.mpr ⟨member, tied⟩)

/-- The account of a player goes. -/
theorem Steps.anonymised (good : db.Good used) (player : PlayerId) {players : List PlayerRow} :
    Steps label fresh db
      { db with
        players
        eventCheckins := db.eventCheckins.filter fun row => row.player ≠ player
        pointEntries := (db.pointEntries.filter fun row => row.player ≠ player).map fun row =>
          if row.createdBy = some player then { row with createdBy := none } else row
        tournamentEntrants := db.tournamentEntrants.map fun row =>
          if row.player = some player then { row with player := none } else row } where
  tournaments := good.tournaments
  entrants := by
    have same_ids : db.tournamentEntrants.map (EntrantRow.id ∘ fun row : EntrantRow =>
        if row.player = some player then { row with player := none } else row) =
        db.tournamentEntrants.map EntrantRow.id := by
      refine List.map_congr_left fun row _ => ?_
      simp only [Function.comp_apply]
      split_ifs <;> rfl
    rw [List.map_map, same_ids]
    exact good.entrants
  moves id := by
    have entrants : (db.tournamentEntrants.map fun row =>
          if row.player = some player then { row with player := none } else row).filter
          (fun row => row.tournament = id) =
        (db.tournamentEntrants.filter fun row => row.tournament = id).map fun row =>
          if row.player = some player then { row with player := none } else row :=
      filter_map_entrants fun row => by split_ifs <;> rfl
    have ledger : ((db.pointEntries.filter fun row => row.player ≠ player).map fun row =>
          if row.createdBy = some player then { row with createdBy := none } else row).filter
          (fun row => row.tournament = some id) =
        ((db.pointEntries.filter fun row => row.tournament = some id).filter
          fun row => row.player ≠ player).map fun row =>
          if row.createdBy = some player then { row with createdBy := none } else row := by
      rw [List.filter_map, List.filter_filter, List.filter_filter]
      congr 1
      refine List.filter_congr fun row _ => ?_
      have same : (if row.createdBy = some player then { row with createdBy := none }
          else row).tournament = row.tournament := by split_ifs <;> rfl
      simp [same, Bool.and_comm]
    have moved : Board.Move label fresh id (db.board id) ((db.board id).anonymised player) :=
      .anonymised _ player
    simp only [Board.anonymised] at moved
    simp only [Database.board, entrantRows, matchRowsOf, tournament?, entrants, ledger] at moved ⊢
    exact moved

/-- A step that only one board shows. -/
theorem Steps.of_one (id : TournamentId)
    (tournaments : (after.tournaments.map TournamentRow.id).Nodup)
    (entrants : (after.tournamentEntrants.map EntrantRow.id).Nodup)
    (others : ∀ other, other ≠ id → after.board other = db.board other)
    (move : Board.Move label fresh id (db.board id) (after.board id)) :
    Steps label fresh db after where
  tournaments := tournaments
  entrants := entrants
  moves other := by
    by_cases here : other = id
    · exact here ▸ move
    · exact others other here ▸ .stay _

/-! ### The row of a tournament -/

theorem Steps.created (good : db.Good used) {stored : TournamentRow}
    (new : ∀ other ∈ db.tournaments, other.id ≠ stored.id) (generated : stored.id.uuid ∈ fresh)
    (draft : stored.status = .draft) (unwon : stored.winner = none) :
    Steps label fresh db { db with tournaments := db.tournaments ++ [stored] } := by
  have absent : tournament? stored.id db = none := by
    refine List.find?_eq_none.mpr fun other member => ?_
    simpa using new other member
  refine .of_one stored.id ?_ good.entrants (fun other ne => ?_) ?_
  · rw [List.map_append, List.map_singleton]
    refine List.Nodup.append good.tournaments (List.nodup_singleton _) ?_
    rw [List.disjoint_singleton]
    intro member
    obtain ⟨other, other_mem, same⟩ := List.mem_map.mp member
    exact new other other_mem same
  · ext1
    · simp [Database.board, tournament?, List.find?_append, Ne.symm ne]
    all_goals rfl
  · have moved : Board.Move label fresh stored.id (db.board stored.id)
        { db.board stored.id with row := some stored } := .created absent generated draft unwon
    convert moved using 1
    ext1
    · have found : (db.tournaments ++ [stored]).find? (fun row => row.id = stored.id) =
          some stored := by
        rw [List.find?_append]
        simp only [tournament?] at absent
        simp [absent]
      exact found
    all_goals rfl

/-- The board after a write to the row of its tournament, with the entries it pays. -/
theorem board_row_written {write : TournamentRow → TournamentRow}
    (same_ids : ∀ row, (write row).id = row.id) {paid : List PointRow}
    (tied : ∀ row ∈ paid, row.tournament = some id) :
    ({ db with
      tournaments := db.tournaments.map write
      pointEntries := db.pointEntries ++ paid } : Database).board id =
      { db.board id with
        row := (tournament? id db).map write
        ledger := (db.board id).ledger ++ paid } := by
  ext1
  · exact find?_map_write same_ids
  · rfl
  · rfl
  · have all_paid : paid.filter (fun row => row.tournament = some id) = paid := by
      rw [List.filter_eq_self]
      intro row member
      simp [tied row member]
    simp [Database.board, List.filter_append, all_paid]

/-- A write to the row of one tournament, with the entries it pays. -/
theorem Steps.row_written (good : db.Good used) (id : TournamentId)
    {write : TournamentRow → TournamentRow}
    (same_ids : ∀ row, (write row).id = row.id) (others : ∀ row, row.id ≠ id → write row = row)
    {paid : List PointRow} (tied : ∀ row ∈ paid, row.tournament = some id)
    (move : Board.Move label fresh id (db.board id)
      { db.board id with
        row := (tournament? id db).map write
        ledger := (db.board id).ledger ++ paid }) :
    Steps label fresh db
      { db with
        tournaments := db.tournaments.map write
        pointEntries := db.pointEntries ++ paid } := by
  refine .of_one id ?_ good.entrants (fun other ne => ?_) ?_
  · have same : (db.tournaments.map write).map TournamentRow.id =
        db.tournaments.map TournamentRow.id := by
      simp [Function.comp_def, same_ids]
    rw [same]
    exact good.tournaments
  · ext1
    · refine (find?_map_write same_ids).trans (map_write_of_ne fun row row_id => others row ?_)
      rw [row_id]
      exact ne
    · rfl
    · rfl
    · have none_paid : paid.filter (fun row => row.tournament = some other) = [] := by
        rw [List.filter_eq_nil_iff]
        intro row member
        simp [tied row member, Ne.symm ne]
      simp [Database.board, List.filter_append, none_paid]
  · rw [board_row_written same_ids tied]
    exact move

theorem row_of_found (good : db.Good used) {status : TournamentStatus}
    (found : ∃ row ∈ db.tournaments, row.id = id ∧ row.status = status) :
    ∃ row, (db.board id).row = some row ∧ row.id = id ∧ row.status = status := by
  obtain ⟨row, member, rfl, status_eq⟩ := found
  exact ⟨row, tournament?_of_mem good.tournaments member, rfl, status_eq⟩

theorem Steps.edited (good : db.Good used) {expected : TournamentStatus}
    (open_status : expected ≠ .concluded) (fields : TournamentUpdate) :
    Steps label fresh db
      { db with
        tournaments := db.tournaments.map fun row =>
          if row.id = id ∧ row.status = expected then coalesced fields row else row } := by
  have step : Steps label fresh db
      { db with
        tournaments := db.tournaments.map fun row =>
          if row.id = id ∧ row.status = expected then coalesced fields row else row
        pointEntries := db.pointEntries ++ [] } := by
    refine .row_written good id (fun row => ?_) (fun row other => ?_) (by simp) ?_
    · split_ifs <;> rfl
    · rw [if_neg fun both => other both.1]
    · rw [List.append_nil]
      cases found : tournament? id db with
      | none =>
          have same : { db.board id with row := none } = db.board id := by
            ext1
            · exact found.symm
            all_goals rfl
          rw [Option.map_none, same]
          exact .stay _
      | some row =>
          rw [Option.map_some]
          split_ifs with touched
          · exact .edited found (touched.2 ▸ open_status) rfl rfl
          · have same : { db.board id with row := some row } = db.board id := by
              ext1
              · exact found.symm
              all_goals rfl
            rw [same]
            exact .stay _
  simpa using step

/-- The board after a status write. -/
theorem board_moved (good : db.Good used) {source target : TournamentStatus}
    {winner : Option EntrantId} {awards : List Award} {instant : Instant}
    {draw : Nat → PointEntryId}
    (moved : Moved id source target winner (awardRows (.tournament id) instant draw 0 awards) db
      after) :
    ∃ row, (db.board id).row = some row ∧ row.status = source ∧
      after.board id = { db.board id with
        row := some { row with status := target, winner }
        ledger := (db.board id).ledger ++ awardRows (.tournament id) instant draw 0 awards } := by
  obtain ⟨row, row_found, row_id, row_status⟩ := row_of_found good moved.found
  refine ⟨row, row_found, row_status, ?_⟩
  rw [moved.paid.after_eq]
  have tied : ∀ entry ∈ awardRows (.tournament id) instant draw 0 awards,
      entry.tournament = some id := fun entry member => (mem_awardRows member).1
  refine (board_row_written (fun row => ?_) tied).trans ?_
  · split_ifs <;> rfl
  · have found : tournament? id db = some row := row_found
    rw [found, Option.map_some, if_pos ⟨row_id, row_status⟩]

/-- A status write, by what it does to the board of its tournament. -/
theorem Steps.status_written (good : db.Good used) {source target : TournamentStatus}
    {winner : Option EntrantId} {awards : List Award} {instant : Instant}
    {draw : Nat → PointEntryId}
    (moved : Moved id source target winner (awardRows (.tournament id) instant draw 0 awards) db
      after)
    (move : ∀ row, (db.board id).row = some row → row.status = source →
      Board.Move label fresh id (db.board id)
        { db.board id with
          row := some { row with status := target, winner }
          ledger := (db.board id).ledger ++ awardRows (.tournament id) instant draw 0 awards }) :
    Steps label fresh db after := by
  obtain ⟨row, row_found, row_id, row_status⟩ := row_of_found good moved.found
  rw [moved.paid.after_eq]
  refine .row_written good id (fun row => ?_) (fun row other => ?_) (fun entry member => ?_)
    ?_
  · split_ifs <;> rfl
  · rw [if_neg fun both => other both.1]
  · exact (mem_awardRows member).1
  · have found : tournament? id db = some row := row_found
    rw [found, Option.map_some, if_pos ⟨row_id, row_status⟩]
    exact move row row_found row_status

/-- Rows that go unlink no winner of a board they were not on. -/
theorem unlinked (good : db.Good used) {gone : EntrantRow → Bool}
    (elsewhere : ∀ row, gone row → row.tournament ≠ id) {row : TournamentRow}
    (found : tournament? id db = some row) :
    (if row.winner.any fun winner => db.tournamentEntrants.any fun e => gone e ∧ e.id = winner
      then { row with winner := none } else row) = row := by
  rw [if_neg]
  intro unlinks
  cases won : row.winner with
  | none => simp [won] at unlinks
  | some winner =>
      simp only [won, Option.any_some, List.any_eq_true, decide_eq_true_eq] at unlinks
      obtain ⟨other, other_mem, other_gone, other_id⟩ := unlinks
      obtain ⟨-, entrant, entrant_mem, entrant_id⟩ := (good.boards id).won row found winner won
      obtain ⟨entrant_there, entrant_tournament⟩ := List.mem_filter.mp entrant_mem
      obtain rfl := List.inj_on_of_nodup_map good.entrants other_mem entrant_there
        (other_id.trans entrant_id.symm)
      exact elsewhere other other_gone (of_decide_eq_true entrant_tournament)

theorem unlinkWinners_ids (gone : EntrantRow → Bool) :
    (db.unlinkWinners gone).map TournamentRow.id = db.tournaments.map TournamentRow.id := by
  rw [Database.unlinkWinners, List.map_map]
  refine List.map_congr_left fun row _ => ?_
  simp only [Function.comp_apply]
  split_ifs <;> rfl

theorem find?_unlinkWinners (good : db.Good used) {gone : EntrantRow → Bool}
    (elsewhere : ∀ row, gone row → row.tournament ≠ id) :
    ((db.unlinkWinners gone).find? fun row => row.id = id) = tournament? id db := by
  rw [Database.unlinkWinners, find?_map_write fun row => by split_ifs <;> rfl]
  cases found : tournament? id db with
  | none =>
      simp only [tournament?] at found
      rw [found]
      rfl
  | some row =>
      have kept := unlinked good elsewhere found
      simp only [tournament?] at found
      rw [found, Option.map_some, kept]

/-- The rows of a tournament go together. -/
theorem Steps.deleted (good : db.Good used) (id : TournamentId) :
    Steps label fresh db
      { db with
        tournaments := (db.unlinkWinners fun e => e.tournament = id).filter fun row => row.id ≠ id
        tournamentEntrants := db.tournamentEntrants.filter fun row => row.tournament ≠ id
        matchRows := db.matchRows.filter fun row => row.tournament ≠ id
        pointEntries := db.pointEntries.filter fun row => row.tournament ≠ some id } := by
  refine .of_one id ?_ ?_ (fun other ne => ?_) ?_
  · refine List.Nodup.sublist (List.filter_sublist.map TournamentRow.id) ?_
    rw [unlinkWinners_ids]
    exact good.tournaments
  · exact List.Nodup.sublist (List.filter_sublist.map EntrantRow.id) good.entrants
  · ext1
    · have kept : ((db.unlinkWinners fun e => e.tournament = id).find? fun row =>
          row.id = other) = tournament? other db := by
        refine find?_unlinkWinners good fun row gone => ?_
        rw [of_decide_eq_true gone]
        exact Ne.symm ne
      refine Eq.trans ?_ kept
      simp only [Database.board, tournament?]
      rw [List.find?_filter]
      congr 1
      funext row
      by_cases same : row.id = other
      · simp [same, ne]
      · simp [same]
    · exact filter_filter_of_imp fun row _ named => by
        simp only [decide_eq_true_eq] at named ⊢
        exact named ▸ ne
    · exact filter_filter_of_imp fun row _ named => by
        simp only [decide_eq_true_eq] at named ⊢
        exact named ▸ ne
    · refine filter_filter_of_imp fun row _ named => ?_
      simp only [decide_eq_true_eq] at named ⊢
      rw [named]
      simpa using ne
  · convert Board.Move.deleted (db.board id) using 1
    ext1
    · refine List.find?_eq_none.mpr fun row member => ?_
      simpa using (List.mem_filter.mp member).2
    all_goals
      simp only [Database.board, entrantRows, matchRowsOf, Board.empty, List.filter_filter]
      rw [List.filter_eq_nil_iff]
      intro row _
      simp

/-! ### Entrants -/

theorem Steps.entered (good : db.Good used) {guard : EntrantGuard} {entrant : NewEntrant}
    (editable : Editable guard entrant.tournament db) (open_status : guard.status ≠ .concluded)
    (place : hasPlace entrant.tournament entrant.player db)
    (new : ∀ other ∈ db.tournamentEntrants, other.id ≠ entrant.id)
    (alone : ∀ other ∈ db.tournamentEntrants,
      other.tournament ≠ entrant.tournament ∨ other.player ≠ some entrant.player)
    (generated : entrant.id.uuid ∈ fresh) :
    Steps label fresh db
      { db with tournamentEntrants := db.tournamentEntrants ++ [entrantRow entrant] } := by
  obtain ⟨row, row_found, -, row_status⟩ := row_of_found good editable.found
  have others : ∀ other ∈ (db.board entrant.tournament).entrants,
      other.player ≠ some entrant.player := by
    intro other member
    obtain ⟨there, here⟩ := List.mem_filter.mp member
    exact (alone other there).resolve_left (not_not_intro (of_decide_eq_true here))
  have room : (db.board entrant.tournament).entrants.length < maxEntrants := by
    rcases of_decide_eq_true place with free | taken
    · rw [List.countP_eq_length_filter] at free
      exact free
    · obtain ⟨other, member, entered⟩ := List.any_eq_true.mp taken
      obtain ⟨here, same⟩ := of_decide_eq_true entered
      exact absurd same ((alone other member).resolve_left (not_not_intro here))
  refine .of_one entrant.tournament good.tournaments ?_ (fun other ne => ?_) ?_
  · rw [List.map_append, List.map_singleton]
    refine List.Nodup.append good.entrants (List.nodup_singleton _) ?_
    rw [List.disjoint_singleton]
    intro member
    obtain ⟨other, other_mem, same⟩ := List.mem_map.mp member
    exact new other other_mem same
  · ext1
    · rfl
    · simp [Database.board, entrantRows, entrantRow, List.filter_append, Ne.symm ne]
    all_goals rfl
  · have move : Board.Move label fresh entrant.tournament (db.board entrant.tournament)
        { db.board entrant.tournament with
          entrants := (db.board entrant.tournament).entrants ++ [entrantRow entrant] } :=
      .entered row_found (row_status ▸ open_status) editable.no_bracket generated room
        fun other member _ => others other member
    convert move using 1
    ext1
    · rfl
    · simp [Database.board, entrantRows, entrantRow, List.filter_append]
    all_goals rfl

/-- A write to the entrants of one tournament, with other matches for it. -/
theorem Steps.entrants_written (good : db.Good used) (id : TournamentId)
    {write : EntrantRow → EntrantRow} (same_ids : ∀ row, (write row).id = row.id)
    (same_tournament : ∀ row, (write row).tournament = row.tournament)
    (others : ∀ row, row.tournament ≠ id → write row = row) {rows : List MatchRow}
    (other_rows : ∀ other, other ≠ id → (rows.filter fun row => row.tournament = other) =
      db.matchRows.filter fun row => row.tournament = other)
    (move : Board.Move label fresh id (db.board id)
      { db.board id with
        entrants := (db.board id).entrants.map write
        rows := rows.filter fun row => row.tournament = id }) :
    Steps label fresh db
      { db with tournamentEntrants := db.tournamentEntrants.map write, matchRows := rows } := by
  refine .of_one id good.tournaments ?_ (fun other ne => ?_) ?_
  · have same : (db.tournamentEntrants.map write).map EntrantRow.id =
        db.tournamentEntrants.map EntrantRow.id := by
      simp [Function.comp_def, same_ids]
    rw [same]
    exact good.entrants
  · ext1
    · rfl
    · refine (filter_map_entrants same_tournament).trans ?_
      refine (List.map_congr_left fun row member => ?_).trans (List.map_id' _)
      refine others row ?_
      rw [of_decide_eq_true (List.mem_filter.mp member).2]
      exact ne
    · exact other_rows other ne
    · rfl
  · convert move using 1
    ext1
    · rfl
    · exact filter_map_entrants same_tournament
    all_goals rfl

theorem Steps.rated (good : db.Good used) {guard : EntrantGuard} (editable : Editable guard id db)
    (open_status : guard.status ≠ .concluded) (player : PlayerId) (skill : SkillLevel) :
    Steps label fresh db
      { db with
        tournamentEntrants := db.tournamentEntrants.map fun row =>
          if row.tournament = id ∧ row.player = some player then { row with skill := some skill }
          else row } := by
  obtain ⟨row, row_found, -, row_status⟩ := row_of_found good editable.found
  have same_ids : ∀ row : EntrantRow, (if row.tournament = id ∧ row.player = some player then
      { row with skill := some skill } else row).id = row.id := by
    intro row
    split_ifs <;> rfl
  refine .entrants_written good id same_ids (fun row => ?_) (fun row other => ?_)
    (fun other _ => rfl) ?_
  · split_ifs <;> rfl
  · rw [if_neg fun both => other both.1]
  · refine .rated row_found (row_status ▸ open_status) editable.no_bracket same_ids fun row => ?_
    split_ifs <;> rfl

theorem Steps.left (good : db.Good used) {guard : EntrantGuard} (editable : Editable guard id db)
    (open_status : guard.status ≠ .concluded) (left : Left id db after) :
    Steps label fresh db after := by
  obtain ⟨row, row_found, -, row_status⟩ := row_of_found good editable.found
  have open_row : row.status ≠ .concluded := row_status ▸ open_status
  obtain ⟨gone, of_id, rfl⟩ := left
  refine .of_one id ?_ ?_ (fun other ne => ?_) ?_
  · rw [unlinkWinners_ids]
    exact good.tournaments
  · exact List.Nodup.sublist (List.filter_sublist.map EntrantRow.id) good.entrants
  · ext1
    · refine find?_unlinkWinners good fun row row_gone => ?_
      rw [of_id row row_gone]
      exact Ne.symm ne
    · refine filter_filter_of_imp fun row _ named => ?_
      cases row_gone : gone row with
      | false => rfl
      | true =>
          rw [of_id row row_gone] at named
          exact absurd (of_decide_eq_true named) (Ne.symm ne)
    all_goals rfl
  · have move : Board.Move label fresh id (db.board id)
        { db.board id with entrants := (db.board id).entrants.filter fun row => !gone row } :=
      .left row_found open_row editable.no_bracket
    convert move using 1
    ext1
    · have found : tournament? id db = some row := row_found
      have unwon := (good.boards id).winner_of_open row_found open_row
      have kept : tournament? id { db with tournaments := db.unlinkWinners gone } =
          (tournament? id db).map fun row =>
            if row.winner.any fun winner =>
              db.tournamentEntrants.any fun e => gone e ∧ e.id = winner
            then { row with winner := none } else row :=
        find?_map_write fun row => by split_ifs <;> rfl
      refine kept.trans ?_
      rw [found, Option.map_some, unwon, if_neg (by simp)]
      exact row_found.symm
    · simp only [Database.board, entrantRows]
      rw [List.filter_filter, List.filter_filter]
      exact List.filter_congr fun row _ => Bool.and_comm _ _
    all_goals rfl

/-! ### The bracket -/

/-- The match rows of a tournament after a new bracket was written. -/
theorem filter_rows_seated (rows : List MatchRow) (bracket : List Match) :
    ((rows.filter fun row => row.tournament ≠ id) ++
      bracket.map (MatchRow.ofMatch id)).filter (fun row => row.tournament = id) =
        bracket.map (MatchRow.ofMatch id) := by
  rw [List.filter_append, List.filter_filter]
  have all : (bracket.map (MatchRow.ofMatch id)).filter (fun row => row.tournament = id) =
      bracket.map (MatchRow.ofMatch id) := by
    rw [List.filter_eq_self]
    intro row member
    obtain ⟨m, -, rfl⟩ := List.mem_map.mp member
    simp [MatchRow.ofMatch]
  rw [all]
  simp

/-- The board after a new bracket was written: its rows, and the entrants it had. -/
theorem board_seated {expected : TournamentStatus} {order : List EntrantId} {rows : List Match}
    (seated : Seated id expected order rows db after) :
    (after.board id).rows = rows.map (MatchRow.ofMatch id) ∧
      (after.board id).entrants.map EntrantRow.id = (db.board id).entrants.map EntrantRow.id := by
  have entrants_eq : (db.tournamentEntrants.map fun row =>
        seatRow id 1 order (unseatRow id row)).filter (fun row => row.tournament = id) =
      (db.tournamentEntrants.filter fun row => row.tournament = id).map fun row =>
        seatRow id 1 order (unseatRow id row) :=
    filter_map_entrants fun row => by rw [seatRow_tournament, unseatRow_tournament]
  rw [seated.after_eq, List.map_map]
  refine ⟨filter_rows_seated _ _, ?_⟩
  refine (congrArg (List.map EntrantRow.id) entrants_eq).trans ?_
  rw [List.map_map]
  refine List.map_congr_left fun row _ => ?_
  rw [Function.comp_apply, seatRow_id, unseatRow_id]

theorem Steps.drawn (good : db.Good used) {order : List EntrantId} {draw : Nat → MatchId}
    {bracket : Bracket} (seated : Seated id .live order bracket.flat db after)
    (generated : Bracket.generate draw order = .ok bracket) (ids : bracket.DistinctIds)
    (new : ∀ m ∈ bracket.flat, m.id.uuid ∈ fresh) (order_nodup : order.Nodup)
    (answered : Board.Answered label (.replaceBracket id .live order bracket) .done) :
    Steps label fresh db after := by
  obtain ⟨row, row_found, -, row_status⟩ := row_of_found good seated.found
  have same_ids : ∀ row, (seatRow id 1 order (unseatRow id row)).id = row.id := fun row => by
    rw [seatRow_id, unseatRow_id]
  have same_tournament : ∀ row, (seatRow id 1 order (unseatRow id row)).tournament =
      row.tournament := fun row => by rw [seatRow_tournament, unseatRow_tournament]
  rw [seated.after_eq, List.map_map]
  refine .entrants_written good id same_ids same_tournament (fun row other => ?_)
    (fun other ne => ?_) ?_
  · have unmoved : unseatRow id row = row := by rw [unseatRow, if_neg other]
    rw [unmoved, seatRow_of_not_mem fun here => absurd here other]
  · rw [List.filter_append, filter_filter_of_imp fun row _ named => by
      simp only [decide_eq_true_eq] at named ⊢
      exact named ▸ ne]
    have elsewhere : (bracket.flat.map (MatchRow.ofMatch id)).filter
        (fun row => row.tournament = other) = [] := by
      rw [List.filter_eq_nil_iff]
      intro row member
      obtain ⟨m, -, rfl⟩ := List.mem_map.mp member
      simp [MatchRow.ofMatch, Ne.symm ne]
    rw [elsewhere, List.append_nil]
  · rw [filter_rows_seated]
    refine .drawn row_found row_status seated.unplayed generated ids new order_nodup
      (fun entrant member => ?_) same_ids (fun entrant member place placed => ?_) answered
      fun row => seatRow_player.trans (unseatRow_player row)
    · obtain ⟨there, there_mem, there_tournament, there_id⟩ := seated.present entrant member
      exact ⟨there, List.mem_filter.mpr ⟨there_mem, decide_eq_true there_tournament⟩, there_id⟩
    · have here := of_decide_eq_true (List.mem_filter.mp member).2
      have seat : (seatRow id 1 order (unseatRow id entrant)).seed = some (1 + place) :=
        seatRow_seed ((unseatRow_tournament entrant).trans here) order_nodup
          (placed.trans (congrArg some (unseatRow_id entrant).symm))
      rw [seat, Nat.add_comm]

theorem Steps.undrawn (good : db.Good used) {expected : TournamentStatus}
    (unseated : Unseated id expected db after) (open_status : expected ≠ .concluded) :
    Steps label fresh db after := by
  obtain ⟨row, row_found, -, row_status⟩ := row_of_found good unseated.found
  rw [unseated.after_eq]
  refine .entrants_written good id unseatRow_id unseatRow_tournament (fun row other => ?_)
    (fun other ne => ?_) ?_
  · rw [unseatRow, if_neg other]
  · exact filter_filter_of_imp fun row _ named => by
      simp only [decide_eq_true_eq] at named ⊢
      exact named ▸ ne
  · have none_left : ((db.matchRows.filter fun row => row.tournament ≠ id).filter
        fun row => row.tournament = id) = [] := by
      rw [List.filter_filter, List.filter_eq_nil_iff]
      intro row _
      simp
    rw [none_left]
    exact .undrawn row_found (row_status ▸ open_status) unseated.unplayed unseatRow_id
      unseatRow_player

/-- A write of results, by what it does to the matches of its tournament. -/
theorem Steps.resulted (good : db.Good used) {expected : TournamentStatus}
    {changes : List (Match × Match)} (resulted : Resulted id expected changes db after)
    (move : Board.Move label fresh id (db.board id)
      { db.board id with rows := (after.board id).rows }) : Steps label fresh db after := by
  have after_eq := resulted.after_eq
  subst after_eq
  refine .of_one id good.tournaments good.entrants (fun other ne => ?_) move
  ext1
  · rfl
  · rfl
  · exact (filter_rewritten _ _ _).trans (if_neg ne)
  · rfl

end Steps
end LanBunker
