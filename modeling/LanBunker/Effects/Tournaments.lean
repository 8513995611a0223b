import LanBunker.Effects.Ledger
import LanBunker.Storage.Tournaments

/-!
# What the tournament writes do

One case analysis for each method that writes: either the database is as it was, or the guard held
and the rows changed as the statement says.
-/

namespace LanBunker

open Transaction

namespace TournamentStorage

variable {db after : Database} {id : TournamentId}

/-! ## The tournament itself -/

theorem create_cases {row : NewTournamentRow} {answer : Except StorageError Unit}
    (called : create row db = (answer, after)) :
    after = db ∨
      (∀ other ∈ db.tournaments, other.id ≠ row.id) ∧
        ∃ stored : TournamentRow, stored.id = row.id ∧ stored.status = .draft ∧
          stored.winner = none ∧ after = { db with tournaments := db.tournaments ++ [stored] } := by
  rcases Method.single_cases called with ⟨affected, inserted, -⟩ | ⟨unchanged, -⟩
  · simp only [insertTournament, guarded_cons_ok, guarded_nil_ok, Except.ok.injEq, Prod.mk.injEq,
      List.all_eq_true, decide_eq_true_eq] at inserted
    obtain ⟨-, new, -, after_eq⟩ := inserted
    exact Or.inr ⟨new, _, rfl, rfl, rfl, after_eq.symm⟩
  · exact Or.inl unchanged

theorem update_cases {expected : TournamentStatus} {fields : TournamentUpdate}
    {answer : Except StorageError Bool} (called : update id expected fields db = (answer, after)) :
    after = db ∨
      after = { db with
        tournaments := db.tournaments.map fun row =>
          if row.id = id ∧ row.status = expected then coalesced fields row else row } := by
  rcases Method.single_cases called with ⟨affected, updated, -⟩ | ⟨unchanged, -⟩
  · simp only [updateTournament, guarded_cons_ok, guarded_nil_ok, Except.ok.injEq,
      Prod.mk.injEq] at updated
    exact Or.inr updated.2.2.symm
  · exact Or.inl unchanged

/-- What a committed move of the status leaves behind. -/
structure Moved (id : TournamentId) (source target : TournamentStatus) (winner : Option EntrantId)
    (rows : List PointRow) (db after : Database) : Prop where
  found : ∃ row ∈ db.tournaments, row.id = id ∧ row.status = source
  winner_ok : target = .concluded ∨ winner = none
  winner_there : hasWinner db winner
  paid : Paid { db with
      tournaments := db.tournaments.map fun row =>
        if row.id = id ∧ row.status = source then { row with status := target, winner } else row }
    rows after

theorem setStatus_cases {source target : TournamentStatus} {winner : Option EntrantId}
    {awards : List Award} {instant : Instant} {draw : Nat → PointEntryId}
    {answer : Except StorageError Bool}
    (called : setStatus id source target winner awards instant draw db = (answer, after)) :
    answer = .ok true ∧
        Moved id source target winner (awardRows (.tournament id) instant draw 0 awards) db after ∨
      after = db ∧ answer ≠ .ok true := by
  refine commit_answer called ?_
  rw [ends_bind, ends_execute]
  refine ⟨fun affected middle updated => ?_, fun error _ => by simp [Abort.answer]⟩
  split_ifs with none_updated
  · rw [ends_rollback]
    simp [Abort.answer]
  · simp only [updateStatus] at updated
    split_ifs at updated with touched
    · simp only [guarded_cons_ok, guarded_nil_ok, Except.ok.injEq, Prod.mk.injEq,
        decide_eq_true_eq] at updated
      obtain ⟨winner_ok, winner_there, -, rfl⟩ := updated
      rw [ends_bind]
      refine ends_insertAwards _ _ _ _ _ _ (fun after paid => ?_) fun error => ?_
      · rw [ends_pure]
        exact ⟨rfl, by simpa using touched, winner_ok, winner_there, paid⟩
      · simp [Abort.answer]
    · simp only [Except.ok.injEq, Prod.mk.injEq] at updated
      exact absurd updated.1.symm none_updated

/-- What a move of the status asks of the database, whatever identifiers and instant it writes. -/
structure Accepts (id : TournamentId) (source target : TournamentStatus)
    (winner : Option EntrantId) (awards : List Award) (db : Database) : Prop where
  found : ∃ row ∈ db.tournaments, row.id = id ∧ row.status = source
  winner_ok : target = .concluded ∨ winner = none
  winner_there : hasWinner db winner
  payable : Payable { db with
      tournaments := db.tournaments.map fun row =>
        if row.id = id ∧ row.status = source then { row with status := target, winner } else row }
    (.tournament id) awards

/-- The status statement alone: it moves a row, or not. -/
private theorem updateStatus_cases (id : TournamentId) (source target : TournamentStatus)
    (winner : Option EntrantId) (db : Database) :
    ((∃ row ∈ db.tournaments, row.id = id ∧ row.status = source) ∧
        (target = .concluded ∨ winner = none) ∧ hasWinner db winner ∧
        ∃ affected, affected ≠ 0 ∧ updateStatus id source target winner db = .ok (affected,
          { db with
            tournaments := db.tournaments.map fun row =>
              if row.id = id ∧ row.status = source
                then { row with status := target, winner } else row })) ∨
      ¬((∃ row ∈ db.tournaments, row.id = id ∧ row.status = source) ∧
        (target = .concluded ∨ winner = none) ∧ hasWinner db winner) ∧
        ∀ affected after, updateStatus id source target winner db = .ok (affected, after) →
          affected = 0 := by
  rw [updateStatus]
  by_cases found : ∃ row ∈ db.tournaments, row.id = id ∧ row.status = source
  · have touched : (db.tournaments.any fun row => row.id = id ∧ row.status = source) = true := by
      obtain ⟨row, member, named⟩ := found
      exact List.any_eq_true.mpr ⟨row, member, decide_eq_true named⟩
    have counted : db.tournaments.countP (fun row => row.id = id ∧ row.status = source) ≠ 0 := by
      obtain ⟨row, member, named⟩ := found
      exact Nat.ne_of_gt (List.countP_pos_iff.mpr ⟨row, member, decide_eq_true named⟩)
    by_cases checks : (target = .concluded ∨ winner = none) ∧ hasWinner db winner
    · refine Or.inl ⟨found, checks.1, checks.2, _, counted, ?_⟩
      simp only [touched, if_true, guarded, checks.1, checks.2, decide_true]
    · refine Or.inr ⟨fun all => checks all.2, fun affected after updated => ?_⟩
      simp only [touched, if_true, guarded_cons_ok, guarded_nil_ok, decide_eq_true_eq] at updated
      exact absurd ⟨updated.1, updated.2.1⟩ checks
  · have untouched : (db.tournaments.any fun row => row.id = id ∧ row.status = source) = false := by
      rw [List.any_eq_false]
      exact fun row member named => found ⟨row, member, of_decide_eq_true named⟩
    refine Or.inr ⟨fun all => found all.1, fun affected after updated => ?_⟩
    simp only [untouched, Bool.false_eq_true, if_false, Except.ok.injEq, Prod.mk.injEq] at updated
    exact updated.1.symm

/-- A move commits exactly if the database accepts it. -/
theorem setStatus_true_iff {source target : TournamentStatus} {winner : Option EntrantId}
    {awards : List Award} {instant : Instant} {draw : Nat → PointEntryId}
    (positive : 0 < toMicros instant) (injective : Function.Injective draw)
    (fresh : ∀ other ∈ db.pointEntries, ∀ index, other.id ≠ draw index) :
    (setStatus id source target winner awards instant draw db).1 = .ok true ↔
      Accepts id source target winner awards db := by
  rcases updateStatus_cases id source target winner db with
    ⟨found, winner_ok, winner_there, affected, moved, updated⟩ | ⟨refused, none_moved⟩
  · have paid : (∃ after, (insertAwards (.tournament id) instant draw 0 awards :
        Transaction Bool Unit) { db with
          tournaments := db.tournaments.map fun row =>
            if row.id = id ∧ row.status = source
              then { row with status := target, winner } else row } = .ok ((), after)) ↔ _ :=
      insertAwards_ok_iff positive injective fun other member later _ => fresh other member later
    have accepts_iff : Accepts id source target winner awards db ↔ _ :=
      ⟨Accepts.payable, fun payable => ⟨found, winner_ok, winner_there, payable⟩⟩
    have never_dropped : Ends (insertAwards (.tournament id) instant draw 0 awards) { db with
        tournaments := db.tournaments.map fun row =>
          if row.id = id ∧ row.status = source
            then { row with status := target, winner } else row }
        (fun _ _ => True) fun abort => ∃ error, (abort : Abort Bool) = .failed error :=
      ends_insertAwards _ _ _ _ _ _ (fun _ _ => trivial) fun error => ⟨error, rfl⟩
    rw [accepts_iff, ← paid]
    simp only [setStatus, Transaction.commit, bind, StateT.bind, Except.bind, Transaction.execute,
      updated, if_neg moved]
    rw [Ends] at never_dropped
    revert never_dropped
    cases insertAwards (.tournament id) instant draw 0 awards _ with
    | ok result => exact fun _ => iff_of_true rfl ⟨result.2, rfl⟩
    | error abort =>
        rintro ⟨error, rfl⟩
        exact iff_of_false (by simp) (by simp)
  · refine iff_of_false (fun committed => ?_) fun accepts =>
      refused ⟨accepts.found, accepts.winner_ok, accepts.winner_there⟩
    rcases setStatus_cases (Prod.ext committed rfl) with ⟨-, moved⟩ | ⟨-, no⟩
    · exact refused ⟨moved.found, moved.winner_ok, moved.winner_there⟩
    · exact no rfl

/-- Where the status is another one, a move writes nothing and says so. -/
theorem setStatus_of_moved {source target : TournamentStatus} {winner : Option EntrantId}
    {awards : List Award} {instant : Instant} {draw : Nat → PointEntryId}
    (moved : ∀ row ∈ db.tournaments, row.id = id → row.status ≠ source) :
    setStatus id source target winner awards instant draw db = (.ok false, db) := by
  have untouched : (db.tournaments.any fun row => row.id = id ∧ row.status = source) = false := by
    rw [List.any_eq_false]
    intro row member named
    obtain ⟨row_id, status⟩ := of_decide_eq_true named
    exact moved row member row_id status
  simp only [setStatus, Transaction.commit, bind, StateT.bind, Except.bind, Transaction.execute,
    updateStatus, untouched, Bool.false_eq_true, if_false, if_true, Transaction.rollback]

theorem delete_cases {answer : Except StorageError Bool} (called : delete id db = (answer, after)) :
    after = db ∨
      after = { db with
        tournaments := (db.unlinkWinners fun e => e.tournament = id).filter fun row => row.id ≠ id
        tournamentEntrants := db.tournamentEntrants.filter fun row => row.tournament ≠ id
        matchRows := db.matchRows.filter fun row => row.tournament ≠ id
        pointEntries := db.pointEntries.filter fun row => row.tournament ≠ some id } := by
  rcases Method.single_cases called with ⟨affected, deleted, -⟩ | ⟨unchanged, -⟩
  · simp only [deleteTournament] at deleted
    split_ifs at deleted with found
    · simp only [Except.ok.injEq, Prod.mk.injEq] at deleted
      exact Or.inr deleted.2.symm
    · simp only [Except.ok.injEq, Prod.mk.injEq] at deleted
      exact Or.inl deleted.2.symm
  · exact Or.inl unchanged

/-! ## Entrants -/

/-- What the guard of an entrant write found. -/
structure Editable (guard : EntrantGuard) (id : TournamentId) (db : Database) : Prop where
  found : ∃ row ∈ db.tournaments, row.id = id ∧ row.status = guard.status
  no_bracket : matchRowsOf id db = []

theorem editable_of_holds {guard : EntrantGuard} (holds : holds guard id db) :
    Editable guard id db := by
  simp only [TournamentStorage.holds, Bool.and_eq_true, List.any_eq_true, decide_eq_true_eq,
    Bool.not_eq_true', List.any_eq_false] at holds
  obtain ⟨⟨row, member, id_eq, status_eq, -⟩, no_match⟩ := holds
  refine ⟨⟨row, member, id_eq, status_eq⟩, ?_⟩
  rw [matchRowsOf, List.filter_eq_nil_iff]
  simpa using no_match

theorem addEntrant_cases {entrant : NewEntrant} {guard : EntrantGuard}
    {answer : Except StorageError Enrolled}
    (called : addEntrant entrant guard db = (answer, after)) :
    after = db ∨
      Editable guard entrant.tournament db ∧ hasPlace entrant.tournament entrant.player db ∧
        (∀ other ∈ db.tournamentEntrants, other.id ≠ entrant.id) ∧
        (∀ other ∈ db.tournamentEntrants,
          other.tournament ≠ entrant.tournament ∨ other.player ≠ some entrant.player) ∧
        db.hasPlayer entrant.player ∧
        after = { db with
          tournamentEntrants := db.tournamentEntrants ++ [entrantRow entrant] } := by
  simp only [addEntrant] at called
  split at called
  · rename_i middle inserted
    obtain ⟨-, rfl⟩ := Prod.mk.inj called
    simp only [insertEntrant] at inserted
    split_ifs at inserted with open_place
    · simp only [guarded_cons_ok, guarded_nil_ok, Except.ok.injEq, Prod.mk.injEq] at inserted
      exact absurd inserted.2.2.2.2.1 (by simp)
    · simp only [Except.ok.injEq, Prod.mk.injEq] at inserted
      exact Or.inl inserted.2.symm
  · rename_i affected middle not_zero inserted
    obtain ⟨-, rfl⟩ := Prod.mk.inj called
    simp only [insertEntrant] at inserted
    split_ifs at inserted with open_place
    · simp only [guarded_cons_ok, guarded_nil_ok, Except.ok.injEq, Prod.mk.injEq,
        List.all_eq_true, decide_eq_true_eq] at inserted
      obtain ⟨-, new, alone, there, -, rfl⟩ := inserted
      exact Or.inr
        ⟨editable_of_holds open_place.1, open_place.2, new, alone, there.2, rfl⟩
    · simp only [Except.ok.injEq, Prod.mk.injEq] at inserted
      exact Or.inl inserted.2.symm
  · exact Or.inl (Prod.mk.inj called).2.symm
  · exact Or.inl (Prod.mk.inj called).2.symm

theorem setSkill_cases {player : PlayerId} {skill : SkillLevel} {guard : EntrantGuard}
    {answer : Except StorageError Bool}
    (called : setSkill id player skill guard db = (answer, after)) :
    after = db ∨
      Editable guard id db ∧
        after = { db with
          tournamentEntrants := db.tournamentEntrants.map fun row =>
            if row.tournament = id ∧ row.player = some player then { row with skill := some skill }
            else row } := by
  rcases Method.single_cases called with ⟨affected, updated, -⟩ | ⟨unchanged, -⟩
  · simp only [Except.ok.injEq, Prod.mk.injEq] at updated
    obtain ⟨-, rfl⟩ := updated
    cases allowed : holds guard id db with
    | true =>
        refine Or.inr ⟨editable_of_holds allowed, ?_⟩
        simp
    | false =>
        refine Or.inl ?_
        simp
  · exact Or.inl unchanged

theorem unlinkWinners_of_nobody {gone : EntrantRow → Bool}
    (nobody : ∀ row ∈ db.tournamentEntrants, gone row = false) :
    db.unlinkWinners gone = db.tournaments := by
  refine (List.map_congr_left fun row _ => ?_).trans (List.map_id' _)
  cases winner : row.winner with
  | none => rfl
  | some entrant =>
      rw [if_neg]
      intro lost
      obtain ⟨entry, member, matched⟩ := List.any_eq_true.mp lost
      have is_gone := (of_decide_eq_true matched).1
      rw [nobody entry member] at is_gone
      cases is_gone

/-- What a delete of entrants leaves behind.  No bracket holds one of the rows that went. -/
theorem deleteEntrants_ok {gone : EntrantRow → Bool} {affected : Nat}
    (deleted : deleteEntrants gone db = .ok (affected, after)) :
    after = { db with
      tournaments := db.unlinkWinners gone
      tournamentEntrants := db.tournamentEntrants.filter fun row => !gone row } := by
  simp only [deleteEntrants, guarded_cons_ok, guarded_nil_ok, Except.ok.injEq,
    Prod.mk.injEq] at deleted
  exact deleted.2.2.symm

/-- What a removal of entrants of one tournament leaves behind. -/
def Left (id : TournamentId) (db after : Database) : Prop :=
  ∃ gone : EntrantRow → Bool, (∀ row, gone row → row.tournament = id) ∧
    after = { db with
      tournaments := db.unlinkWinners gone
      tournamentEntrants := db.tournamentEntrants.filter fun row => !gone row }

private theorem left_cases {guard : EntrantGuard} {names : EntrantRow → Prop}
    [DecidablePred names] {answer : Except StorageError Bool}
    (called : Method.single (fun db => deleteEntrants
      (fun row => row.tournament = id ∧ names row ∧ holds guard id db) db)
      (fun removed => decide (0 < removed)) db = (answer, after)) :
    after = db ∨ Editable guard id db ∧ Left id db after := by
  rcases Method.single_cases called with ⟨affected, deleted, -⟩ | ⟨unchanged, -⟩
  · have after_eq := deleteEntrants_ok deleted
    cases allowed : holds guard id db with
    | true =>
        refine Or.inr ⟨editable_of_holds allowed, ⟨_, fun row gone => ?_, after_eq⟩⟩
        have all := of_decide_eq_true gone
        exact all.1
    | false =>
        have nobody : ∀ row : EntrantRow,
            decide (row.tournament = id ∧ names row ∧ holds guard id db) = false := by
          simp [allowed]
        refine Or.inl ?_
        rw [after_eq, unlinkWinners_of_nobody fun row _ => nobody row]
        simp [nobody]
  · exact Or.inl unchanged

theorem removeEntrant_cases {entrant : EntrantId} {guard : EntrantGuard}
    {answer : Except StorageError Bool}
    (called : removeEntrant id entrant guard db = (answer, after)) :
    after = db ∨ Editable guard id db ∧ Left id db after :=
  left_cases called

theorem removeEntrantOf_cases {player : PlayerId} {guard : EntrantGuard}
    {answer : Except StorageError Bool}
    (called : removeEntrantOf id player guard db = (answer, after)) :
    after = db ∨ Editable guard id db ∧ Left id db after :=
  left_cases called

/-! ## The bracket -/

theorem bracketBlocked_done {expected : TournamentStatus}
    (free : bracketBlocked id expected db = .done) :
    (∃ row ∈ db.tournaments, row.id = id ∧ row.status = expected) ∧
      ∀ row ∈ matchRowsOf id db, row.isPlayed = false := by
  simp only [bracketBlocked] at free
  split_ifs at free with moved played
  simp only [Bool.not_eq_true', Bool.not_eq_false, List.any_eq_true, decide_eq_true_eq] at moved
  refine ⟨moved, fun row member => ?_⟩
  obtain ⟨row_mem, of_id⟩ := List.mem_filter.mp member
  simp only [List.any_eq_true, decide_eq_true_eq, not_exists, not_and,
    Bool.not_eq_true] at played
  exact played row row_mem (of_decide_eq_true of_id)

/-- The row of an entrant after the seeds from `seed` on were given out. -/
def seatRow (id : TournamentId) (seed : Nat) : List EntrantId → EntrantRow → EntrantRow
  | [], row => row
  | entrant :: order, row =>
      seatRow id (seed + 1) order
        (if row.tournament = id ∧ row.id = entrant then { row with seed := some seed } else row)

section SeatRow

variable {seed : Nat} {order : List EntrantId} {row : EntrantRow}

@[simp]
theorem seatRow_id : (seatRow id seed order row).id = row.id := by
  induction order generalizing seed row with
  | nil => rfl
  | cons entrant order ih =>
      rw [seatRow, ih]
      split_ifs <;> rfl

@[simp]
theorem seatRow_tournament : (seatRow id seed order row).tournament = row.tournament := by
  induction order generalizing seed row with
  | nil => rfl
  | cons entrant order ih =>
      rw [seatRow, ih]
      split_ifs <;> rfl

@[simp]
theorem seatRow_player : (seatRow id seed order row).player = row.player := by
  induction order generalizing seed row with
  | nil => rfl
  | cons entrant order ih =>
      rw [seatRow, ih]
      split_ifs <;> rfl

/-- A row that no seed is for stays as it is. -/
theorem seatRow_of_not_mem (absent : row.tournament = id → row.id ∉ order) :
    seatRow id seed order row = row := by
  induction order generalizing seed with
  | nil => rfl
  | cons entrant order ih =>
      rw [seatRow, if_neg, ih fun here member => absent here (List.mem_cons_of_mem _ member)]
      rintro ⟨here, rfl⟩
      exact absent here List.mem_cons_self

/-- The seed of an entrant is its place in the order. -/
theorem seatRow_seed (here : row.tournament = id) (distinct : order.Nodup) {place : Nat}
    (placed : order[place]? = some row.id) :
    (seatRow id seed order row).seed = some (seed + place) := by
  induction order generalizing seed place with
  | nil => simp at placed
  | cons entrant order ih =>
      obtain ⟨not_later, distinct⟩ := List.nodup_cons.mp distinct
      cases place with
      | zero =>
          obtain rfl : entrant = row.id := by simpa using placed
          have later : seatRow id (seed + 1) order { row with seed := some seed } =
              { row with seed := some seed } := seatRow_of_not_mem fun _ => not_later
          rw [seatRow, if_pos ⟨here, rfl⟩, later]
          rfl
      | succ place =>
          rw [List.getElem?_cons_succ] at placed
          rw [seatRow, if_neg, ih distinct placed]
          · congr 1
            omega
          · rintro ⟨-, rfl⟩
            exact not_later (List.mem_of_getElem? placed)

end SeatRow

/-- The row of an entrant without its seed. -/
def unseatRow (id : TournamentId) (row : EntrantRow) : EntrantRow :=
  if row.tournament = id then { row with seed := none } else row

theorem unseatRow_id (row : EntrantRow) : (unseatRow id row).id = row.id := by
  rw [unseatRow]
  split_ifs <;> rfl

theorem unseatRow_player (row : EntrantRow) : (unseatRow id row).player = row.player := by
  rw [unseatRow]
  split_ifs <;> rfl

theorem unseatRow_tournament (row : EntrantRow) :
    (unseatRow id row).tournament = row.tournament := by
  rw [unseatRow]
  split_ifs <;> rfl

private theorem ends_assignSeeds (seed : Nat) (order : List EntrantId) (db : Database)
    {done : Unit → Database → Prop} {aborted : Abort BracketWrite → Prop}
    (seated : (∀ entrant ∈ order, ∃ row ∈ db.tournamentEntrants,
        row.tournament = id ∧ row.id = entrant) →
      done () { db with tournamentEntrants := db.tournamentEntrants.map (seatRow id seed order) })
    (failed : ∀ abort, abort.answer ≠ .ok .done → aborted abort) :
    Ends (assignSeeds id seed order) db done aborted := by
  induction order generalizing seed db with
  | nil =>
      rw [assignSeeds, ends_pure]
      have same := seated (by simp)
      simpa [seatRow] using same
  | cons entrant order ih =>
      rw [assignSeeds, ends_bind, ends_execute]
      refine ⟨fun affected middle updated => ?_, fun error _ => failed _ (by simp [Abort.answer])⟩
      simp only [updateSeed, Except.ok.injEq, Prod.mk.injEq] at updated
      obtain ⟨rfl, rfl⟩ := updated
      split_ifs with not_one
      · rw [ends_rollback]
        exact failed _ (by simp [Abort.answer])
      · have one := Decidable.not_not.mp not_one
        have found : ∃ row ∈ db.tournamentEntrants, row.tournament = id ∧ row.id = entrant := by
          have some_row : 0 < _ := one ▸ Nat.one_pos
          simpa using List.countP_pos_iff.mp some_row
        refine ih (seed + 1) _ fun others => ?_
        have all : ∀ other ∈ entrant :: order, ∃ row ∈ db.tournamentEntrants,
            row.tournament = id ∧ row.id = other := by
          intro other member
          rcases List.mem_cons.mp member with rfl | later
          · exact found
          · obtain ⟨row, row_mem, row_id⟩ := others other later
            obtain ⟨before, before_mem, rfl⟩ := List.mem_map.mp row_mem
            refine ⟨before, before_mem, ?_⟩
            split_ifs at row_id <;> exact row_id
        have after := seated all
        simpa [seatRow, Function.comp_def] using after

/-- The inserts of a bracket append its rows. -/
private theorem ends_insertMatches (rows : List Match) (db : Database)
    {done : Unit → Database → Prop} {aborted : Abort BracketWrite → Prop}
    (inserted : done () { db with matchRows := db.matchRows ++ rows.map (MatchRow.ofMatch id) })
    (failed : ∀ abort, abort.answer ≠ .ok .done → aborted abort) :
    Ends (insertMatches id rows) db done aborted := by
  induction rows generalizing db with
  | nil =>
      rw [insertMatches, ends_pure]
      simpa using inserted
  | cons m rows ih =>
      rw [insertMatches, ends_bind, ends_execute]
      refine ⟨fun affected middle written => ?_, fun error _ => failed _ (by simp [Abort.answer])⟩
      simp only [insertMatch, guarded_cons_ok, guarded_nil_ok, Except.ok.injEq,
        Prod.mk.injEq] at written
      obtain ⟨-, -, -, -, -, rfl⟩ := written
      exact ih _ (by simpa using inserted)

/-- What a written bracket leaves behind. -/
structure Seated (id : TournamentId) (expected : TournamentStatus) (order : List EntrantId)
    (rows : List Match) (db after : Database) : Prop where
  found : ∃ row ∈ db.tournaments, row.id = id ∧ row.status = expected
  unplayed : ∀ row ∈ matchRowsOf id db, row.isPlayed = false
  present : ∀ entrant ∈ order, ∃ row ∈ db.tournamentEntrants,
    row.tournament = id ∧ row.id = entrant
  after_eq : after = { db with
    tournamentEntrants := (db.tournamentEntrants.map (unseatRow id)).map (seatRow id 1 order)
    matchRows := (db.matchRows.filter fun row => row.tournament ≠ id) ++
      rows.map (MatchRow.ofMatch id) }

theorem replaceBracket_cases {expected : TournamentStatus} {order : List EntrantId}
    {bracket : Bracket} {answer : Except StorageError BracketWrite}
    (called : replaceBracket id expected order bracket db = (answer, after)) :
    answer = .ok .done ∧ Seated id expected order bracket.flat db after ∨
      after = db ∧ answer ≠ .ok .done := by
  refine commit_answer called ?_
  rw [ends_bind, ends_read]
  split_ifs with blocked
  · rw [ends_rollback]
    simpa [Abort.answer] using blocked
  · obtain ⟨found, unplayed⟩ := bracketBlocked_done (Decidable.not_not.mp blocked)
    rw [ends_bind, ends_execute]
    refine ⟨fun affected middle cleared => ?_, fun error _ => by simp [Abort.answer]⟩
    simp only [clearSeeds, Except.ok.injEq, Prod.mk.injEq] at cleared
    obtain ⟨-, rfl⟩ := cleared
    rw [ends_bind]
    refine ends_assignSeeds _ _ _ (fun present => ?_) fun abort no => no
    rw [ends_bind, ends_execute]
    refine ⟨fun affected middle deleted => ?_, fun error _ => by simp [Abort.answer]⟩
    simp only [deleteMatches, Except.ok.injEq, Prod.mk.injEq] at deleted
    obtain ⟨-, rfl⟩ := deleted
    rw [ends_bind]
    refine ends_insertMatches _ _ ?_ fun abort no => no
    rw [ends_pure]
    refine ⟨rfl, found, unplayed, fun entrant member => ?_, rfl⟩
    obtain ⟨row, row_mem, row_id⟩ := present entrant member
    obtain ⟨before, before_mem, rfl⟩ := List.mem_map.mp row_mem
    refine ⟨before, before_mem, ?_⟩
    split_ifs at row_id <;> exact row_id

/-- What a deleted bracket leaves behind. -/
structure Unseated (id : TournamentId) (expected : TournamentStatus) (db after : Database) :
    Prop where
  found : ∃ row ∈ db.tournaments, row.id = id ∧ row.status = expected
  unplayed : ∀ row ∈ matchRowsOf id db, row.isPlayed = false
  after_eq : after = { db with
    tournamentEntrants := db.tournamentEntrants.map (unseatRow id)
    matchRows := db.matchRows.filter fun row => row.tournament ≠ id }

theorem deleteBracket_cases {expected : TournamentStatus}
    {answer : Except StorageError BracketWrite}
    (called : deleteBracket id expected db = (answer, after)) :
    answer = .ok .done ∧ Unseated id expected db after ∨ after = db ∧ answer ≠ .ok .done := by
  refine commit_answer called ?_
  rw [ends_bind, ends_read]
  split_ifs with blocked
  · rw [ends_rollback]
    simpa [Abort.answer] using blocked
  · obtain ⟨found, unplayed⟩ := bracketBlocked_done (Decidable.not_not.mp blocked)
    rw [ends_bind, ends_execute]
    refine ⟨fun affected middle deleted => ?_, fun error _ => by simp [Abort.answer]⟩
    simp only [deleteMatches, Except.ok.injEq, Prod.mk.injEq] at deleted
    obtain ⟨-, rfl⟩ := deleted
    rw [ends_bind, ends_execute]
    refine ⟨fun affected middle cleared => ?_, fun error _ => by simp [Abort.answer]⟩
    simp only [clearSeeds, Except.ok.injEq, Prod.mk.injEq] at cleared
    obtain ⟨-, rfl⟩ := cleared
    rw [ends_pure]
    exact ⟨rfl, found, unplayed, rfl⟩

/-! ## Results -/

/-- One change of a result on one row. -/
def changeRow (id : TournamentId) (change : Match × Match) (row : MatchRow) : MatchRow :=
  if isAsRead id change.1 change.2 row then withResult change.2 row else row

/-- Every change in turn finds the one row that still holds what was read. -/
def Rewrites (id : TournamentId) (rows : List MatchRow) : List (Match × Match) → Prop
  | [] => True
  | change :: changes =>
      rows.countP (isAsRead id change.1 change.2) = 1 ∧
        Rewrites id (rows.map (changeRow id change)) changes

/-- The rows after every change. -/
def rewritten (id : TournamentId) (rows : List MatchRow) (changes : List (Match × Match)) :
    List MatchRow :=
  changes.foldl (fun rows change => rows.map (changeRow id change)) rows

private theorem ends_writeChanges (changes : List (Match × Match)) (db : Database)
    {done : Unit → Database → Prop} {aborted : Abort Bool → Prop}
    (written : Rewrites id db.matchRows changes →
      done () { db with matchRows := rewritten id db.matchRows changes })
    (failed : ∀ abort, abort.answer ≠ .ok true → aborted abort) :
    Ends (writeChanges id changes) db done aborted := by
  induction changes generalizing db with
  | nil =>
      rw [writeChanges, ends_pure]
      exact written trivial
  | cons change changes ih =>
      obtain ⟨before, after⟩ := change
      rw [writeChanges, ends_bind, ends_execute]
      refine ⟨fun affected middle updated => ?_, fun error _ => failed _ (by simp [Abort.answer])⟩
      simp only [updateMatch, guarded_cons_ok, guarded_nil_ok, Except.ok.injEq,
        Prod.mk.injEq] at updated
      obtain ⟨-, -, rfl, rfl⟩ := updated
      split_ifs with not_one
      · rw [ends_rollback]
        exact failed _ (by simp [Abort.answer])
      · exact ih _ fun rest => written ⟨Decidable.not_not.mp not_one, rest⟩

/-- What written results leave behind. -/
structure Resulted (id : TournamentId) (expected : TournamentStatus)
    (changes : List (Match × Match)) (db after : Database) : Prop where
  found : ∃ row ∈ db.tournaments, row.id = id ∧ row.status = expected
  rewrites : Rewrites id db.matchRows changes
  after_eq : after = { db with matchRows := rewritten id db.matchRows changes }

theorem updateMatches_cases {expected : TournamentStatus} {changes : List (Match × Match)}
    {answer : Except StorageError Bool}
    (called : updateMatches id expected changes db = (answer, after)) :
    answer = .ok true ∧ Resulted id expected changes db after ∨
      after = db ∧ answer ≠ .ok true := by
  refine commit_answer called ?_
  rw [ends_bind, ends_read]
  split_ifs with moved
  · rw [ends_rollback]
    simp [Abort.answer]
  · rw [ends_bind]
    refine ends_writeChanges _ _ (fun rewrites => ?_) fun abort no => no
    rw [ends_pure]
    exact ⟨rfl, by simpa using moved, rewrites, rfl⟩

end TournamentStorage
end LanBunker
