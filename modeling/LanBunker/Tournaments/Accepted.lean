import LanBunker.Tournaments.Results

/-!
# Writes that nothing refuses

The guards of the bracket writes name all that can refuse them: where each holds, the write is
done.
-/

namespace LanBunker

open Transaction

namespace TournamentStorage

variable {id : TournamentId} {db : Database} {status : TournamentStatus}

theorem statusHolds_eq (found : ∃ row ∈ db.tournaments, row.id = id ∧ row.status = status) :
    (db.tournaments.any fun t => t.id = id ∧ t.status = status) = true := by
  simpa using found

theorem hasTournament_of_found
    (found : ∃ row ∈ db.tournaments, row.id = id ∧ row.status = status) :
    db.hasTournament id = true := by
  obtain ⟨row, member, rfl, -⟩ := found
  simpa [Database.hasTournament] using ⟨row, member, rfl⟩

/-- What a commit answers when its body ends well. -/
theorem commit_done {β : Type} {body : Transaction β β} {value : β}
    (ends : Ends body db (fun answer _ => answer = value) fun _ => False) :
    (commit body db).1 = .ok value := by
  cases committed : commit body db with
  | mk answer left =>
      rcases commit_cases ends committed with ⟨_, rfl, rfl⟩ | ⟨-, _, -, impossible⟩
      · rfl
      · exact impossible.elim

/-! ## Results -/

/-- The sides of a match and its winner are entrants of the tournament. -/
def SidesThere (db : Database) (id : TournamentId) (m : Match) : Prop :=
  db.hasEntrant id m.entrantA = true ∧ db.hasEntrant id m.entrantB = true ∧
    db.hasEntrant id m.winner = true

/-- The columns and keys of a changed match are in order. -/
structure IsWritable (db : Database) (id : TournamentId) (m : Match) : Prop where
  sides : SidesThere db id m
  winner : m.winner = none ∨ m.winner = m.entrantA ∨ m.winner = m.entrantB

theorem ends_updateMatch {change : Match × Match} {β : Type} {done : Nat → Database → Prop}
    {aborted : Abort β → Prop} (there : db.hasTournament id = true)
    (rounds : ∀ row ∈ db.matchRows, 1 ≤ row.round) (writable : IsWritable db id change.2)
    (written : done (db.matchRows.countP (isAsRead id change.1 change.2))
      { db with matchRows := db.matchRows.map (changeRow id change) }) :
    Ends (execute (updateMatch id change.1 change.2) : Transaction β Nat) db done aborted := by
  rw [ends_execute]
  have passes : updateMatch id change.1 change.2 db =
      .ok (db.matchRows.countP (isAsRead id change.1 change.2),
        { db with matchRows := db.matchRows.map (changeRow id change) }) := by
    rw [updateMatch, guarded_passed, guarded_passed]
    · rfl
    · rw [List.all_eq_true]
      intro row member
      cases touched : isAsRead id change.1 change.2 row with
      | false => rfl
      | true =>
          have own : row.tournament = id := by
            simp only [isAsRead, decide_eq_true_eq] at touched
            exact touched.2.1
          obtain ⟨a, b, won⟩ := writable.sides
          simp [hasSides, withResult, own, there, a, b, won]
    · rw [List.all_eq_true]
      intro row member
      have columns : isMatchChecked (withResult change.2 row) = true :=
        decide_eq_true ⟨rounds row member, writable.winner⟩
      rw [columns, Bool.or_true]
  constructor
  · intro affected after updated
    rw [passes] at updated
    obtain ⟨rfl, rfl⟩ := Prod.mk.inj (Except.ok.inj updated)
    exact written
  · intro error refused
    rw [passes] at refused
    cases refused

theorem ends_writeChanges_done {changes : List (Match × Match)} {done : Unit → Database → Prop}
    {aborted : Abort Bool → Prop} (there : db.hasTournament id = true)
    (rounds : ∀ row ∈ db.matchRows, 1 ≤ row.round)
    (writable : ∀ change ∈ changes, IsWritable db id change.2)
    (rewrites : Rewrites id db.matchRows changes) (written : ∀ after, done () after) :
    Ends (writeChanges id changes) db done aborted := by
  induction changes generalizing db with
  | nil =>
      rw [writeChanges, ends_pure]
      exact written db
  | cons change changes ih =>
      obtain ⟨one, rest⟩ := rewrites
      rw [writeChanges, ends_bind]
      refine ends_updateMatch there rounds (writable change List.mem_cons_self) ?_
      rw [one, if_neg (by decide)]
      refine @ih _ there ?_ (fun later member => ?_) rest
      · intro row member
        obtain ⟨old, old_mem, rfl⟩ := List.mem_map.mp member
        have round : (changeRow id change old).round = old.round := by
          rw [changeRow]
          split_ifs <;> rfl
        rw [round]
        exact rounds old old_mem
      · have still := writable later (List.mem_cons_of_mem _ member)
        exact ⟨still.sides, still.winner⟩

/-- Changes that find their rows as they were read are written. -/
theorem updateMatches_done {changes : List (Match × Match)}
    (found : ∃ row ∈ db.tournaments, row.id = id ∧ row.status = status)
    (rounds : ∀ row ∈ db.matchRows, 1 ≤ row.round)
    (writable : ∀ change ∈ changes, IsWritable db id change.2)
    (rewrites : Rewrites id db.matchRows changes) :
    (updateMatches id status changes db).1 = .ok true := by
  refine commit_done ?_
  rw [ends_bind, ends_read, statusHolds_eq found, Bool.not_true, if_neg Bool.false_ne_true,
    ends_bind]
  refine ends_writeChanges_done (hasTournament_of_found found) rounds writable rewrites
    fun after => ?_
  rw [ends_pure]

/-! ## A bracket -/

theorem ends_assignSeeds_done {order : List EntrantId} {seed : Nat}
    {done : Unit → Database → Prop} {aborted : Abort BracketWrite → Prop}
    (ids : (db.tournamentEntrants.map EntrantRow.id).Nodup)
    (seated : ∀ entrant ∈ order, ∃ row ∈ db.tournamentEntrants,
      row.tournament = id ∧ row.id = entrant)
    (assigned : ∀ write : EntrantRow → EntrantRow,
      (∀ row, (write row).id = row.id ∧ (write row).tournament = row.tournament) →
        done () { db with tournamentEntrants := db.tournamentEntrants.map write }) :
    Ends (assignSeeds id seed order) db done aborted := by
  induction order generalizing seed db with
  | nil =>
      rw [assignSeeds, ends_pure]
      have same := assigned (fun row => row) fun _ => ⟨rfl, rfl⟩
      rwa [List.map_id'] at same
  | cons entrant order ih =>
      obtain ⟨seat, seat_mem, here, named⟩ := seated entrant List.mem_cons_self
      have alone : (db.tournamentEntrants.filter fun row =>
          row.tournament = id ∧ row.id = entrant) = [seat] :=
        Relational.filter_eq_singleton ids seat_mem (decide_eq_true ⟨here, named⟩)
          fun other _ matched => (of_decide_eq_true matched).2.trans named.symm
      have one : (db.tournamentEntrants.countP fun row =>
          row.tournament = id ∧ row.id = entrant) = 1 := by
        rw [List.countP_eq_length_filter, alone]
        rfl
      let assign : EntrantRow → EntrantRow := fun row =>
        if (fun row : EntrantRow => row.tournament = id ∧ row.id = entrant) row then
          { row with seed := some seed }
        else row
      have keeps : ∀ row, (assign row).id = row.id ∧ (assign row).tournament = row.tournament := by
        intro row
        simp only [assign]
        split_ifs <;> exact ⟨rfl, rfl⟩
      rw [assignSeeds, ends_bind, ends_execute]
      refine ⟨fun affected middle updated => ?_, fun error refused => by cases refused⟩
      obtain ⟨rfl, rfl⟩ := Prod.mk.inj (Except.ok.inj updated)
      rw [one, if_neg (by decide)]
      refine ih ?_ (fun other member => ?_) fun write same => ?_
      · exact Relational.nodup_keys_map ids fun row => (keeps row).1
      · obtain ⟨row, row_mem, row_here, row_named⟩ := seated other (List.mem_cons_of_mem _ member)
        refine ⟨assign row, List.mem_map_of_mem row_mem, ?_, ?_⟩
        · rw [(keeps row).2, row_here]
        · rw [(keeps row).1, row_named]
      · have both := assigned (write ∘ assign) fun row =>
          ⟨(same _).1.trans (keeps row).1, (same _).2.trans (keeps row).2⟩
        rw [← List.map_map] at both
        exact both

/-- New rows, in places that nothing holds. -/
structure IsInsertable (db : Database) (id : TournamentId) (rows : List Match) : Prop where
  rounds : ∀ m ∈ rows, 1 ≤ m.round
  writable : ∀ m ∈ rows, IsWritable db id m
  ids : (rows.map Match.id).Nodup
  places : rows.Pairwise fun left right => left.round ≠ right.round ∨ left.slot ≠ right.slot
  new : ∀ m ∈ rows, ∀ row ∈ db.matchRows, row.id ≠ m.id
  free : ∀ m ∈ rows, ∀ row ∈ db.matchRows,
    row.tournament ≠ id ∨ row.round ≠ m.round ∨ row.slot ≠ m.slot

theorem ends_insertMatches_done {rows : List Match} {done : Unit → Database → Prop}
    {aborted : Abort BracketWrite → Prop} (there : db.hasTournament id = true)
    (insertable : IsInsertable db id rows) (inserted : ∀ after, done () after) :
    Ends (insertMatches id rows) db done aborted := by
  induction rows generalizing db with
  | nil =>
      rw [insertMatches, ends_pure]
      exact inserted db
  | cons m rows ih =>
      obtain ⟨rounds, writable, ids, places, new, free⟩ := insertable
      rw [List.map_cons, List.nodup_cons] at ids
      rw [List.pairwise_cons] at places
      have first : m ∈ m :: rows := List.mem_cons_self
      have passes : insertMatch (.ofMatch id m) db =
          .ok (1, { db with matchRows := db.matchRows ++ [.ofMatch id m] }) := by
        rw [insertMatch, guarded_passed, guarded_passed, guarded_passed, guarded_passed]
        · rfl
        · obtain ⟨a, b, won⟩ := (writable m first).sides
          simp [hasSides, MatchRow.ofMatch, there, a, b, won]
        · rw [List.all_eq_true]
          exact fun row member => decide_eq_true (free m first row member)
        · rw [List.all_eq_true]
          exact fun row member => decide_eq_true (new m first row member)
        · exact decide_eq_true ⟨rounds m first, (writable m first).winner⟩
      rw [insertMatches, ends_bind, ends_execute, passes]
      refine ⟨fun affected middle written => ?_, fun error refused => by cases refused⟩
      obtain ⟨rfl, rfl⟩ := Prod.mk.inj (Except.ok.inj written)
      refine ih there ⟨fun other member => ?_, fun other member => ?_, ids.2, places.2,
        fun other member row row_mem => ?_, fun other member row row_mem => ?_⟩
      · exact rounds other (List.mem_cons_of_mem m member)
      · have still := writable other (List.mem_cons_of_mem m member)
        exact ⟨still.sides, still.winner⟩
      · rcases List.mem_append.mp row_mem with old | last
        · exact new other (List.mem_cons_of_mem m member) row old
        · rw [List.mem_singleton.mp last]
          exact fun same => ids.1 (List.mem_map.mpr ⟨other, member, same.symm⟩)
      · rcases List.mem_append.mp row_mem with old | last
        · exact free other (List.mem_cons_of_mem m member) row old
        · rw [List.mem_singleton.mp last]
          exact Or.inr (places.1 other member)

theorem hasEntrant_map {write : EntrantRow → EntrantRow}
    (keeps : ∀ row, (write row).id = row.id ∧ (write row).tournament = row.tournament)
    (entrant : Option EntrantId) :
    { db with tournamentEntrants := db.tournamentEntrants.map write }.hasEntrant id entrant =
      db.hasEntrant id entrant := by
  cases entrant with
  | none => rfl
  | some entrant =>
      simp only [Database.hasEntrant, Option.all_some, List.any_map]
      congr 1
      funext row
      rw [Function.comp_apply, (keeps row).1, (keeps row).2]

/-- A bracket of new matches between entrants of the tournament replaces one without results. -/
theorem replaceBracket_done {order : List EntrantId} {bracket : Bracket}
    (free : bracketBlocked id status db = .done)
    (ids : (db.tournamentEntrants.map EntrantRow.id).Nodup)
    (seated : ∀ entrant ∈ order, ∃ row ∈ db.tournamentEntrants,
      row.tournament = id ∧ row.id = entrant)
    (insertable : IsInsertable { db with matchRows := db.matchRows.filter fun row =>
      row.tournament ≠ id } id bracket.flat) :
    (replaceBracket id status order bracket db).1 = .ok .done := by
  have found := (bracketBlocked_done free).1
  refine commit_done ?_
  rw [ends_bind, ends_read, free, if_neg (by simp), ends_bind, ends_execute]
  refine ⟨fun affected middle cleared => ?_, fun error refused => by cases refused⟩
  obtain ⟨-, rfl⟩ := Prod.mk.inj (Except.ok.inj cleared)
  have unseats : ∀ row, (unseatRow id row).id = row.id ∧
      (unseatRow id row).tournament = row.tournament :=
    fun row => ⟨unseatRow_id row, unseatRow_tournament row⟩
  rw [ends_bind]
  refine ends_assignSeeds_done (Relational.nodup_keys_map ids fun row => ?_)
    (fun entrant member => ?_) fun write keeps => ?_
  · exact unseatRow_id row
  · obtain ⟨row, row_mem, here, named⟩ := seated entrant member
    exact ⟨unseatRow id row, List.mem_map_of_mem row_mem, (unseats row).2.trans here,
      (unseats row).1.trans named⟩
  · rw [ends_bind, ends_execute]
    refine ⟨fun affected middle deleted => ?_, fun error refused => by cases refused⟩
    obtain ⟨-, rfl⟩ := Prod.mk.inj (Except.ok.inj deleted)
    rw [ends_bind]
    refine ends_insertMatches_done (hasTournament_of_found found) ?_ fun after => ?_
    · refine ⟨insertable.rounds, fun m member => ?_, insertable.ids, insertable.places,
        insertable.new, insertable.free⟩
      obtain ⟨⟨a, b, won⟩, winner⟩ := insertable.writable m member
      have same : ∀ entrant : Option EntrantId, db.hasEntrant id entrant = true →
          { db with
            tournamentEntrants := (db.tournamentEntrants.map (unseatRow id)).map write
            matchRows := db.matchRows.filter fun row => row.tournament ≠ id }.hasEntrant id
              entrant = true := by
        intro entrant there
        refine ((hasEntrant_map keeps entrant).trans (hasEntrant_map unseats entrant)).trans ?_
        exact there
      exact ⟨⟨same _ a, same _ b, same _ won⟩, winner⟩
    · rw [ends_pure]

/-- A bracket without results is removed. -/
theorem deleteBracket_done (free : bracketBlocked id status db = .done) :
    (deleteBracket id status db).1 = .ok .done := by
  refine commit_done ?_
  rw [ends_bind, ends_read, free, if_neg (by simp), ends_bind, ends_execute]
  refine ⟨fun affected middle deleted => ?_, fun error refused => by cases refused⟩
  rw [ends_bind, ends_execute]
  refine ⟨fun affected middle cleared => ?_, fun error refused => by cases refused⟩
  rw [ends_pure]

end TournamentStorage
end LanBunker
