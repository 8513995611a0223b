import LanBunker.Services.Alone
import LanBunker.Tournaments.Runs

/-!
# The rules of an entry, in Rust and in SQL

A request checks the rules on the tournament it read, and the statement that writes checks them
again on the rows.  On the same state the two agree: one compares instants, the other their micros.
-/

namespace LanBunker

open Relational Service TournamentStorage

/-! ## The rules -/

/-- The rules of an entrant write: of a player at an instant, or of an admin. -/
def MayEdit (tournament : Tournament) (openAt : Option Instant) : Prop :=
  requireEntrantsEditable tournament = .ok () ∧
    ∀ now, openAt = some now → requireRegistrationOpen tournament now = .ok ()

/-- A guard as the service builds it.  A player's names the status `opened` and the instant of the
request, an admin's a status that was read and is not `concluded`. -/
structure EntrantGuard.Built (guard : EntrantGuard) : Prop where
  not_concluded : guard.status ≠ .concluded
  player : ∀ now, guard.openAt = some now → guard.status = .opened ∧ World.earliest ≤ now

section Rules

variable {tournament : Tournament} {now : Instant}

theorem requireEntrantsEditable_ok_iff : requireEntrantsEditable tournament = .ok () ↔
    tournament.status ≠ .concluded ∧ tournament.hasBracket = false := by
  rw [requireEntrantsEditable]
  by_cases concluded : tournament.status = .concluded
  · simp [requireNotConcluded, concluded, bind, Except.bind]
  · cases bracket : tournament.hasBracket with
    | true => simp [requireNotConcluded, concluded, bind, Except.bind]
    | false => simp [requireNotConcluded, concluded, bind, Except.bind]

theorem requireRegistrationOpen_ok_iff : requireRegistrationOpen tournament now = .ok () ↔
    tournament.status = .opened ∧ now < tournament.registrationClosesAt := by
  rw [requireRegistrationOpen]
  split_ifs with opened
  · simpa using opened
  · simpa using opened

end Rules

/-! ## The statements -/

section Statements

variable {db : Database} {id : TournamentId} {row : TournamentRow} {guard : EntrantGuard}

/-- The guard of a statement on the one row of its tournament. -/
theorem holds_iff (keys : (db.tournaments.map TournamentRow.id).Nodup)
    (found : tournament? id db = some row) :
    holds guard id db = true ↔ row.status = guard.status ∧
      (∀ now, guard.openAt = some now → toMicros now < row.registrationClosesAt) ∧
      (tournamentOf db row).hasBracket = false := by
  obtain ⟨member, row_id⟩ := find?_key_eq_some found
  have same_row : ∀ other ∈ db.tournaments, other.id = id → other = row := fun other other_mem
      other_id => List.inj_on_of_nodup_map keys other_mem member (other_id.trans row_id.symm)
  have bracket_eq : (tournamentOf db row).hasBracket =
      db.matchRows.any fun m => m.tournament = id := by
    rw [← row_id]
    rfl
  rw [bracket_eq, holds, Bool.and_eq_true, Bool.not_eq_true', List.any_eq_true, ← and_assoc]
  refine and_congr_left fun _ => ?_
  constructor
  · rintro ⟨other, other_mem, matched⟩
    obtain ⟨other_id, status, deadline⟩ := of_decide_eq_true matched
    obtain rfl := same_row other other_mem other_id
    refine ⟨status, fun now open_at => ?_⟩
    rw [open_at] at deadline
    simpa using deadline
  · rintro ⟨status, deadline⟩
    refine ⟨row, member, decide_eq_true ⟨row_id, status, ?_⟩⟩
    cases open_at : guard.openAt with
    | none => rfl
    | some now => simpa using deadline now open_at

/-- The SQL guard holds exactly when the status is the one it names and the rules hold. -/
theorem holds_iff_mayEdit (keys : (db.tournaments.map TournamentRow.id).Nodup)
    (found : tournament? id db = some row) (built : guard.Built) :
    holds guard id db = true ↔ (tournamentOf db row).status = guard.status ∧
      MayEdit (tournamentOf db row) guard.openAt := by
  have status_eq : (tournamentOf db row).status = row.status := rfl
  rw [holds_iff keys found, MayEdit, requireEntrantsEditable_ok_iff, status_eq]
  constructor
  · rintro ⟨status, deadline, no_bracket⟩
    refine ⟨status, ⟨status ▸ built.not_concluded, no_bracket⟩, fun now open_at => ?_⟩
    obtain ⟨opened, late⟩ := built.player now open_at
    have after_epoch : 0 ≤ now := Int.le_trans (by decide) late
    exact requireRegistrationOpen_ok_iff.mpr
      ⟨status.trans opened, (toMicros_lt_iff after_epoch).mp (deadline now open_at)⟩
  · rintro ⟨status, ⟨-, no_bracket⟩, open_rule⟩
    refine ⟨status, fun now open_at => ?_, no_bracket⟩
    have after_epoch : 0 ≤ now := Int.le_trans (by decide) (built.player now open_at).2
    exact (toMicros_lt_iff after_epoch).mpr
      (requireRegistrationOpen_ok_iff.mp (open_rule now open_at)).2

/-- The player has an entry. -/
def IsIn (db : Database) (id : TournamentId) (player : PlayerId) : Prop :=
  ∃ entry ∈ db.tournamentEntrants, entry.tournament = id ∧ entry.player = some player

instance (db : Database) (id : TournamentId) (player : PlayerId) : Decidable (IsIn db id player) :=
  inferInstanceAs (Decidable (∃ entry ∈ db.tournamentEntrants, _))

/-- The number of entries. -/
def fieldSize (db : Database) (id : TournamentId) : Nat :=
  db.tournamentEntrants.countP fun entry => entry.tournament = id

theorem hasPlace_iff {player : PlayerId} : hasPlace id player db = true ↔
    fieldSize db id < maxEntrants ∨ IsIn db id player := by
  rw [hasPlace, decide_eq_true_eq, List.any_eq_true, fieldSize, IsIn]
  simp only [decide_eq_true_eq]

/-- What an insert does while the guard decides: nothing, nothing for a player who is in, nothing in
a full field, or the new row. -/
theorem addEntrant_eq {entrant : NewEntrant} (there : db.hasTournament entrant.tournament = true)
    (player_there : db.hasPlayer entrant.player = true)
    (instant : World.earliest ≤ entrant.registeredAt)
    (fresh : ∀ entry ∈ db.tournamentEntrants, entry.id ≠ entrant.id) :
    addEntrant entrant guard db =
      if holds guard entrant.tournament db = true then
        if IsIn db entrant.tournament entrant.player then (.ok .already, db)
        else if fieldSize db entrant.tournament < maxEntrants then
          (.ok .new,
            { db with tournamentEntrants := db.tournamentEntrants ++ [entrantRow entrant] })
        else (.ok .refused, db)
      else (.ok .refused, db) := by
  have positive : 0 < (entrantRow entrant).registeredAt := toMicros_pos_iff.mpr instant
  have new_id : (db.tournamentEntrants.all fun other => other.id ≠ (entrantRow entrant).id) =
      true := by
    rw [List.all_eq_true]
    exact fun entry member => decide_eq_true (fresh entry member)
  rw [addEntrant, insertEntrant]
  by_cases allowed : holds guard entrant.tournament db = true
  · by_cases present : IsIn db entrant.tournament entrant.player
    · have placed : hasPlace entrant.tournament entrant.player db = true :=
        hasPlace_iff.mpr (Or.inr present)
      have clash : (db.tournamentEntrants.all fun other =>
          other.tournament ≠ (entrantRow entrant).tournament ∨
            other.player ≠ some entrant.player) = false := by
        obtain ⟨entry, member, tournament_eq, player_eq⟩ := present
        rw [List.all_eq_false]
        exact ⟨entry, member, by simp [entrantRow, tournament_eq, player_eq]⟩
      rw [if_pos ⟨allowed, placed⟩, if_pos allowed, if_pos present]
      simp only [guarded, positive, decide_true, new_id, clash, Bool.false_eq_true, if_true,
        if_false]
    · have unique : (db.tournamentEntrants.all fun other =>
          other.tournament ≠ (entrantRow entrant).tournament ∨
            other.player ≠ some entrant.player) = true := by
        rw [List.all_eq_true]
        intro entry member
        rw [decide_eq_true_eq, ← not_and_or]
        exact fun same => present ⟨entry, member, same.1, same.2⟩
      have keys : db.hasTournament (entrantRow entrant).tournament = true ∧
          db.hasPlayer entrant.player = true := ⟨there, player_there⟩
      by_cases room : fieldSize db entrant.tournament < maxEntrants
      · have placed : hasPlace entrant.tournament entrant.player db = true :=
          hasPlace_iff.mpr (Or.inl room)
        rw [if_pos ⟨allowed, placed⟩, if_pos allowed, if_neg present, if_pos room]
        simp only [guarded, positive, decide_true, new_id, unique, keys, and_self, if_true]
      · have no_place : ¬hasPlace entrant.tournament entrant.player db = true :=
          fun placed => (hasPlace_iff.mp placed).elim room present
        rw [if_neg fun both => no_place both.2, if_pos allowed, if_neg present, if_neg room]
        rfl
  · rw [if_neg fun both => allowed both.1, if_neg allowed]
    rfl

/-- The statement touches a row exactly if the condition holds, and otherwise nothing changes. -/
def TouchesIff {α : Type} (method : Method α) (touched : α) (db : Database) (condition : Prop) :
    Prop :=
  ((method db).1 = .ok touched ↔ condition) ∧ (¬condition → (method db).2 = db)

/-- A method that answers whether it touched a row, by cases on the condition. -/
private theorem touchesIff_of_cases {method : Method Bool} {condition : Prop}
    (cases : condition ∧ (method db).1 = .ok true ∨ ¬condition ∧ method db = (.ok false, db)) :
    TouchesIff method true db condition := by
  rcases cases with ⟨holds, touched⟩ | ⟨fails, untouched⟩
  · exact ⟨iff_of_true touched holds, fun fails => absurd holds fails⟩
  · rw [TouchesIff, untouched]
    exact ⟨iff_of_false (by simp) fails, fun _ => rfl⟩

/-- A change of the level finds the row of the player while the guard holds. -/
theorem setSkill_guarded (db : Database) (id : TournamentId) (player : PlayerId)
    (skill : SkillLevel) (guard : EntrantGuard) :
    (holds guard id db = true ∧ IsIn db id player) ∧
        (setSkill id player skill guard db).1 = .ok true ∨
      ¬(holds guard id db = true ∧ IsIn db id player) ∧
        setSkill id player skill guard db = (.ok false, db) := by
  by_cases touched : holds guard id db = true ∧ IsIn db id player
  · obtain ⟨allowed, entry, member, tournament_eq, player_eq⟩ := touched
    refine Or.inl ⟨⟨allowed, entry, member, tournament_eq, player_eq⟩, ?_⟩
    rw [setSkill, Method.single, Except.ok.injEq, decide_eq_true_eq, List.countP_pos_iff]
    exact ⟨entry, member, decide_eq_true ⟨tournament_eq, player_eq, allowed⟩⟩
  · have untouched : ∀ entry ∈ db.tournamentEntrants,
        ¬(entry.tournament = id ∧ entry.player = some player ∧ holds guard id db = true) :=
      fun entry member matched =>
        touched ⟨matched.2.2, entry, member, matched.1, matched.2.1⟩
    have none_counted : db.tournamentEntrants.countP (fun entry =>
        entry.tournament = id ∧ entry.player = some player ∧ holds guard id db = true) = 0 := by
      rw [List.countP_eq_zero]
      exact fun entry member => fun matched => untouched entry member (of_decide_eq_true matched)
    have same : (db.tournamentEntrants.map fun row =>
        if row.tournament = id ∧ row.player = some player ∧ holds guard id db = true
        then { row with skill := some skill } else row) = db.tournamentEntrants := by
      refine (List.map_congr_left fun entry member => ?_).trans (List.map_id' _)
      rw [if_neg (untouched entry member)]
    refine Or.inr ⟨touched, ?_⟩
    rw [setSkill, Method.single]
    simp only [none_counted, same]
    rfl

/-- A guarded delete removes the rows it names while the guard holds, and no match stands in the
way then. -/
private theorem delete_guarded (db : Database) (id : TournamentId) (guard : EntrantGuard)
    (names : EntrantRow → Prop) [DecidablePred names] {method : Method Bool}
    (method_eq : method = Method.single (fun db => deleteEntrants
      (fun row => row.tournament = id ∧ names row ∧ holds guard id db) db)
      (fun removed => decide (0 < removed))) :
    (holds guard id db = true ∧
        ∃ entry ∈ db.tournamentEntrants, entry.tournament = id ∧ names entry) ∧
        (method db).1 = .ok true ∨
      ¬(holds guard id db = true ∧
        ∃ entry ∈ db.tournamentEntrants, entry.tournament = id ∧ names entry) ∧
        method db = (.ok false, db) := by
  have no_match : (db.tournamentEntrants.all fun row =>
      !decide (row.tournament = id ∧ names row ∧ holds guard id db = true) ||
        db.matchRows.all fun m => m.tournament ≠ row.tournament ∨
          m.entrantA ≠ some row.id ∧ m.entrantB ≠ some row.id ∧ m.winner ≠ some row.id) = true := by
    rw [List.all_eq_true]
    intro row _
    rw [Bool.or_eq_true, Bool.not_eq_true', decide_eq_false_iff_not]
    by_cases gone : row.tournament = id ∧ names row ∧ holds guard id db = true
    · right
      have no_bracket := (editable_of_holds gone.2.2).no_bracket
      rw [matchRowsOf, List.filter_eq_nil_iff] at no_bracket
      rw [List.all_eq_true]
      intro m member
      have other := no_bracket m member
      rw [decide_eq_true_eq, gone.1]
      exact Or.inl fun same => other (decide_eq_true same)
    · exact Or.inl gone
  have deleted :
      deleteEntrants (fun row => row.tournament = id ∧ names row ∧ holds guard id db) db =
      .ok (db.tournamentEntrants.countP (fun row =>
          row.tournament = id ∧ names row ∧ holds guard id db), { db with
        tournaments := db.unlinkWinners fun row =>
          row.tournament = id ∧ names row ∧ holds guard id db
        tournamentEntrants := db.tournamentEntrants.filter fun row =>
          !decide (row.tournament = id ∧ names row ∧ holds guard id db = true) }) := by
    rw [deleteEntrants, guarded, if_pos no_match, guarded]
  rw [method_eq, Method.single, deleted]
  by_cases touched : holds guard id db = true ∧
      ∃ entry ∈ db.tournamentEntrants, entry.tournament = id ∧ names entry
  · refine Or.inl ⟨touched, ?_⟩
    obtain ⟨allowed, entry, member, tournament_eq, named⟩ := touched
    rw [Except.ok.injEq, decide_eq_true_eq, List.countP_pos_iff]
    exact ⟨entry, member, decide_eq_true ⟨tournament_eq, named, allowed⟩⟩
  · have nobody : ∀ row ∈ db.tournamentEntrants,
        decide (row.tournament = id ∧ names row ∧ holds guard id db = true) = false :=
      fun row member => decide_eq_false fun matched =>
        touched ⟨matched.2.2, row, member, matched.1, matched.2.1⟩
    have none_counted : db.tournamentEntrants.countP (fun row =>
        row.tournament = id ∧ names row ∧ holds guard id db = true) = 0 := by
      rw [List.countP_eq_zero]
      exact fun row member => ne_true_of_eq_false (nobody row member)
    have same : (db.tournamentEntrants.filter fun row =>
        !decide (row.tournament = id ∧ names row ∧ holds guard id db = true)) =
        db.tournamentEntrants := by
      rw [List.filter_eq_self]
      intro row member
      rw [nobody row member]
      rfl
    refine Or.inr ⟨touched, ?_⟩
    simp only [none_counted, same, unlinkWinners_of_nobody nobody]
    rfl

theorem removeEntrant_guarded (db : Database) (id : TournamentId) (entrant : EntrantId)
    (guard : EntrantGuard) :
    (holds guard id db = true ∧
        ∃ entry ∈ db.tournamentEntrants, entry.tournament = id ∧ entry.id = entrant) ∧
        (TournamentStorage.removeEntrant id entrant guard db).1 = .ok true ∨
      ¬(holds guard id db = true ∧
        ∃ entry ∈ db.tournamentEntrants, entry.tournament = id ∧ entry.id = entrant) ∧
        TournamentStorage.removeEntrant id entrant guard db = (.ok false, db) :=
  delete_guarded db id guard (fun entry => entry.id = entrant) rfl

theorem removeEntrantOf_guarded (db : Database) (id : TournamentId) (player : PlayerId)
    (guard : EntrantGuard) :
    (holds guard id db = true ∧ IsIn db id player) ∧
        (removeEntrantOf id player guard db).1 = .ok true ∨
      ¬(holds guard id db = true ∧ IsIn db id player) ∧
        removeEntrantOf id player guard db = (.ok false, db) :=
  delete_guarded db id guard (fun entry => entry.player = some player) rfl

end Statements

/-! ## The services -/

section Services

open TournamentService

/-- A tournament on record: its row is found by its own key, and no stored entry has an identifier
that is still to be generated. -/
structure World.Records (world : World) (id : TournamentId) (row : TournamentRow) : Prop where
  keys : (world.db.tournaments.map TournamentRow.id).Nodup
  found : tournament? id world.db = some row
  used : ∀ entry ∈ world.db.tournamentEntrants, entry.id.uuid ∈ world.used

/-- A tournament on record that a read gives. -/
structure World.Reads (world : World) (id : TournamentId) (row : TournamentRow) : Prop
    extends world.Records id row where
  readable : row.IsReadable

variable {world : World} {id : TournamentId} {row : TournamentRow} {guard : EntrantGuard}
  {player : PlayerId}

/-- Time passes. -/
theorem World.Records.later (records : world.Records id row) (clock : Instant) :
    World.Records { world with clock } id row := ⟨records.keys, records.found, records.used⟩

theorem World.Reads.later (records : world.Reads id row) (clock : Instant) :
    World.Reads { world with clock } id row := ⟨records.toRecords.later clock, records.readable⟩

/-- Every tournament of a world that requests can reach is on record. -/
theorem World.Good.records (good : world.Good) (found : tournament? id world.db = some row) :
    world.Records id row where
  keys := good.tournaments
  found := found
  used entry member := (good.boards entry.tournament).entrants_used entry
    (List.mem_filter.mpr ⟨member, decide_eq_true rfl⟩)

theorem settles_load (records : world.Reads id row)
    {post : Except ServiceError Tournament → World → Prop} :
    Settles (load id) world post ↔ ∀ clock, World.earliest ≤ clock →
      post (.ok (tournamentOf world.db row)) { world with clock } := by
  have called : (StorageOp.tournaments (.get id)).method world.db =
      (.ok (some (tournamentOf world.db row)), world.db) := by
    have answer_eq := get_eq_ok.mpr ⟨row, records.found, records.readable, rfl⟩
    exact congrArg (fun answer => (answer, world.db)) answer_eq
  rw [load, settles_bind, settles_read called rfl]
  rfl

/-- Where the row is out of the years that a read knows, a request that loads it fails. -/
theorem settles_load_unreadable (records : world.Records id row) (unreadable : ¬row.IsReadable)
    {α : Type} (rest : Tournament → Service α) :
    Settles (load id >>= rest) world fun result _ =>
      result = .error (.ofStorage .malformedRow) := by
  have unread : toTournament world.db row = none := toTournament_eq_none.mpr unreadable
  have called : (StorageOp.tournaments (.get id)).method world.db =
      (.error .malformedRow, world.db) := by
    have answer_eq : (TournamentStorage.get id world.db).1 = .error .malformedRow := by
      rw [TournamentStorage.get, records.found, converted, converting, unread]
      rfl
    exact congrArg (fun answer => (answer, world.db)) answer_eq
  rw [load, settles_bind, settles_bind, settles_store called]
  exact fun clock _ => rfl

/-- The reason a guarded write was refused, from the tournament as it is now. -/
private def refusal (fresh : Tournament) (guard : EntrantGuard) : Except ServiceError Unit :=
  match requireEntrantsEditable fresh, guard.openAt with
  | .error error, _ => .error error
  | .ok (), some now => requireRegistrationOpen fresh now
  | .ok (), none => if fresh.status ≠ guard.status then .error .tournamentChanged else .ok ()

theorem settles_explainRefusal (records : world.Reads id row)
    {post : Except ServiceError Unit → World → Prop} :
    Settles (explainRefusal id guard) world post ↔ ∀ clock, World.earliest ≤ clock →
      post (refusal (tournamentOf world.db row) guard) { world with clock } := by
  rw [explainRefusal, settles_bind, settles_load records]
  refine forall_congr' fun clock => forall_congr' fun _ => ?_
  dsimp only
  rw [settles_bind, settles_ofExcept, refusal]
  cases requireEntrantsEditable (tournamentOf world.db row) with
  | error error => rfl
  | ok _ =>
      cases guard.openAt with
      | some now => rfl
      | none =>
          dsimp only
          split_ifs <;> rfl

/-- There is no reason while the guard holds, and a full field is never the reason. -/
private theorem refusal_cases (records : world.Reads id row) (built : guard.Built) :
    (refusal (tournamentOf world.db row) guard = .ok () ↔ holds guard id world.db = true) ∧
      refusal (tournamentOf world.db row) guard ≠ .error .tournamentFull := by
  rw [holds_iff_mayEdit records.keys records.found built, MayEdit, refusal]
  generalize tournamentOf world.db row = fresh
  cases editable : requireEntrantsEditable fresh with
  | error error =>
      refine ⟨by simp, fun full => ?_⟩
      rw [requireEntrantsEditable, requireNotConcluded] at editable
      split_ifs at editable
      all_goals cases editable
      all_goals cases full
  | ok _ =>
      cases open_at : guard.openAt with
      | some now =>
          have opened := (built.player now open_at).1
          refine ⟨?_, fun full => ?_⟩
          · simp only [true_and, Option.some.injEq, forall_eq', opened]
            exact ⟨fun ok => ⟨(requireRegistrationOpen_ok_iff.mp ok).1, ok⟩, And.right⟩
          · dsimp only at full
            rw [requireRegistrationOpen] at full
            split_ifs at full
            cases full
      | none =>
          dsimp only
          split_ifs with moved
          · simp [moved]
          · simpa using moved

/-- The entry of a player who is in is found. -/
private theorem entrantOf_isSome {db : Database} (present : IsIn db id player) :
    ∃ entrant, (StorageOp.tournaments (.entrantOf id player)).method db =
      (.ok (some entrant), db) := by
  obtain ⟨entry, member, tournament_eq, player_eq⟩ := present
  have some_row : (db.tournamentEntrants.find? fun row =>
      row.tournament = id ∧ row.player = some player).isSome :=
    List.find?_isSome.mpr ⟨entry, member, decide_eq_true ⟨tournament_eq, player_eq⟩⟩
  obtain ⟨found, found_eq⟩ := Option.isSome_iff_exists.mp some_row
  refine ⟨db.toEntrant found, ?_⟩
  have answer_eq : (db.tournamentEntrants.find? fun row =>
      row.tournament = id ∧ row.player = some player).map db.toEntrant =
      some (db.toEntrant found) := by rw [found_eq, Option.map_some]
  exact congrArg (fun answer => (Except.ok answer, db)) answer_eq

/-- The entry of a player who is in is answered. -/
private theorem settles_entry {db : Database} {clock : Instant} {used : List Nat}
    (present : IsIn db id player) (created : Bool) :
    Settles (do
        let found ← store (.tournaments (.entrantOf id player))
        let entrant ← okOr found (.playerIdNotFound player)
        pure (if created then Outcome.created entrant else .existing entrant)) { db, clock, used }
      fun result _ => ∃ outcome, result = .ok outcome := by
  obtain ⟨entrant, called⟩ := entrantOf_isSome present
  rw [settles_bind, settles_read called rfl]
  exact fun clock _ => ⟨_, rfl⟩

/-- While the guard holds, the level of a player who is in is written. -/
private theorem settles_correctSkill {db : Database} {clock : Instant} {used : List Nat}
    (allowed : holds guard id db = true) (present : IsIn db id player)
    (skill : Option SkillLevel) :
    Settles (correctSkill id player skill guard) { db, clock, used } fun result after =>
      result = .ok () ∧ IsIn after.db id player := by
  cases skill with
  | none => exact ⟨rfl, present⟩
  | some skill =>
      have touched : (setSkill id player skill guard db).1 = .ok true :=
        (setSkill_guarded db id player skill guard).elim And.right
          fun fails => absurd ⟨allowed, present⟩ fails.1
      have still : IsIn (setSkill id player skill guard db).2 id player := by
        obtain ⟨entry, member, tournament_eq, player_eq⟩ := present
        refine ⟨_, List.mem_map_of_mem member, ?_, ?_⟩
        all_goals split_ifs
        all_goals assumption
      have called : (StorageOp.tournaments (.setSkill id player skill guard)).method db =
          (.ok true, (setSkill id player skill guard db).2) := Prod.ext touched rfl
      rw [correctSkill, settles_bind, settles_store called]
      exact fun clock _ => ⟨rfl, still⟩

/-- A refused entry fails, and for a full field only while the guard holds. -/
private theorem settles_refused (records : world.Reads id row) (built : guard.Built) {α : Type}
    (rest : Bool → Service α) :
    Settles (do
        explainRefusal id guard
        let created ← fail .tournamentFull
        rest created) world fun result _ =>
      ∃ error, result = .error error ∧
        (error = .tournamentFull ↔ holds guard id world.db = true) := by
  rw [settles_bind, settles_explainRefusal records]
  intro clock _
  obtain ⟨ok_iff, not_full⟩ := refusal_cases records built
  cases refused : refusal (tournamentOf world.db row) guard with
  | ok _ => exact ⟨.tournamentFull, rfl, iff_of_true rfl (ok_iff.mp refused)⟩
  | error error =>
      refine ⟨error, rfl, iff_of_false (fun full => ?_) fun allowed => ?_⟩
      · rw [full] at refused
        exact not_full refused
      · rw [ok_iff.mpr allowed] at refused
        cases refused

theorem settles_enrol (records : world.Reads id row) (player_there : world.db.hasPlayer player)
    (built : guard.Built) (skill : Option SkillLevel) :
    Settles (enrol id player skill guard) world fun result _ =>
      ((∃ outcome, result = .ok outcome) ↔ holds guard id world.db = true ∧
        (IsIn world.db id player ∨ fieldSize world.db id < maxEntrants)) ∧
      (result = .error .tournamentFull →
        ¬IsIn world.db id player ∧ maxEntrants ≤ fieldSize world.db id) := by
  have there : world.db.hasTournament id = true := by
    obtain ⟨member, row_id⟩ := find?_key_eq_some records.found
    exact List.any_eq_true.mpr ⟨row, member, decide_eq_true row_id⟩
  rw [enrol, settles_bind, settles_draw]
  intro draw injective fresh instant instant_le
  dsimp only
  rw [settles_bind, settles_now]
  intro clock _
  dsimp only
  have new_id : ∀ entry ∈ world.db.tournamentEntrants, entry.id ≠ draw 0 := by
    intro entry member same
    exact fresh 0 (same ▸ records.used entry member)
  set entrant : NewEntrant :=
    { id := draw 0, tournament := id, player, skill, registeredAt := instant }
  have added : (StorageOp.tournaments (.addEntrant entrant guard)).method world.db =
      if holds guard id world.db = true then
        if IsIn world.db id player then (.ok .already, world.db)
        else if fieldSize world.db id < maxEntrants then
          (.ok .new, { world.db with
            tournamentEntrants := world.db.tournamentEntrants ++ [entrantRow entrant] })
        else (.ok .refused, world.db)
      else (.ok .refused, world.db) := addEntrant_eq there player_there instant_le new_id
  have records_after : ∀ clock used, (∀ uuid ∈ world.used, uuid ∈ used) →
      World.Reads { db := world.db, clock, used } id row := fun clock used grows =>
    ⟨⟨records.keys, records.found, fun entry member => grows _ (records.used entry member)⟩,
      records.readable⟩
  rw [settles_bind]
  by_cases allowed : holds guard id world.db = true
  · rw [if_pos allowed] at added
    by_cases present : IsIn world.db id player
    · -- The unique index answers, and the level is corrected.
      rw [if_pos present] at added
      rw [settles_attempt added]
      intro clock _
      dsimp only
      rw [settles_bind]
      refine (settles_correctSkill allowed present skill).mono ?_
      rintro _ after ⟨rfl, still⟩
      dsimp only
      rw [settles_bind, settles_pure]
      refine (settles_entry still false).mono ?_
      rintro _ _ ⟨outcome, rfl⟩
      exact ⟨iff_of_true ⟨outcome, rfl⟩ ⟨allowed, Or.inl present⟩, fun full => by cases full⟩
    · rw [if_neg present] at added
      by_cases room : fieldSize world.db id < maxEntrants
      · rw [if_pos room] at added
        rw [settles_attempt added]
        intro clock _
        dsimp only
        rw [settles_bind, settles_pure]
        dsimp only
        have entered : IsIn { world.db with
            tournamentEntrants := world.db.tournamentEntrants ++ [entrantRow entrant] } id player :=
          ⟨entrantRow entrant, by simp, rfl, rfl⟩
        refine (settles_entry entered true).mono ?_
        rintro _ _ ⟨outcome, rfl⟩
        exact ⟨iff_of_true ⟨outcome, rfl⟩ ⟨allowed, Or.inr room⟩, fun full => by cases full⟩
      · rw [if_neg room] at added
        rw [settles_attempt added]
        intro clock _
        dsimp only
        refine (settles_refused (records_after _ _ fun _ => List.mem_append_left _) built _).mono ?_
        rintro _ _ ⟨error, rfl, -⟩
        refine ⟨iff_of_false (by simp) ?_, fun _ => ⟨present, Nat.le_of_not_lt room⟩⟩
        exact fun both => both.2.elim present room
  · rw [if_neg allowed] at added
    rw [settles_attempt added]
    intro clock _
    dsimp only
    refine (settles_refused (records_after _ _ fun _ => List.mem_append_left _) built _).mono ?_
    rintro _ _ ⟨error, rfl, full_iff⟩
    refine ⟨iff_of_false (by simp) fun both => allowed both.1, fun full => ?_⟩
    exact absurd (full_iff.mp (Except.error.inj full)) allowed

/-- A player's guard, at the instant of the request. -/
private theorem built_player {now : Instant} (le : World.earliest ≤ now) :
    EntrantGuard.Built { status := .opened, openAt := some now } where
  not_concluded := nofun
  player other same := by
    obtain rfl := Option.some.inj same
    exact ⟨rfl, le⟩

/-- An admin's guard, once the rule has let the request through. -/
private theorem built_admin {tournament : Tournament}
    (editable : requireEntrantsEditable tournament = .ok ()) :
    EntrantGuard.Built { status := tournament.status, openAt := none } where
  not_concluded := (requireEntrantsEditable_ok_iff.mp editable).1
  player now impossible := by cases impossible

/-- While registration is open for the player, their guard is the rules. -/
private theorem holds_player {now : Instant} (records : world.Reads id row)
    (le : World.earliest ≤ now) :
    holds { status := .opened, openAt := some now } id world.db = true ↔
      MayEdit (tournamentOf world.db row) (some now) := by
  rw [holds_iff_mayEdit records.keys records.found (built_player le)]
  refine and_iff_right_of_imp fun rules => ?_
  exact (requireRegistrationOpen_ok_iff.mp (rules.2 now rfl)).1

private theorem holds_admin (records : world.Reads id row)
    (editable : requireEntrantsEditable (tournamentOf world.db row) = .ok ()) :
    holds { status := (tournamentOf world.db row).status, openAt := none } id world.db = true :=
  (holds_iff_mayEdit records.keys records.found (built_admin editable)).mpr
    ⟨rfl, editable, fun now impossible => by cases impossible⟩

theorem settles_loadPublic (records : world.Reads id row)
    {post : Except ServiceError Tournament → World → Prop} :
    Settles (loadPublic id) world post ↔ ∀ clock, World.earliest ≤ clock →
      post (if row.status = .draft then .error (.tournamentNotFound id)
        else .ok (tournamentOf world.db row)) { world with clock } := by
  rw [loadPublic, settles_bind, settles_load records]
  refine forall_congr' fun clock => forall_congr' fun _ => ?_
  have status_eq : (tournamentOf world.db row).status = row.status := rfl
  dsimp only
  rw [status_eq]
  split_ifs <;> rfl

/-- What stands in the way of a player: a draft they may not see, or a closed registration. -/
private theorem settles_playerRules (records : world.Reads id row) {α : Type}
    {rest : Tournament → Service α} {post : Except ServiceError α → World → Prop}
    {now : Instant}
    (refused : ∀ error after, error ≠ .tournamentFull →
      ¬MayEdit (tournamentOf world.db row) (some now) → post (.error error) after)
    (passed : ∀ clock, World.earliest ≤ clock →
      Settles (rest (tournamentOf world.db row)) { world with clock } post) :
    Settles (do
      let tournament ← loadPublic id
      ofExcept (requireRegistrationOpen tournament now)
      rest tournament) world post := by
  rw [settles_bind, settles_loadPublic records]
  intro clock le
  have status_eq : (tournamentOf world.db row).status = row.status := rfl
  by_cases draft : row.status = .draft
  · rw [if_pos draft]
    refine refused _ _ nofun fun rules => ?_
    have opened := (requireRegistrationOpen_ok_iff.mp (rules.2 now rfl)).1
    rw [status_eq, draft] at opened
    cases opened
  · rw [if_neg draft]
    dsimp only
    rw [settles_bind, settles_ofExcept]
    cases opened : requireRegistrationOpen (tournamentOf world.db row) now with
    | ok _ => exact passed clock le
    | error error =>
        refine refused _ _ (fun full => ?_) fun rules => ?_
        · rw [requireRegistrationOpen] at opened
          split_ifs at opened
          cases opened
          cases full
        · rw [rules.2 now rfl] at opened
          cases opened

theorem settles_register (records : world.Reads id row) (player_there : world.db.hasPlayer player)
    (le : World.earliest ≤ world.clock) (skill : SkillLevel) :
    Settles (register id player skill) world fun result _ =>
      ((∃ entrant, result = .ok entrant) ↔
        MayEdit (tournamentOf world.db row) (some world.clock) ∧
          (IsIn world.db id player ∨ fieldSize world.db id < maxEntrants)) ∧
      (result = .error .tournamentFull →
        ¬IsIn world.db id player ∧ maxEntrants ≤ fieldSize world.db id) := by
  rw [register, settles_bind, settles_now]
  intro clock _
  have records' := records.later clock
  refine settles_playerRules records' (fun error after not_full closed => ?_) fun later _ => ?_
  · refine ⟨iff_of_false (by simp) fun both => closed both.1, fun full => ?_⟩
    cases full
    exact absurd rfl not_full
  · have records'' := records.later later
    rw [settles_bind]
    refine (settles_enrol records'' player_there (built_player le) (some skill)).mono ?_
    rintro result after ⟨ok_iff, full_only⟩
    rw [holds_player records'' le] at ok_iff
    cases result with
    | error error =>
        refine ⟨?_, fun full => full_only (by cases full; rfl)⟩
        rw [← ok_iff]
        simp
    | ok outcome =>
        have allowed := ok_iff.mp ⟨outcome, rfl⟩
        cases outcome with
        | created entrant => exact ⟨iff_of_true ⟨entrant, rfl⟩ allowed, by simp⟩
        | existing entrant => exact ⟨iff_of_true ⟨entrant, rfl⟩ allowed, by simp⟩

/-- A guarded delete, and the reason where no row went: it succeeds while the guard holds. -/
private theorem settles_removed (op : StorageOp) (removed : op.Ans → Bool)
    (records : world.Reads id row) (built : guard.Built) (none_drawn : op.generated = [])
    (answers : holds guard id world.db = true ∧
        (∃ answer after, op.method world.db = (.ok answer, after) ∧ removed answer = true) ∨
      ∃ answer, op.method world.db = (.ok answer, world.db) ∧ removed answer = false) :
    Settles (do
        let answer ← store op
        if removed answer then pure () else explainRefusal id guard) world
      fun result _ => (result = .ok () ↔ holds guard id world.db = true) ∧
        result ≠ .error .tournamentFull := by
  rw [settles_bind]
  rcases answers with ⟨allowed, answer, after, called, touched⟩ | ⟨answer, called, untouched⟩
  · rw [settles_store called]
    intro clock _
    dsimp only [Except.mapError]
    rw [if_pos touched, settles_pure]
    exact ⟨iff_of_true rfl allowed, nofun⟩
  · rw [settles_read called none_drawn]
    intro clock _
    have records' := records.later clock
    dsimp only
    rw [if_neg (ne_true_of_eq_false untouched), settles_explainRefusal records']
    exact fun later _ => refusal_cases records' built

theorem settles_retire (records : world.Reads id row) (le : World.earliest ≤ world.clock) :
    Settles (retire id player) world fun result _ =>
      (result = .ok () ↔ MayEdit (tournamentOf world.db row) (some world.clock)) ∧
        result ≠ .error .tournamentFull := by
  rw [retire, settles_bind, settles_now]
  intro clock _
  have records' := records.later clock
  refine settles_playerRules records' (fun error after not_full closed => ?_) fun later _ => ?_
  · exact ⟨iff_of_false (by simp) closed, fun full => not_full (Except.error.inj full)⟩
  · have records'' := records.later later
    rw [← holds_player records le]
    refine settles_removed (.tournaments (.removeEntrantOf id player _)) (fun removed => removed)
      records'' (built_player le) rfl ?_
    rcases removeEntrantOf_guarded world.db id player { status := .opened, openAt := world.clock }
      with ⟨both, touched⟩ | ⟨-, untouched⟩
    · exact Or.inl ⟨both.1, true, _, Prod.ext touched rfl, rfl⟩
    · exact Or.inr ⟨false, untouched, rfl⟩

/-- What stands in the way of an admin: the rule, and then nothing of the guard. -/
private theorem settles_adminRules (records : world.Reads id row) {α : Type}
    {rest : Tournament → Service α} {post : Except ServiceError α → World → Prop}
    (refused : ∀ error after, error ≠ .tournamentFull →
      ¬MayEdit (tournamentOf world.db row) none → post (.error error) after)
    (passed : ∀ clock, World.earliest ≤ clock →
      requireEntrantsEditable (tournamentOf world.db row) = .ok () →
      MayEdit (tournamentOf world.db row) none →
        Settles (rest (tournamentOf world.db row)) { world with clock } post) :
    Settles (do
      let tournament ← load id
      ofExcept (requireEntrantsEditable tournament)
      rest tournament) world post := by
  rw [settles_bind, settles_load records]
  intro clock le
  dsimp only
  rw [settles_bind, settles_ofExcept]
  cases editable : requireEntrantsEditable (tournamentOf world.db row) with
  | ok _ => exact passed clock le editable ⟨editable, nofun⟩
  | error error =>
      refine refused _ _ (fun full => ?_) fun rules => ?_
      · rw [requireEntrantsEditable, requireNotConcluded] at editable
        split_ifs at editable
        all_goals cases editable
        all_goals cases full
      · rw [rules.1] at editable
        cases editable

theorem settles_removeEntrant (records : world.Reads id row) (entrant : EntrantId) :
    Settles (TournamentService.removeEntrant id entrant) world fun result _ =>
      (result = .ok () ↔ MayEdit (tournamentOf world.db row) none) ∧
        result ≠ .error .tournamentFull := by
  refine settles_adminRules records (fun error after not_full closed => ?_)
    fun clock _ editable rules => ?_
  · exact ⟨iff_of_false (by simp) closed, fun full => not_full (Except.error.inj full)⟩
  · have records' := records.later clock
    have allowed := holds_admin records editable
    refine Settles.mono (settles_removed (.tournaments (.removeEntrant id entrant
      { status := (tournamentOf world.db row).status, openAt := none })) (fun removed : Bool =>
        removed) records' (built_admin editable) rfl ?_) ?_
    · rcases removeEntrant_guarded world.db id entrant
        { status := (tournamentOf world.db row).status, openAt := none } with
        ⟨both, touched⟩ | ⟨-, untouched⟩
      · exact Or.inl ⟨both.1, true, _, Prod.ext touched rfl, rfl⟩
      · exact Or.inr ⟨false, untouched, rfl⟩
    · rintro result _ ⟨ok_iff, not_full⟩
      exact ⟨iff_of_true (ok_iff.mpr allowed) rules, not_full⟩

theorem settles_addEntrant (records : world.Reads id row)
    (player_there : world.db.hasPlayer player) (skill : Option SkillLevel) :
    Settles (TournamentService.addEntrant id player skill) world fun result _ =>
      ((∃ outcome, result = .ok outcome) ↔ MayEdit (tournamentOf world.db row) none ∧
        (IsIn world.db id player ∨ fieldSize world.db id < maxEntrants)) ∧
      (result = .error .tournamentFull →
        ¬IsIn world.db id player ∧ maxEntrants ≤ fieldSize world.db id) := by
  refine settles_adminRules records (fun error after not_full closed => ?_)
    fun clock _ editable rules => ?_
  · refine ⟨iff_of_false (by simp) fun both => closed both.1, fun full => ?_⟩
    exact absurd (Except.error.inj full) not_full
  · have there : (StorageOp.players (.isThere player)).method world.db = (.ok true, world.db) :=
      congrArg (fun answer => (Except.ok answer, world.db)) player_there
    rw [settles_bind, settles_read there rfl]
    intro later _
    have records' := records.later later
    refine (settles_enrol records' player_there (built_admin editable) skill).mono ?_
    rintro result _ ⟨ok_iff, full_only⟩
    refine ⟨ok_iff.trans (and_congr_left fun _ => ?_), full_only⟩
    exact iff_of_true (holds_admin records editable) rules

/-! ## Where no read knows the row -/

section Unreadable

variable (records : world.Records id row) (unreadable : ¬row.IsReadable)

include records unreadable

private theorem settles_loadPublic_unreadable {α : Type} (rest : Tournament → Service α) :
    Settles (loadPublic id >>= rest) world fun result _ =>
      result = .error (.ofStorage .malformedRow) := by
  rw [settles_bind, loadPublic]
  refine (settles_load_unreadable records unreadable _).mono ?_
  rintro _ _ rfl
  rfl

theorem settles_register_unreadable (skill : SkillLevel) :
    Settles (register id player skill) world fun result _ =>
      result = .error (.ofStorage .malformedRow) := by
  rw [register, settles_bind, settles_now]
  intro clock _
  exact settles_loadPublic_unreadable (records.later clock) unreadable _

theorem settles_retire_unreadable :
    Settles (retire id player) world fun result _ =>
      result = .error (.ofStorage .malformedRow) := by
  rw [retire, settles_bind, settles_now]
  intro clock _
  exact settles_loadPublic_unreadable (records.later clock) unreadable _

theorem settles_addEntrant_unreadable (skill : Option SkillLevel) :
    Settles (TournamentService.addEntrant id player skill) world fun result _ =>
      result = .error (.ofStorage .malformedRow) := settles_load_unreadable records unreadable _

theorem settles_removeEntrant_unreadable (entrant : EntrantId) :
    Settles (TournamentService.removeEntrant id entrant) world fun result _ =>
      result = .error (.ofStorage .malformedRow) := settles_load_unreadable records unreadable _

end Unreadable

/-- A request succeeds by its rules where a read knows the row, and nowhere else. -/
private theorem succeeds_iff {α : Type} {service : Service α} {ok : Except ServiceError α → Prop}
    {rules full : Prop} (refused : ¬ok (.error (.ofStorage .malformedRow)))
    (served : row.IsReadable → Settles service world fun result _ =>
      (ok result ↔ rules) ∧ (result = .error .tournamentFull → full))
    (unread : ¬row.IsReadable → Settles service world fun result _ =>
      result = .error (.ofStorage .malformedRow))
    {result : Except ServiceError α} {after : World}
    (answers : service.Answers world result after) :
    (ok result ↔ row.IsReadable ∧ rules) ∧ (result = .error .tournamentFull → full) := by
  by_cases readable : row.IsReadable
  · obtain ⟨ok_iff, full_only⟩ := settles_iff.mp (served readable) _ _ answers
    exact ⟨ok_iff.trans (and_iff_right readable).symm, full_only⟩
  · obtain rfl := settles_iff.mp (unread readable) _ _ answers
    exact ⟨iff_of_false refused fun all => readable all.1, by simp [ServiceError.ofStorage]⟩

/-- A guard that names the state as it is holds exactly when the rules do. -/
private theorem holds_now (records : world.Records id row) (built : guard.Built)
    (current : guard.openAt = none → guard.status = row.status) :
    holds guard id world.db = true ↔ MayEdit (tournamentOf world.db row) guard.openAt := by
  rw [holds_iff_mayEdit records.keys records.found built]
  refine and_iff_right_of_imp fun rules => ?_
  cases open_at : guard.openAt with
  | none => exact (current open_at).symm
  | some now =>
      have opened := (requireRegistrationOpen_ok_iff.mp (rules.2 now open_at)).1
      rw [(built.player now open_at).1, opened]

/-- The guards in SQL and the rules in Rust agree.  A guarded statement touches a row exactly if
the rules hold on the tournament as it is and the row it names is there; an entry also needs a free
place.  So `register`, `retire`, `addEntrant` and `removeEntrant` succeed, with no other request
beside them, exactly when a read knows the years of the row, the rules hold and, for an entry, the
player is in or there is a place, and a full field is answered only for a player who is not in. -/
theorem entry_rules (records : world.Records id row) (player_there : world.db.hasPlayer player)
    (le : World.earliest ≤ world.clock) :
    (∀ guard : EntrantGuard, guard.Built →
      (guard.openAt = none → guard.status = row.status) →
      (∀ entrant : NewEntrant, entrant.tournament = id → entrant.player = player →
        World.earliest ≤ entrant.registeredAt → entrant.id.uuid ∉ world.used →
        TouchesIff (TournamentStorage.addEntrant entrant guard) .new world.db
          (MayEdit (tournamentOf world.db row) guard.openAt ∧ ¬IsIn world.db id player ∧
            fieldSize world.db id < maxEntrants)) ∧
      (∀ skill, TouchesIff (setSkill id player skill guard) true world.db
        (MayEdit (tournamentOf world.db row) guard.openAt ∧ IsIn world.db id player)) ∧
      (∀ entrant, TouchesIff (TournamentStorage.removeEntrant id entrant guard) true world.db
        (MayEdit (tournamentOf world.db row) guard.openAt ∧
          ∃ entry ∈ world.db.tournamentEntrants, entry.tournament = id ∧ entry.id = entrant)) ∧
      TouchesIff (removeEntrantOf id player guard) true world.db
        (MayEdit (tournamentOf world.db row) guard.openAt ∧ IsIn world.db id player)) ∧
    (∀ skill result after, (register id player skill).Answers world result after →
      ((∃ entrant, result = .ok entrant) ↔ row.IsReadable ∧
        MayEdit (tournamentOf world.db row) (some world.clock) ∧
          (IsIn world.db id player ∨ fieldSize world.db id < maxEntrants)) ∧
      (result = .error .tournamentFull →
        maxEntrants ≤ fieldSize world.db id ∧ ¬IsIn world.db id player)) ∧
    (∀ result after, (retire id player).Answers world result after →
      (result = .ok () ↔
          row.IsReadable ∧ MayEdit (tournamentOf world.db row) (some world.clock)) ∧
        result ≠ .error .tournamentFull) ∧
    (∀ skill result after,
      (TournamentService.addEntrant id player skill).Answers world result after →
      ((∃ outcome, result = .ok outcome) ↔ row.IsReadable ∧
        MayEdit (tournamentOf world.db row) none ∧
          (IsIn world.db id player ∨ fieldSize world.db id < maxEntrants)) ∧
      (result = .error .tournamentFull →
        maxEntrants ≤ fieldSize world.db id ∧ ¬IsIn world.db id player)) ∧
    ∀ entrant result after,
      (TournamentService.removeEntrant id entrant).Answers world result after →
      (result = .ok () ↔ row.IsReadable ∧ MayEdit (tournamentOf world.db row) none) ∧
        result ≠ .error .tournamentFull := by
  refine ⟨fun guard built current => ?_, ?_, ?_, ?_, ?_⟩
  · have allowed := holds_now records built current
    refine ⟨?_, fun skill => ?_, fun entrant => ?_, ?_⟩
    · rintro entrant rfl rfl instant_le fresh
      have there : world.db.hasTournament entrant.tournament = true := by
        obtain ⟨member, row_id⟩ := find?_key_eq_some records.found
        exact List.any_eq_true.mpr ⟨row, member, decide_eq_true row_id⟩
      have new_id : ∀ entry ∈ world.db.tournamentEntrants, entry.id ≠ entrant.id :=
        fun entry member same => fresh (same ▸ records.used entry member)
      rw [TouchesIff, addEntrant_eq there player_there instant_le new_id, ← allowed]
      split_ifs with holds present room
      · exact ⟨iff_of_false (by simp) fun all => all.2.1 present, fun _ => rfl⟩
      · exact ⟨iff_of_true rfl ⟨holds, present, room⟩,
          fun fails => absurd ⟨holds, present, room⟩ fails⟩
      · exact ⟨iff_of_false (by simp) fun all => room all.2.2, fun _ => rfl⟩
      · exact ⟨iff_of_false (by simp) fun all => holds all.1, fun _ => rfl⟩
    · rw [← allowed]
      exact touchesIff_of_cases (setSkill_guarded world.db id player skill guard)
    · rw [← allowed]
      exact touchesIff_of_cases (removeEntrant_guarded world.db id entrant guard)
    · rw [← allowed]
      exact touchesIff_of_cases (removeEntrantOf_guarded world.db id player guard)
  · intro skill result after answers
    obtain ⟨ok_iff, full⟩ := succeeds_iff (by simp)
      (fun readable => settles_register ⟨records, readable⟩ player_there le skill)
      (fun unreadable => settles_register_unreadable records unreadable skill) answers
    exact ⟨ok_iff, fun same => (full same).symm⟩
  · intro result after answers
    exact succeeds_iff (by simp) (fun readable => settles_retire ⟨records, readable⟩ le)
      (fun unreadable => settles_retire_unreadable records unreadable) answers
  · intro skill result after answers
    obtain ⟨ok_iff, full⟩ := succeeds_iff (by simp)
      (fun readable => settles_addEntrant ⟨records, readable⟩ player_there skill)
      (fun unreadable => settles_addEntrant_unreadable records unreadable skill) answers
    exact ⟨ok_iff, fun same => (full same).symm⟩
  · intro entrant result after answers
    exact succeeds_iff (by simp) (fun readable => settles_removeEntrant ⟨records, readable⟩ entrant)
      (fun unreadable => settles_removeEntrant_unreadable records unreadable entrant) answers

end Services

namespace Cup

/-- A tournament that takes entries until the ninth microsecond. -/
def openRow : TournamentRow where
  id := id
  name := new.name
  game := new.game
  mode := new.mode
  description := new.description
  date := new.date
  registrationClosesAt := 9
  status := .opened
  winner := none
  createdAt := 1

/-- The open tournament and one account, a nanosecond before the deadline. -/
def lobby : World where
  db := { Database.empty with
    players := [⟨⟨1⟩, ⟨['a', 'a', 'a'], rfl, Handle.triple_long 'a', Handle.triple_short 'a'⟩, "",
      .user, false, 0, 1⟩]
    tournaments := [openRow] }
  clock := 8999
  used := [1, 10]

end Cup

/-- One nanosecond before the deadline a player still enters. -/
theorem entry_rules_lobby : ∃ entrant after,
    (TournamentService.register Cup.id ⟨1⟩ ⟨3, by decide, by decide⟩).Answers Cup.lobby
      (.ok entrant) after := by
  have records : Cup.lobby.Records Cup.id Cup.openRow := ⟨by decide, rfl, by decide⟩
  have rules : MayEdit (tournamentOf Cup.lobby.db Cup.openRow) (some Cup.lobby.clock) := by
    refine ⟨rfl, fun now same => ?_⟩
    obtain rfl := Option.some.inj same
    rfl
  obtain ⟨result, after, answers⟩ := Service.exists_answers
    (TournamentService.register Cup.id ⟨1⟩ ⟨3, by decide, by decide⟩) Cup.lobby
  obtain ⟨entrant, rfl⟩ := ((entry_rules records rfl (by decide)).2.1 _ _ _ answers).1.mpr
    ⟨by decide, rules, Or.inr (by decide)⟩
  exact ⟨entrant, after, answers⟩

namespace Cup

/-- A deadline that is past the last year in UTC. -/
def postponement : TournamentUpdate where
  name := none
  game := none
  mode := none
  description := none
  date := none
  registrationClosesAt := some year10000

/-- The player 1 is signed up, and the deadline of the open tournament is moved. -/
def postponed : List bunkerScript.Command :=
  signup 'j' rfl 1 ++ alone 5 (.createTournament new) 10 ++
    alone 6 (.changeStatus id ⟨.opened, none⟩) 100 ++ alone 4 (.updateTournament id postponement) 0

/-- The player may enter the tournament, and no read knows its row. -/
abbrev Shut (world : World) (row : TournamentRow) : Prop :=
  ¬row.IsReadable ∧ (tournamentOf world.db row).status = .opened ∧
    (tournamentOf world.db row).hasBracket = false ∧
    world.clock < (tournamentOf world.db row).registrationClosesAt ∧
    fieldSize world.db id < maxEntrants ∧ world.db.hasPlayer ⟨1⟩ ∧ World.earliest ≤ world.clock

end Cup

set_option maxRecDepth 10000 in
/-- An admin moves the deadline of an open tournament past the last year in UTC.  The rules of an
entry hold, there is a place, and no entry succeeds. -/
theorem not_entry_rules_postponed :
    ∃ trace stop row, Interleaving.Run Cup.start trace stop ∧
      tournament? Cup.id stop.state.db = some row ∧ stop.state.db.hasPlayer ⟨1⟩ ∧
      World.earliest ≤ stop.state.clock ∧
      MayEdit (tournamentOf stop.state.db row) (some stop.state.clock) ∧
      fieldSize stop.state.db Cup.id < maxEntrants ∧
      ∀ skill result after,
        (TournamentService.register Cup.id ⟨1⟩ skill).Answers stop.state result after →
          ¬∃ entrant, result = .ok entrant := by
  obtain ⟨trace, stop, run, tested⟩ := bunkerScript.exists_run Cup.start Cup.postponed
    (fun _ stop => (tournament? Cup.id stop.state.db).any fun row => Cup.Shut stop.state row)
    (by decide +kernel)
  obtain ⟨row, found, shut⟩ := (Option.any_eq_true _ _).mp tested
  obtain ⟨unreadable, opened, no_bracket, early, room, there, le⟩ := of_decide_eq_true shut
  have records := World.Good.records (boards_along run).1 found
  refine ⟨trace, stop, row, run, found, there, le, ⟨?_, fun now same => ?_⟩, room, ?_⟩
  · rw [requireEntrantsEditable_ok_iff, opened]
    exact ⟨by decide, no_bracket⟩
  · obtain rfl := Option.some.inj same
    exact requireRegistrationOpen_ok_iff.mpr ⟨opened, early⟩
  · rintro skill result after answers ⟨entrant, rfl⟩
    have refused := settles_iff.mp
      (settles_register_unreadable records unreadable skill) _ _ answers
    cases refused

end LanBunker
