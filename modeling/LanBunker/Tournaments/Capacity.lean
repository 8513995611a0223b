import LanBunker.Tournaments.Runs

/-!
# The size of a field

The insert of an entrant counts inside its own statement, so the field of a tournament never grows
past the limit of a read, and neither does its bracket.  Every read of them is whole.
-/

namespace LanBunker

open Interleaving TournamentStorage

namespace Board

/-- Two entries of different players, or of a player that is gone. -/
def Apart (entry other : EntrantRow) : Prop :=
  ∀ player, entry.player = some player → other.player ≠ some player

instance : Std.Symm Apart where
  symm _ _ apart player mine theirs := apart player theirs mine

/-- A field within the limit, each player once. -/
structure Bounded (board : Board) : Prop where
  size : board.entrants.length ≤ maxEntrants
  players : board.entrants.Pairwise Apart

theorem bounded_empty : empty.Bounded where
  size := Nat.zero_le _
  players := List.Pairwise.nil

section Move

variable {label : Label bunker} {fresh : List Nat} {id : TournamentId} {board after : Board}

private theorem Bounded.map_entrants (bounded : board.Bounded) (write : EntrantRow → EntrantRow)
    (keeps : ∀ entry player, (write entry).player = some player → entry.player = some player) :
    (board.entrants.map write).length ≤ maxEntrants ∧
      (board.entrants.map write).Pairwise Apart := by
  constructor
  · rw [List.length_map]
    exact bounded.size
  · rw [List.pairwise_map]
    refine bounded.players.imp fun {entry other} apart player mine theirs => ?_
    exact apart player (keeps entry player mine) (keeps other player theirs)

theorem Move.bounded (move : Move label fresh id board after) (bounded : board.Bounded) :
    after.Bounded := by
  cases move with
  | stay => exact bounded
  | anonymised player =>
      have keeps : ∀ (entry : EntrantRow) (other : PlayerId),
          (if entry.player = some player then { entry with player := none } else entry).player =
            some other → entry.player = some other := by
        intro entry other kept
        by_cases gone : entry.player = some player
        · simp [gone] at kept
        · simpa [gone] using kept
      obtain ⟨size, players⟩ := bounded.map_entrants _ keeps
      exact ⟨size, players⟩
  | created => exact ⟨bounded.size, bounded.players⟩
  | edited => exact ⟨bounded.size, bounded.players⟩
  | moved => exact ⟨bounded.size, bounded.players⟩
  | concluded => exact ⟨bounded.size, bounded.players⟩
  | deleted => exact bounded_empty
  | entered found open_row no_bracket new room alone =>
      refine ⟨?_, ?_⟩
      · rw [List.length_append]
        exact room
      · refine List.pairwise_append.mpr ⟨bounded.players, List.pairwise_singleton _ _, ?_⟩
        intro other other_mem entry entry_mem player theirs mine
        obtain rfl := List.mem_singleton.mp entry_mem
        exact alone other other_mem (by simp [mine]) (theirs.trans mine.symm)
  | rated found open_row no_bracket same_ids same_players =>
      obtain ⟨size, players⟩ := bounded.map_entrants _ fun entry player kept =>
        (same_players entry).symm.trans kept
      exact ⟨size, players⟩
  | left =>
      exact ⟨Nat.le_trans (List.length_filter_le _ _) bounded.size,
        bounded.players.sublist List.filter_sublist⟩
  | drawn found live unplayed generated ids new order_nodup seated same_ids seeds answered
      same_players =>
      obtain ⟨size, players⟩ := bounded.map_entrants _ fun entry player kept =>
        (same_players entry).symm.trans kept
      exact ⟨size, players⟩
  | undrawn found open_row unplayed same_ids same_players =>
      obtain ⟨size, players⟩ := bounded.map_entrants _ fun entry player kept =>
        (same_players entry).symm.trans kept
      exact ⟨size, players⟩
  | resulted => exact ⟨bounded.size, bounded.players⟩

end Move

/-- A bracket has fewer matches than the limit. -/
theorem Ok.rows_length {used : List Nat} {id : TournamentId} {board : Board}
    (ok : board.Ok used id) : board.rows.length < maxEntrants := by
  rcases ok.bracket with no_rows | ⟨order, bracket, drawn, -, rows_eq⟩
  · rw [no_rows]
    decide
  · rw [rows_eq, List.length_map]
    exact drawn.flat_length

end Board

/-! ## What the reads and a second entry of a player answer -/

section Reads

variable {db : Database} {id : TournamentId}

private theorem sorted_whole {α : Type*} {before : α → α → Prop} [DecidableRel before]
    {rows : List α} (size : rows.length ≤ readLimit) :
    ((rows.insertionSort before).take readLimit).Perm rows := by
  have sorted := List.perm_insertionSort before rows
  rw [List.take_of_length_le (sorted.length_eq.trans_le size)]
  exact sorted

/-- A field within the limit is read whole. -/
theorem entrants_whole (size : (entrantRows id db).length ≤ readLimit) :
    ∃ listed, (entrants id db).1 = .ok listed ∧
      listed.Perm ((entrantRows id db).map db.toEntrant) :=
  ⟨_, rfl, (sorted_whole size).map _⟩

theorem matchesOf_whole (size : (matchRowsOf id db).length ≤ readLimit) :
    ∃ rows, (matchesOf id db).1 = .ok rows ∧
      rows.Perm ((matchRowsOf id db).map MatchRow.toMatch) :=
  ⟨_, rfl, (sorted_whole size).map _⟩

theorem mem_entrantRows {row : EntrantRow} :
    row ∈ entrantRows id db ↔ row ∈ db.tournamentEntrants ∧ row.tournament = id := by
  rw [entrantRows, List.mem_filter, decide_eq_true_eq]

/-- The entry that is read of a player is the one there is. -/
theorem entrantOf_eq (players : (entrantRows id db).Pairwise Board.Apart) {row : EntrantRow}
    (member : row ∈ entrantRows id db) {player : PlayerId} (entered : row.player = some player) :
    (entrantOf id player db).1 = .ok (some (db.toEntrant row)) := by
  obtain ⟨there, here⟩ := mem_entrantRows.mp member
  have found : db.tournamentEntrants.find? (fun row =>
      row.tournament = id ∧ row.player = some player) = some row := by
    cases first : db.tournamentEntrants.find? fun row =>
        row.tournament = id ∧ row.player = some player with
    | none =>
        have differs := List.find?_eq_none.mp first row there
        simp [here, entered] at differs
    | some other =>
        have named := List.find?_some first
        obtain ⟨other_here, other_entered⟩ := of_decide_eq_true named
        have other_mem := mem_entrantRows.mpr ⟨List.mem_of_find?_eq_some first, other_here⟩
        by_contra other_ne
        have apart : Board.Apart other row :=
          players.forall other_mem member fun same => other_ne (congrArg some same)
        exact apart player other_entered entered
  simp only [entrantOf, Method.query, found, Option.map_some]

/-- A player who is in already reaches the unique index, whatever the field holds. -/
theorem addEntrant_repeat {entrant : NewEntrant} {guard : EntrantGuard} {row : EntrantRow}
    (member : row ∈ entrantRows entrant.tournament db)
    (entered : row.player = some entrant.player) :
    (addEntrant entrant guard db).2 = db ∧
      (holds guard entrant.tournament db → 0 < toMicros entrant.registeredAt →
        (∀ other ∈ db.tournamentEntrants, other.id ≠ entrant.id) →
        (addEntrant entrant guard db).1 = .ok .already) := by
  obtain ⟨there, here⟩ := mem_entrantRows.mp member
  constructor
  · generalize called : addEntrant entrant guard db = result
    obtain ⟨answer, after⟩ := result
    rcases addEntrant_cases called with same | ⟨-, -, -, alone, -⟩
    · exact same
    · exact absurd entered ((alone row there).resolve_left (not_not_intro here))
  · intro allowed instant new
    have place : hasPlace entrant.tournament entrant.player db = true :=
      decide_eq_true (Or.inr (List.any_eq_true.mpr ⟨row, there, by simp [here, entered]⟩))
    have taken : (db.tournamentEntrants.all fun other =>
        other.tournament ≠ entrant.tournament ∨ other.player ≠ some entrant.player) = false := by
      rw [List.all_eq_false]
      exact ⟨row, there, by simp [here, entered]⟩
    have free : (db.tournamentEntrants.all fun other => other.id ≠ entrant.id) = true :=
      List.all_eq_true.mpr fun other member => decide_eq_true (new other member)
    have refused : insertEntrant entrant guard db = .error (.uniqueViolation .entrantsPlayer) := by
      rw [insertEntrant, if_pos ⟨allowed, place⟩]
      exact (guarded_passed (decide_eq_true instant)).trans
        ((guarded_passed free).trans (guarded_failed taken))
    simp only [addEntrant, refused]

end Reads

/-! ## Every reachable state -/

/-- In every run every field is within the limit. -/
theorem bounded_along {clock : Instant} {trace : List (Moment bunker)} {stop : Config bunker}
    (run : Run (Config.quiet (World.initial clock)) trace stop) (id : TournamentId) :
    (stop.state.db.board id).Bounded ∧ ∀ moment ∈ trace,
      (moment.before.db.board id).Bounded ∧ (moment.after.db.board id).Bounded :=
  board_invariant (fun _ => Board.bounded_empty)
    (fun _ _ _ (_ : True) _ move before => move.bounded before) run (fun _ _ => trivial) id

/-- The field of a tournament and its bracket are within the limits, are read whole, and keep the
entry of a player who enters again. -/
structure WithinLimits (id : TournamentId) (db : Database) : Prop where
  entrants_le : (entrantRows id db).length ≤ 256
  players : (entrantRows id db).Pairwise fun entry other =>
    ∀ player, entry.player = some player → other.player ≠ some player
  matches_le : (matchRowsOf id db).length ≤ 255
  entrants_read : ∃ listed, (entrants id db).1 = .ok listed ∧
    listed.Perm ((entrantRows id db).map db.toEntrant)
  matches_read : ∃ rows, (matchesOf id db).1 = .ok rows ∧
    rows.Perm ((matchRowsOf id db).map MatchRow.toMatch)
  repeated : ∀ row ∈ entrantRows id db, ∀ (entrant : NewEntrant) guard,
    entrant.tournament = id → row.player = some entrant.player →
      (addEntrant entrant guard db).2 = db ∧
        (entrantOf id entrant.player db).1 = .ok (some (db.toEntrant row)) ∧
        (holds guard id db → 0 < toMicros entrant.registeredAt →
          (∀ other ∈ db.tournamentEntrants, other.id ≠ entrant.id) →
          (addEntrant entrant guard db).1 = .ok .already)

/-- In every state that requests can reach, every tournament is within the limits. -/
theorem field_within_limits {clock : Instant} {trace : List (Moment bunker)} {stop : Config bunker}
    (run : Run (Config.quiet (World.initial clock)) trace stop) (id : TournamentId) :
    WithinLimits id stop.state.db := by
  obtain ⟨good, -⟩ := boards_along run
  have bounded := (bounded_along run id).1
  have rows_lt : (matchRowsOf id stop.state.db).length < maxEntrants := (good.boards id).rows_length
  exact
    { entrants_le := bounded.size
      players := bounded.players
      matches_le := Nat.le_of_lt_succ rows_lt
      entrants_read := entrants_whole bounded.size
      matches_read := matchesOf_whole (Nat.le_of_lt rows_lt)
      repeated := by
        rintro row member entrant guard rfl entered
        obtain ⟨same, already⟩ := addEntrant_repeat member entered
        exact ⟨same, entrantOf_eq bounded.players member entered, already⟩ }

set_option maxRecDepth 10000 in
/-- The two entrants of the cup, the first of them deleted. -/
theorem field_within_limits_cup :
    ∃ trace stop, Run Cup.start trace stop ∧ (entrantRows Cup.id stop.state.db).length = 2 ∧
      WithinLimits Cup.id stop.state.db := by
  obtain ⟨trace, stop, run, found⟩ := bunkerScript.exists_run Cup.start
    (Cup.drawn ++ alone 2 (.deletePlayer ⟨2⟩ ⟨1⟩) 0)
    (fun _ stop => decide ((entrantRows Cup.id stop.state.db).length = 2)) (by decide +kernel)
  exact ⟨trace, stop, run, of_decide_eq_true found, field_within_limits run Cup.id⟩

end LanBunker
