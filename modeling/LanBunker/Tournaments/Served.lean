import LanBunker.Tournaments.Accepted
import LanBunker.Services.Alone
import LanBunker.Tournaments.Capacity
import LanBunker.Tournaments.Answers
import LanBunker.Tournaments.Editor

/-!
# The bracket routes of a live tournament

The requests of the bracket editor while other requests run, as long as those leave this
tournament alone.  What such a request asks for is done, unless the database is busy.
-/

namespace LanBunker

open Interleaving TournamentStorage

/-! ## Amid other requests -/

namespace World

/-- What other requests may have done: anything but to the board of this tournament. -/
structure Elsewhere (id : TournamentId) (world later : World) : Prop where
  board : later.db.board id = world.db.board id
  good : world.Good → later.Good

/-- One operation, and then what other requests do before the next one. -/
def Amid (id : TournamentId) (op : Op) (world : World) (answer : op.Ans) (after : World) : Prop :=
  ∃ done, Exec op world answer done ∧ Elsewhere id done after

theorem Elsewhere.refl (id : TournamentId) (world : World) : Elsewhere id world world :=
  ⟨rfl, fun good => good⟩

theorem Elsewhere.trans {id : TournamentId} {first second third : World}
    (early : Elsewhere id first second) (late : Elsewhere id second third) :
    Elsewhere id first third :=
  ⟨late.board.trans early.board, fun good => late.good (early.good good)⟩

end World

namespace Service

variable {α β : Type} {id : TournamentId} {world : World}

/-- Amid other requests every value meets `post`, and the one error is that the database is busy,
which leaves the board as it was. -/
def Served (id : TournamentId) (service : Service α) (world : World)
    (post : α → World → Prop) : Prop :=
  Program.Always (World.Amid id) service world fun result after =>
    match result with
    | .ok value => post value after
    | .error error => error = .ofStorage .busy ∧ World.Elsewhere id world after

theorem served_pure {value : α} {post : α → World → Prop} (holds : post value world) :
    Served id (pure value) world post := holds

theorem served_ofExcept {result : Except ServiceError α} {value : α} {post : α → World → Prop}
    (result_eq : result = .ok value) (holds : post value world) :
    Served id (ofExcept result) world post := by
  subst result_eq
  exact holds

theorem served_okOr {found : Option α} {value : α} {error : ServiceError} {post : α → World → Prop}
    (found_eq : found = some value) (holds : post value world) :
    Served id (okOr found error) world post := by
  subst found_eq
  exact holds

/-- The rule of sequence: what comes before the last call leaves the board as it is. -/
theorem served_bind {service : Service α} {rest : α → Service β} {post : β → World → Prop}
    (served : Served id service world fun value middle =>
      World.Elsewhere id world middle ∧ Served id (rest value) middle post) :
    Served id (service >>= rest) world post := by
  refine Program.always_bind.mpr (Program.Always.mono served fun result middle holds => ?_)
  cases result with
  | error error => exact holds
  | ok value =>
      obtain ⟨kept, served⟩ := holds
      refine Program.Always.mono served fun result after holds => ?_
      cases result with
      | ok value => exact holds
      | error error => exact ⟨holds.1, kept.trans holds.2⟩

/-- What comes after a write only answers. -/
theorem served_then {service : Service α} {rest : α → Service β} {post : β → World → Prop}
    (served : Served id service world fun value middle =>
      ∃ result, rest value = pure result ∧ post result middle) :
    Served id (service >>= rest) world post := by
  refine Program.always_bind.mpr (Program.Always.mono served fun result middle holds => ?_)
  cases result with
  | error error => exact holds
  | ok value =>
      obtain ⟨result, rest_eq, holds⟩ := holds
      dsimp only
      rw [rest_eq]
      exact holds

theorem Served.mono {service : Service α} {post post' : α → World → Prop}
    (served : Served id service world post)
    (weaker : ∀ value after, post value after → post' value after) :
    Served id service world post' := by
  refine Program.Always.mono served fun result after holds => ?_
  cases result with
  | ok value => exact weaker value after holds
  | error error => exact holds

/-- A method that answers, unless it finds the database busy. -/
theorem served_store {op : StorageOp} {post : op.Ans → World → Prop}
    (runs : world.IsFresh op → ∃ answer db, op.method world.db = (.ok answer, db) ∧
      ∀ later, World.Elsewhere id { world with db, used := world.used ++ op.generated } later →
        post answer later) :
    Served id (store op) world post := by
  rintro result after ⟨done, ⟨fresh, performed⟩ | ⟨rfl, rfl⟩, elsewhere⟩
  · obtain ⟨answer, db, called, holds⟩ := runs fresh
    obtain ⟨rfl, rfl⟩ := Prod.mk.inj ((store_eq called).symm.trans performed)
    exact holds after elsewhere
  · exact ⟨rfl, elsewhere⟩

theorem served_read {op : StorageOp} {answer : op.Ans} {post : op.Ans → World → Prop}
    (called : op.method world.db = (.ok answer, world.db)) (none_drawn : op.generated = [])
    (holds : ∀ later, World.Elsewhere id world later → post answer later) :
    Served id (store op) world post := by
  refine served_store fun _ => ⟨answer, world.db, called, fun later elsewhere => holds later ?_⟩
  rwa [none_drawn, List.append_nil] at elsewhere

theorem served_draw {kind : IdKind} {post : (Nat → Id kind) → World → Prop}
    (holds : ∀ draw later, World.Elsewhere id world later → post draw later) :
    Served id (ask (.draw kind)) world post := by
  rintro draw after ⟨done, rfl, elsewhere⟩
  exact holds draw after elsewhere

theorem served_shuffle {entrants : List Entrant} {post : List Entrant → World → Prop}
    (holds : ∀ shuffled later, shuffled.Perm entrants → World.Elsewhere id world later →
      post shuffled later) :
    Served id (ask (.shuffle entrants)) world post := by
  rintro shuffled after ⟨done, ⟨perm, rfl⟩, elsewhere⟩
  exact holds shuffled after perm elsewhere

end Service

/-! ## A live tournament -/

/-- A step that moves every board keeps them in order. -/
theorem Database.Good.step {label : Label bunker} {used fresh : List Nat} {db after : Database}
    (good : db.Good used) (steps : Steps label fresh db after) : after.Good (used ++ fresh) :=
  ⟨steps.tournaments, steps.entrants, fun id => (steps.moves id).ok (good.boards id)⟩

/-- Every match counts its round from 1. -/
theorem Database.Good.rounds {used : List Nat} {db : Database} (good : db.Good used) :
    ∀ row ∈ db.matchRows, 1 ≤ row.round := by
  intro row member
  have on_board : row ∈ (db.board row.tournament).rows :=
    List.mem_filter.mpr ⟨member, decide_eq_true rfl⟩
  obtain ⟨order, bracket, drawn, -, rows_eq⟩ :=
    (good.boards row.tournament).bracket.resolve_left (List.ne_nil_of_mem on_board)
  rw [rows_eq] at on_board
  obtain ⟨m, m_mem, row_eq⟩ := List.mem_map.mp on_board
  obtain ⟨round, slot, found⟩ := Bracket.mem_flat_iff.mp m_mem
  have placed := (drawn.coherent.placed round slot m found).1
  have same_round : row.round = m.round := (congrArg MatchRow.round row_eq).symm
  omega

/-- Every match was stored under an identifier of its own. -/
theorem Database.Good.match_used {used : List Nat} {db : Database} (good : db.Good used) :
    ∀ row ∈ db.matchRows, row.id.uuid ∈ used := fun row member =>
  (good.boards row.tournament).rows_used row
    (List.mem_filter.mpr ⟨member, decide_eq_true rfl⟩)

namespace World

/-- The tournament is live and a read knows its instants, in a world in order. -/
structure Live (id : TournamentId) (world : World) : Prop where
  good : world.Good
  bounded : (world.db.board id).Bounded
  status : (world.db.board id).status = some .live
  readable : ∀ row, (world.db.board id).row = some row → row.IsReadable

section Live

variable {id : TournamentId} {world later : World}

theorem Live.elsewhere (live : Live id world) (elsewhere : Elsewhere id world later) :
    Live id later :=
  ⟨elsewhere.good live.good, elsewhere.board ▸ live.bounded, elsewhere.board ▸ live.status,
    elsewhere.board ▸ live.readable⟩

theorem Live.row (live : Live id world) :
    ∃ row, (world.db.board id).row = some row ∧ row.status = .live :=
  Option.map_eq_some_iff.mp live.status

theorem Live.found (live : Live id world) :
    ∃ row ∈ world.db.tournaments, row.id = id ∧ row.status = .live := by
  obtain ⟨row, found, status⟩ := live.row
  obtain ⟨member, row_id⟩ := tournament?_eq_some found
  exact ⟨row, member, row_id, status⟩

/-- A step of the boards that leaves the row of the tournament, and what happens elsewhere. -/
theorem Live.step (live : Live id world) {label : Label bunker} {fresh : List Nat}
    {after : Database} (steps : Steps label fresh world.db after)
    (same_row : (after.board id).row = (world.db.board id).row) :
    Live id { world with db := after, used := world.used ++ fresh } where
  good := Database.Good.step live.good steps
  bounded := (steps.moves id).bounded live.bounded
  status := by
    rw [Board.status, same_row]
    exact live.status
  readable row found := live.readable row (same_row.symm.trans found)

end Live
end World

/-! ## What the writes of a request find -/

section Writes

variable {id : TournamentId} {world : World} {db : Database} {order : List EntrantId}
  {bracket : Bracket}

/-- Between entrants of the board, every match of a bracket can be written. -/
theorem isWritable_of_drawn (drawn : bracket.Drawn order)
    (seated : ∀ entrant ∈ order, (db.board id).Seats entrant) {m : Match}
    (member : m ∈ bracket.flat) : IsWritable db id m := by
  obtain ⟨round, slot, found⟩ := Bracket.mem_flat_iff.mp member
  have there : ∀ entrant ∈ order, db.hasEntrant id (some entrant) = true := by
    intro entrant entrant_mem
    obtain ⟨row, row_mem, row_id⟩ := seated entrant entrant_mem
    obtain ⟨row_there, here⟩ := List.mem_filter.mp row_mem
    rw [Database.hasEntrant, Option.all_some, List.any_eq_true]
    exact ⟨row, row_there, decide_eq_true ⟨of_decide_eq_true here, row_id⟩⟩
  have side_there : ∀ entrant : Option EntrantId,
      (∀ e, entrant = some e → m.entrantA = some e ∨ m.entrantB = some e) →
        db.hasEntrant id entrant = true := by
    intro entrant side
    cases entrant with
    | none => rfl
    | some e => exact there e (drawn.coherent.side_mem found (side e rfl))
  have sound := drawn.coherent.sound round slot m found
  refine ⟨⟨side_there _ fun e => Or.inl, side_there _ fun e => Or.inr, side_there _ sound⟩, ?_⟩
  cases won : m.winner with
  | none => exact Or.inl rfl
  | some winner =>
      rcases sound winner won with a | b
      · exact Or.inr (Or.inl a.symm)
      · exact Or.inr (Or.inr b.symm)

/-- The board is read with its bracket, and a result that may be entered is written. -/
theorem updateMatches_accepted (live : World.Live id world)
    (holds : (world.db.board id).Holds id order bracket) {call : Bracket.Call} {round slot : Nat}
    {m : Match} {winner : Option EntrantId} (id_eq : m.id = call.matchId)
    (enterable : bracket.Enterable round slot m) (enters : call.Enters m winner) :
    ∃ after, updateMatches id .live
        (changePairs bracket ((bracket.enter round slot winner).changed round slot)) world.db =
          (.ok true, after) ∧
      Steps .drift [] world.db after ∧
      (after.board id).row = (world.db.board id).row ∧
      (after.board id).entrants = (world.db.board id).entrants ∧
      (after.board id).rows = (bracket.play call).flat.map (MatchRow.ofMatch id) := by
  obtain ⟨drawn, seated, rows_eq⟩ := holds
  have ids := drawn.distinctIds
  have called := Bracket.result_of_enters ids id_eq enterable enters
  have entered : bracket.enter round slot winner = bracket.play call := by
    rw [Bracket.play_eq, called]
  have rewrites : Rewrites id world.db.matchRows
      (changePairs bracket ((bracket.enter round slot winner).changed round slot)) := by
    rw [← rewrites_own]
    have own : (world.db.matchRows.filter fun row => row.tournament = id) =
        bracket.flat.map (MatchRow.ofMatch id) := rows_eq
    rw [own]
    exact ((readChanges_enter ids enterable.found winner).written ids id).1
  have writable : ∀ change ∈
      changePairs bracket ((bracket.enter round slot winner).changed round slot),
      IsWritable world.db id change.2 := by
    intro change member
    obtain ⟨changed, changed_mem, paired⟩ := List.mem_filterMap.mp member
    obtain ⟨before, -, rfl⟩ := Option.map_eq_some_iff.mp paired
    refine isWritable_of_drawn (drawn.play call) seated ?_
    rw [← entered]
    rw [Bracket.changed, List.reduceOption, List.mem_filterMap] at changed_mem
    obtain ⟨found, found_mem, rfl⟩ := changed_mem
    simp only [List.mem_cons, List.not_mem_nil, or_false] at found_mem
    rcases found_mem with found | found
    · exact Bracket.mem_flat_iff.mpr ⟨_, _, found.symm⟩
    · exact Bracket.mem_flat_iff.mpr ⟨_, _, found.symm⟩
  have done := updateMatches_done live.found live.good.rounds writable rewrites
  cases written : updateMatches id .live
      (changePairs bracket ((bracket.enter round slot winner).changed round slot)) world.db with
  | mk answer after =>
      rw [written] at done
      obtain rfl : answer = .ok true := done
      rcases updateMatches_cases written with ⟨-, resulted⟩ | ⟨-, refused⟩
      · obtain ⟨row, row_found, row_status⟩ := live.row
        have some_change : (bracket.enter round slot winner).changed round slot ≠ [] := by
          rw [Bracket.changed_enter enterable.found]
          exact List.cons_ne_nil _ _
        obtain ⟨other_order, other, other_holds, -, after_rows⟩ :=
          resulted_board resulted (live.good.boards id) (live.good.boards id)
            ⟨drawn, seated, rows_eq⟩ (.refl _ _ _) (congrArg Prod.fst called) some_change
        obtain rfl : bracket = other := Board.Holds.eq_of_rows ⟨drawn, seated, rows_eq⟩
          other_holds.1.coherent other_holds.2.2
        refine ⟨after, rfl, .resulted live.good resulted ?_, ?_, ?_, after_rows⟩
        · rw [after_rows]
          refine .resulted row_found ?_ ⟨drawn, seated, rows_eq⟩
          rw [row_status]
          decide
        · rw [resulted.after_eq]
          rfl
        · rw [resulted.after_eq]
          rfl
      · exact absurd rfl refused

end Writes

section Draws

variable {id : TournamentId} {world : World} {order : List EntrantId} {bracket : Bracket}

/-- A live tournament without results lets go of its bracket. -/
theorem bracketBlocked_live (live : World.Live id world)
    (unplayed : ∀ row ∈ (world.db.board id).rows, row.isPlayed = false) :
    bracketBlocked id .live world.db = .done := by
  have none_played :
      (world.db.matchRows.any fun row => row.tournament = id ∧ row.isPlayed) = false := by
    rw [List.any_eq_false]
    intro row member
    simp only [decide_eq_true_eq, not_and, Bool.not_eq_true]
    intro here
    exact unplayed row (List.mem_filter.mpr ⟨member, decide_eq_true here⟩)
  simp only [bracketBlocked, statusHolds_eq live.found, none_played, Bool.not_true,
    Bool.false_eq_true, if_false]

/-- New matches are inserted where the old ones went. -/
theorem isInsertable_of_drawn (live : World.Live id world) (drawn : bracket.Drawn order)
    (fresh : world.IsFresh (.tournaments (.replaceBracket id .live order bracket)))
    (seated : ∀ entrant ∈ order, (world.db.board id).Seats entrant) :
    IsInsertable { world.db with matchRows := world.db.matchRows.filter fun row =>
      row.tournament ≠ id } id bracket.flat where
  rounds m member := by
    obtain ⟨round, slot, found⟩ := Bracket.mem_flat_iff.mp member
    have placed := (drawn.coherent.placed round slot m found).1
    omega
  writable m member := by
    have writable := isWritable_of_drawn drawn seated member
    exact ⟨writable.sides, writable.winner⟩
  ids := drawn.distinctIds
  places := drawn.coherent.flat_ordered.imp fun {left right} before => by
    rcases before with earlier | ⟨-, before⟩
    · exact Or.inl (Nat.ne_of_lt earlier)
    · exact Or.inr (Nat.ne_of_lt before)
  new m member row row_mem same := by
    have stored := live.good.match_used row (List.mem_filter.mp row_mem).1
    have generated : m.id.uuid ∈ bracket.flat.map fun m => m.id.uuid :=
      List.mem_map_of_mem member
    rw [same] at stored
    exact fresh.2 m.id.uuid generated stored
  free m member row row_mem := Or.inl (of_decide_eq_true (List.mem_filter.mp row_mem).2)

/-- New matches have identifiers of their own. -/
theorem distinctIds_of_fresh
    (fresh : world.IsFresh (.tournaments (.replaceBracket id .live order bracket))) :
    bracket.DistinctIds := by
  have uuids : ((bracket.flat.map Match.id).map Id.uuid).Nodup := by
    rw [List.map_map]
    exact fresh.1
  exact List.Nodup.of_map _ uuids

/-- A new bracket over entrants of the board is written, with their places as their seeds. -/
theorem replaceBracket_accepted (live : World.Live id world)
    (unplayed : ∀ row ∈ (world.db.board id).rows, row.isPlayed = false) {draw : Nat → MatchId}
    (generated : Bracket.generate draw order = .ok bracket)
    (fresh : world.IsFresh (.tournaments (.replaceBracket id .live order bracket)))
    (order_nodup : order.Nodup)
    (seated : ∀ entrant ∈ order, (world.db.board id).Seats entrant) :
    ∃ after label, replaceBracket id .live order bracket world.db = (.ok .done, after) ∧
      Steps label (bracket.flat.map fun m => m.id.uuid) world.db after ∧
      (after.board id).row = (world.db.board id).row ∧
      (after.board id).entrants = (world.db.board id).entrants.map
        (fun row => seatRow id 1 order (unseatRow id row)) ∧
      (after.board id).rows = bracket.flat.map (MatchRow.ofMatch id) := by
  have ids := distinctIds_of_fresh fresh
  have there : ∀ entrant ∈ order, ∃ row ∈ world.db.tournamentEntrants,
      row.tournament = id ∧ row.id = entrant := by
    intro entrant member
    obtain ⟨row, row_mem, row_id⟩ := seated entrant member
    obtain ⟨row_there, here⟩ := List.mem_filter.mp row_mem
    exact ⟨row, row_there, of_decide_eq_true here, row_id⟩
  have done := replaceBracket_done (bracketBlocked_live live unplayed) live.good.entrants there
    (isInsertable_of_drawn live (.of_generate generated ids) fresh seated)
  cases written : replaceBracket id .live order bracket world.db with
  | mk answer after =>
      rw [written] at done
      obtain rfl : answer = .ok .done := done
      rcases replaceBracket_cases written with ⟨-, placed⟩ | ⟨-, refused⟩
      · have seats : (after.board id).entrants = (world.db.board id).entrants.map
            (fun row => seatRow id 1 order (unseatRow id row)) := by
          rw [placed.after_eq, List.map_map]
          exact filter_map_entrants fun row => by
            rw [Function.comp_apply, seatRow_tournament, unseatRow_tournament]
        have same_row : (after.board id).row = (world.db.board id).row := by
          rw [placed.after_eq]
          rfl
        refine ⟨after, .call 0 (.generateBracket id) []
          (.store (.tournaments (.replaceBracket id .live order bracket))) (.ok .done), rfl, ?_,
          same_row, seats, (board_seated placed).1⟩
        exact .drawn live.good placed generated ids (fun m member => List.mem_map_of_mem member)
          order_nodup ⟨0, .generateBracket id, [], rfl⟩
      · exact absurd rfl refused

/-- A bracket without results is removed, with the seeds. -/
theorem deleteBracket_accepted (live : World.Live id world)
    (unplayed : ∀ row ∈ (world.db.board id).rows, row.isPlayed = false) :
    ∃ after, deleteBracket id .live world.db = (.ok .done, after) ∧
      Steps .drift [] world.db after ∧
      (after.board id).row = (world.db.board id).row ∧
      (after.board id).entrants.map EntrantRow.id =
        (world.db.board id).entrants.map EntrantRow.id ∧
      (after.board id).rows = [] := by
  have done := deleteBracket_done (bracketBlocked_live live unplayed)
  cases written : deleteBracket id .live world.db with
  | mk answer after =>
      rw [written] at done
      obtain rfl : answer = .ok .done := done
      rcases deleteBracket_cases written with ⟨-, unseated⟩ | ⟨-, refused⟩
      · refine ⟨after, rfl, .undrawn live.good unseated (by decide), ?_, ?_, ?_⟩
        · rw [unseated.after_eq]
          rfl
        · rw [unseated.after_eq]
          have entrants_eq : (world.db.tournamentEntrants.map (unseatRow id)).filter
              (fun row => row.tournament = id) =
              (world.db.tournamentEntrants.filter fun row => row.tournament = id).map
                (unseatRow id) := filter_map_entrants unseatRow_tournament
          refine (congrArg (List.map EntrantRow.id) entrants_eq).trans ?_
          rw [List.map_map]
          exact List.map_congr_left fun row _ => unseatRow_id row
        · rw [unseated.after_eq]
          refine List.filter_eq_nil_iff.mpr fun row member => ?_
          simpa using (List.mem_filter.mp member).2
      · exact absurd rfl refused

end Draws

/-! ## The requests of the editor -/

namespace TournamentService

open Service

variable {id : TournamentId} {world : World} {order : List EntrantId} {bracket shown : Bracket}

theorem served_load (live : World.Live id world) {post : Tournament → World → Prop}
    (holds : ∀ (tournament : Tournament) later, World.Elsewhere id world later →
      tournament.id = id → tournament.status = .live →
        (tournament.hasBracket = true ↔ (world.db.board id).rows ≠ []) → post tournament later) :
    Served id (load id) world post := by
  obtain ⟨row, found, status⟩ := live.row
  obtain ⟨-, row_id⟩ := tournament?_eq_some found
  have answered : (TournamentStorage.get id world.db).1 =
      .ok (some (tournamentOf world.db row)) :=
    get_eq_ok.mpr ⟨row, found, live.readable row found, rfl⟩
  refine served_bind (served_read (Prod.ext answered rfl) rfl fun later elsewhere =>
    ⟨elsewhere, ?_⟩)
  refine served_okOr rfl (holds _ later elsewhere row_id status ?_)
  have rows_iff : (world.db.board id).rows ≠ [] ↔ ∃ m ∈ world.db.matchRows, m.tournament = id := by
    rw [Ne, Database.board, matchRowsOf, List.filter_eq_nil_iff]
    simp
  rw [rows_iff, tournamentOf, TournamentStorage.shown]
  simp [row_id]

/-- The bracket that is read is the bracket of the board. -/
theorem served_bracket {found : Option Bracket} {post : Option Bracket → World → Prop}
    (read : bracketOf (world.db.board id).matchList = .ok found)
    (holds : ∀ later, World.Elsewhere id world later → post found later) :
    Served id (TournamentService.bracket id) world post :=
  served_bind (served_read rfl rfl fun later elsewhere =>
    ⟨elsewhere, served_ofExcept read (holds later elsewhere)⟩)

/-- The request behind a click on a side. -/
def enterResult (id : TournamentId) : Bracket.Call → Service Bracket
  | .report matchId winner => reportResult id matchId winner
  | .clear matchId => clearResult id matchId

theorem enterResult_eq (id : TournamentId) (call : Bracket.Call) :
    enterResult id call = (do
      let (tournament, read) ← loadOpenBracket id call.matchId
      writeCall tournament read (read.result call)) := by
  cases call <;> rfl

theorem served_loadOpenBracket (live : World.Live id world)
    (holds : (world.db.board id).Holds id order shown) {matchId : MatchId}
    {post : Tournament × Bracket → World → Prop}
    (then_holds : ∀ (tournament : Tournament) later, World.Elsewhere id world later →
      tournament.id = id → tournament.status = .live → post (tournament, shown) later) :
    Served id (loadOpenBracket id matchId) world post := by
  rw [loadOpenBracket]
  refine served_bind (served_load live fun tournament middle kept id_eq status _ => ⟨kept, ?_⟩)
  have open_now : requireNotConcluded tournament = .ok () := by
    rw [requireNotConcluded, status]
    rfl
  have read : bracketOf (middle.db.board id).matchList = .ok (some shown) := by
    rw [kept.board]
    exact holds.bracketOf_matchList
  refine served_bind (served_ofExcept open_now ⟨.refl id middle, ?_⟩)
  refine served_bind (served_bracket read fun later further => ⟨further, ?_⟩)
  refine served_bind (served_okOr rfl ⟨.refl id later, ?_⟩)
  exact served_pure (then_holds tournament later (kept.trans further) id_eq status)

/-- A result that the shown bracket takes is entered, and the answer is the stored bracket. -/
theorem served_enterResult (live : World.Live id world)
    (holds : (world.db.board id).Holds id order shown) {call : Bracket.Call} {round slot : Nat}
    {m : Match} {winner : Option EntrantId} (id_eq : m.id = call.matchId)
    (enterable : shown.Enterable round slot m) (enters : call.Enters m winner) :
    Served id (enterResult id call) world fun answer later => World.Live id later ∧
      (later.db.board id).Holds id order answer ∧
      (later.db.board id).entrants = (world.db.board id).entrants := by
  have called := Bracket.result_of_enters holds.1.distinctIds id_eq enterable enters
  rw [enterResult_eq]
  refine served_bind (served_loadOpenBracket live holds
    fun tournament middle kept tournament_id status => ⟨kept, ?_⟩)
  have live_here := live.elsewhere kept
  have holds_here : (middle.db.board id).Holds id order shown := kept.board ▸ holds
  obtain ⟨after, written, steps, same_row, same_entrants, rows_eq⟩ :=
    updateMatches_accepted live_here holds_here id_eq enterable enters
  simp only [writeCall, called]
  refine served_bind (served_ofExcept rfl ⟨.refl id middle, ?_⟩)
  subst tournament_id
  have wrote : (updateMatches tournament.id tournament.status (changePairs shown
      ((shown.enter round slot winner).changed round slot)) middle.db) = (.ok true, after) := by
    rw [status]
    exact written
  refine served_then (served_then (served_store fun _ =>
    ⟨true, after, wrote, fun later elsewhere => ⟨(), rfl, shown.enter round slot winner, rfl, ?_⟩⟩))
  have entered : shown.enter round slot winner = shown.play call := by
    rw [Bracket.play_eq, called]
  refine ⟨(live_here.step steps same_row).elsewhere elsewhere, ⟨?_, ?_, ?_⟩, ?_⟩
  · rw [entered]
    exact holds.1.play call
  · intro entrant member
    rw [elsewhere.board, Board.Seats, same_entrants]
    exact holds_here.2.1 entrant member
  · rw [elsewhere.board, rows_eq, entered]
  · rw [elsewhere.board, same_entrants, kept.board]

end TournamentService

namespace TournamentService

open Service

variable {id : TournamentId} {world : World} {order : List EntrantId} {bracket : Bracket}

/-- The matches of a board without results. -/
def Unplayed (board : Board) : Prop := ∀ row ∈ board.rows, row.isPlayed = false

theorem isPlayed_ofMatch (m : Match) : (MatchRow.ofMatch id m).isPlayed = m.isPlayed := by
  simp only [MatchRow.isPlayed, MatchRow.ofMatch, Match.isPlayed, Match.isReady]
  rw [Bool.and_assoc, Bool.and_comm]

theorem unplayed_iff {board : Board} (holds : board.Holds id order bracket) :
    Unplayed board ↔ bracket.hasResults = false := by
  rw [Unplayed, holds.2.2, Bracket.hasResults, List.any_eq_false]
  simp only [List.forall_mem_map, isPlayed_ofMatch, Bool.not_eq_true]

theorem served_loadBracketEditable (live : World.Live id world)
    (unplayed : Unplayed (world.db.board id)) {post : Tournament → World → Prop}
    (holds : ∀ (tournament : Tournament) later, World.Elsewhere id world later →
      tournament.id = id → tournament.status = .live →
        (tournament.hasBracket = true ↔ (world.db.board id).rows ≠ []) → post tournament later) :
    Served id (loadBracketEditable id) world post := by
  rw [loadBracketEditable]
  refine served_bind (served_load live fun tournament middle kept id_eq status has => ⟨kept, ?_⟩)
  simp only [status]
  obtain ⟨found, read, free⟩ : ∃ found,
      bracketOf (middle.db.board id).matchList = .ok found ∧
        Option.any Bracket.hasResults found = false := by
    rw [kept.board]
    rcases (live.good.boards id).bracketOf_matchList with ⟨-, read⟩ | ⟨order, bracket, held, read⟩
    · exact ⟨none, read, rfl⟩
    · exact ⟨some bracket, read, (unplayed_iff held).mp unplayed⟩
  refine served_bind (served_bracket read fun later further => ⟨further, ?_⟩)
  rw [free]
  exact served_pure (holds tournament later (kept.trans further) id_eq status has)

/-- What a bracket over an order leaves on the board. -/
structure Placed (id : TournamentId) (order : List EntrantId) (world : World) (bracket : Bracket)
    (later : World) : Prop where
  live : World.Live id later
  holds : (later.db.board id).Holds id order bracket
  entrants : (later.db.board id).entrants =
    (world.db.board id).entrants.map fun row => seatRow id 1 order (unseatRow id row)

/-- A bracket over an order of the entrants is drawn and stored. -/
theorem served_buildBracket (live : World.Live id world)
    (unplayed : Unplayed (world.db.board id)) {tournament : Tournament}
    (tournament_id : tournament.id = id) (status : tournament.status = .live)
    (perm : order.Perm ((world.db.board id).entrants.map EntrantRow.id))
    (two_le : 2 ≤ order.length) :
    Served id (buildBracket tournament order) world (Placed id order world) := by
  have fits : order.length ≤ maxEntrants := by
    rw [perm.length_eq, List.length_map]
    exact live.bounded.size
  have order_nodup : order.Nodup := perm.nodup_iff.mpr (live.good.entrants_nodup id)
  have seated : ∀ entrant ∈ order, (world.db.board id).Seats entrant := fun entrant member =>
    List.mem_map.mp (perm.subset member)
  subst tournament_id
  rw [buildBracket]
  refine served_bind (served_draw fun draw middle kept => ⟨kept, ?_⟩)
  have live_here := live.elsewhere kept
  obtain ⟨bracket, generated⟩ := Bracket.generate_isOk draw two_le fits
  refine served_bind (served_ofExcept (congrArg (Except.mapError ServiceError.ofBracket) generated)
    ⟨.refl _ middle, ?_⟩)
  rw [← kept.board] at seated
  rw [Unplayed, ← kept.board] at unplayed
  rw [status]
  refine served_then (served_store fun fresh => ?_)
  obtain ⟨after, label, written, steps, same_row, seats, rows_eq⟩ :=
    replaceBracket_accepted live_here unplayed generated fresh order_nodup seated
  refine ⟨.done, after, written, fun later elsewhere => ⟨bracket, rfl, ?_⟩⟩
  refine ⟨(live_here.step steps same_row).elsewhere elsewhere, ⟨?_, ?_, ?_⟩, ?_⟩
  · exact .of_generate generated (distinctIds_of_fresh fresh)
  · intro entrant member
    obtain ⟨row, row_mem, row_id⟩ := seated entrant member
    rw [elsewhere.board, Board.Seats, seats]
    refine ⟨_, List.mem_map_of_mem row_mem, ?_⟩
    rw [seatRow_id, unseatRow_id, row_id]
  · rw [elsewhere.board, rows_eq]
  · rw [elsewhere.board, seats, kept.board]

theorem entrants_read (live : World.Live id world) :
    ∃ listed, (TournamentStorage.entrants id world.db) = (.ok listed, world.db) ∧
      listed.Perm ((world.db.board id).entrants.map world.db.toEntrant) := by
  obtain ⟨listed, answered, perm⟩ := entrants_whole live.bounded.size
  exact ⟨listed, Prod.ext answered rfl, perm⟩

/-- The bracket is drawn, or drawn again, over the entrants of the board. -/
theorem served_generateBracket (live : World.Live id world)
    (unplayed : Unplayed (world.db.board id))
    (two_le : 2 ≤ (world.db.board id).entrants.length) :
    Served id (generateBracket id) world fun answer later =>
      ∃ order, order.Perm ((world.db.board id).entrants.map EntrantRow.id) ∧
        Placed id order world answer later := by
  rw [generateBracket]
  refine served_bind (served_loadBracketEditable live unplayed
    fun tournament middle kept id_eq status _ => ⟨kept, ?_⟩)
  have live_here := live.elsewhere kept
  obtain ⟨listed, answered, listed_perm⟩ := entrants_read live_here
  refine served_bind (served_read answered rfl fun later further => ⟨further, ?_⟩)
  refine served_bind (served_shuffle fun shuffled last shuffle final => ⟨final, ?_⟩)
  have here := (kept.trans further).trans final
  have perm : (seedOrder shuffled).Perm ((world.db.board id).entrants.map EntrantRow.id) := by
    refine (seedOrder_perm shuffled).trans ((shuffle.map Entrant.id).trans ?_)
    refine (listed_perm.map Entrant.id).trans (.of_eq ?_)
    rw [List.map_map, kept.board]
    rfl
  have many : 2 ≤ (seedOrder shuffled).length := by
    rwa [perm.length_eq, List.length_map]
  rw [← here.board] at perm unplayed
  have placed := served_buildBracket (live.elsewhere here) unplayed id_eq status perm many
  rw [here.board] at perm
  refine placed.mono fun answer after placed => ⟨_, perm, placed.live, placed.holds, ?_⟩
  rw [placed.entrants, here.board]

theorem sameEntrants_of_perm {expected given : List EntrantId} (perm : given.Perm expected) :
    sameEntrants expected given = true := by
  have total : ∀ left right : EntrantId, left ≤ right ∨ right ≤ left := fun left right =>
    Nat.le_total left.uuid right.uuid
  have chained : ∀ first second third : EntrantId, first ≤ second → second ≤ third →
      first ≤ third := fun first second third => Nat.le_trans
  have : Std.Total (fun left right : EntrantId => left ≤ right) := ⟨total⟩
  have : IsTrans EntrantId (fun left right => left ≤ right) := ⟨chained⟩
  have sorted := List.pairwise_insertionSort fun left right : EntrantId => left ≤ right
  have shared : (expected.insertionSort fun left right => left ≤ right).Perm
      (given.insertionSort fun left right => left ≤ right) :=
    (List.perm_insertionSort _ expected).trans
      (perm.symm.trans (List.perm_insertionSort _ given).symm)
  have antisymm : ∀ left right : EntrantId, left ≤ right → right ≤ left → left = right :=
    fun left right le ge => Id.ext_uuid (Nat.le_antisymm le ge)
  exact decide_eq_true
    (shared.eq_of_pairwise (fun left right _ _ => antisymm left right) (sorted _) (sorted _))

/-- A seed order of all the entrants replaces the bracket. -/
theorem served_reorderSeeds (live : World.Live id world)
    (unplayed : Unplayed (world.db.board id)) (drawn : (world.db.board id).rows ≠ [])
    (perm : order.Perm ((world.db.board id).entrants.map EntrantRow.id))
    (two_le : 2 ≤ order.length) :
    Served id (reorderSeeds id order) world (Placed id order world) := by
  rw [reorderSeeds]
  refine served_bind (served_loadBracketEditable live unplayed
    fun tournament middle kept id_eq status has => ⟨kept, ?_⟩)
  rw [if_pos (has.mpr drawn)]
  obtain ⟨listed, answered, listed_perm⟩ := entrants_read (live.elsewhere kept)
  refine served_bind (served_read answered rfl fun later further => ⟨further, ?_⟩)
  have same : sameEntrants (listed.map Entrant.id) order = true := by
    refine sameEntrants_of_perm (perm.trans ?_)
    refine List.Perm.trans (.of_eq ?_) (listed_perm.map Entrant.id).symm
    rw [List.map_map, kept.board]
    rfl
  rw [if_pos same]
  have here := kept.trans further
  rw [← here.board] at perm unplayed
  have placed := served_buildBracket (live.elsewhere here) unplayed id_eq status perm two_le
  refine placed.mono fun answer after placed => ⟨placed.live, placed.holds, ?_⟩
  rw [placed.entrants, here.board]

/-- A bracket without results is removed. -/
theorem served_deleteBracket (live : World.Live id world)
    (unplayed : Unplayed (world.db.board id)) :
    Served id (deleteBracket id) world fun _ later => World.Live id later ∧
      (later.db.board id).rows = [] ∧ (later.db.board id).entrants.map EntrantRow.id =
        (world.db.board id).entrants.map EntrantRow.id := by
  rw [TournamentService.deleteBracket]
  refine served_bind (served_load live fun tournament middle kept id_eq status _ => ⟨kept, ?_⟩)
  have open_now : requireNotConcluded tournament = .ok () := by
    rw [requireNotConcluded, status]
    rfl
  refine served_bind (served_ofExcept open_now ⟨.refl id middle, ?_⟩)
  rw [Unplayed, ← kept.board] at unplayed
  have live_here := live.elsewhere kept
  obtain ⟨after, written, steps, same_row, same_ids, rows_eq⟩ :=
    deleteBracket_accepted live_here unplayed
  rw [status]
  refine served_then (served_store fun _ => ⟨.done, after, written, fun later elsewhere => ?_⟩)
  refine ⟨(), rfl, ?_⟩
  refine ⟨(live_here.step steps same_row).elsewhere elsewhere, ?_, ?_⟩
  · rw [elsewhere.board, rows_eq]
  · rw [elsewhere.board, same_ids, kept.board]

end TournamentService

end LanBunker
