import LanBunker.Accounts.Entries
import LanBunker.Tournaments.Alone

/-!
# The wins of a concluded tournament

A conclusion that runs alone pays a win for each played match to the account of its winner.  From
then on the matches stay, and an account that is deleted takes its wins and its name with it.
-/

namespace LanBunker

open Relational Interleaving TournamentStorage

/-! ## The wins among the awards -/

section Awards

variable (tournament : TournamentId) (entrants : List Entrant) (winner : Option EntrantId)
  (player : PlayerId)

theorem winAward_eq (m : Match) :
    winAward entrants m = (m.winner.bind (playerOf entrants)).map fun player =>
      { player, amount := matchWinCycles, kind := .matchWin, sourceRef := m.id.toText } := by
  rw [winAward]
  cases m.winner with
  | none => rfl
  | some w =>
      rw [Option.bind_some]
      cases found : playerOf entrants w with
      | none => simp [found]
      | some account => simp [found]

/-- A conclusion pays a player the matches that its entrants won, and no other. -/
theorem tournamentAwards_wins (bracket : Option Bracket) :
    ((tournamentAwards tournament entrants bracket winner).filter fun award =>
        award.kind = .matchWin ∧ award.player = player).map Award.sourceRef =
      ((bracket.elim [] Bracket.flat).filter fun m =>
        m.isPlayed ∧ m.winner.bind (playerOf entrants) = some player).map fun m => m.id.toText := by
  have entries : (entryAwards tournament entrants).filter (fun award =>
      award.kind = .matchWin ∧ award.player = player) = [] := by
    rw [List.filter_eq_nil_iff]
    intro award member
    simp [(mem_entryAwards member).1]
  have placements : (conclusionPlacements tournament entrants bracket winner).filter
      (fun award => award.kind = .matchWin ∧ award.player = player) = [] := by
    rw [List.filter_eq_nil_iff]
    intro award member wins
    have kind := (mem_conclusionPlacements member).1
    simp [(of_decide_eq_true wins).1, PointKind.isPlacement] at kind
  rw [tournamentAwards_eq, List.filter_append, List.filter_append, entries, placements,
    List.nil_append, List.append_nil]
  cases bracket with
  | none => rfl
  | some bracket =>
      simp only [conclusionWins, Option.map_some, Option.getD_some, winAwards, Option.elim_some]
      rw [List.filter_filterMap, List.map_filterMap, List.filterMap_filter, ← List.filterMap_eq_map,
        List.filterMap_filter]
      refine List.filterMap_congr fun m _ => ?_
      rw [winAward_eq]
      by_cases played : m.isPlayed
      · cases m.winner.bind (playerOf entrants) with
        | none => simp
        | some account => simp [played, Option.filter_some, apply_ite]
      · simp [played]

end Awards

/-! ## The wins of a board -/

namespace Board

/-- The player behind an entrant of the board. -/
def accountOf (board : Board) (entrant : Option EntrantId) : Option PlayerId :=
  (entrant.bind fun id => board.entrants.find? fun row => row.id = id).bind EntrantRow.player

/-- The wins of a player on the ledger, as the matches they name. -/
def winsPaid (board : Board) (player : PlayerId) : List UuidText :=
  (board.ledger.filter fun row => row.kind = .matchWin ∧ row.player = player).map
    PointRow.sourceRef

/-- The played matches that a player won. -/
def winsPlayed (board : Board) (player : PlayerId) : List MatchRow :=
  board.rows.filter fun row => row.isPlayed ∧ board.accountOf row.winner = some player

/-- A concluded board pays every player the matches that they won. -/
def Settled (board : Board) : Prop :=
  board.status = some .concluded → ∀ player,
    (board.winsPaid player).Perm ((board.winsPlayed player).map fun row => row.id.toText)

section Anonymised

variable (board : Board) (gone : PlayerId)

theorem accountOf_anonymised (entrant : Option EntrantId) :
    (board.anonymised gone).accountOf entrant =
      (board.accountOf entrant).filter fun player => player ≠ gone := by
  cases entrant with
  | none => rfl
  | some id =>
      simp only [accountOf, Board.anonymised, Option.bind_some]
      rw [List.find?_map]
      have same : (fun row : EntrantRow => decide (row.id = id)) ∘ (fun row : EntrantRow =>
          if row.player = some gone then { row with player := none } else row) =
          fun row => decide (row.id = id) := by
        funext row
        simp only [Function.comp_apply]
        split_ifs <;> rfl
      rw [same]
      cases board.entrants.find? fun row => decide (row.id = id) with
      | none => rfl
      | some row =>
          simp only [Option.map_some, Option.bind_some]
          split_ifs with named
          · simp [named, Option.filter_some]
          · cases account : row.player with
            | none => rfl
            | some player =>
                have other : player ≠ gone := fun same => named (same ▸ account)
                simp [Option.filter_some, other]

theorem winsPaid_anonymised (player : PlayerId) :
    (board.anonymised gone).winsPaid player =
      if player = gone then [] else board.winsPaid player := by
  simp only [winsPaid, Board.anonymised]
  rw [List.filter_map, List.map_map, List.filter_filter]
  split_ifs with same
  · rw [List.map_eq_nil_iff, List.filter_eq_nil_iff]
    rintro row -
    simp only [Function.comp_apply]
    split_ifs <;> simp [same]
  · have kept : (fun row : PointRow => (((fun row : PointRow =>
        decide (row.kind = .matchWin ∧ row.player = player)) ∘ fun row =>
          if row.createdBy = some gone then { row with createdBy := none } else row) row) &&
        decide (row.player ≠ gone)) =
        fun row => decide (row.kind = .matchWin ∧ row.player = player) := by
      funext row
      simp only [Function.comp_apply]
      split_ifs <;> grind
    rw [kept]
    refine List.map_congr_left fun row _ => ?_
    simp only [Function.comp_apply]
    split_ifs <;> rfl

theorem winsPlayed_anonymised (player : PlayerId) :
    (board.anonymised gone).winsPlayed player =
      if player = gone then [] else board.winsPlayed player := by
  simp only [winsPlayed, accountOf_anonymised]
  split_ifs with same
  · rw [List.filter_eq_nil_iff]
    rintro row -
    simp [same, Option.filter_eq_some_iff]
  · refine List.filter_congr fun row _ => ?_
    simp [same, Option.filter_eq_some_iff]

theorem Settled.anonymised (settled : board.Settled) : (board.anonymised gone).Settled := by
  intro concluded player
  rw [winsPaid_anonymised, winsPlayed_anonymised]
  split_ifs
  · exact .refl _
  · exact settled concluded player

end Anonymised

/-- A board that is not concluded is settled. -/
theorem settled_of_open {board : Board} {row : TournamentRow} (found : board.row = some row)
    (open_row : row.status ≠ .concluded) : board.Settled := by
  intro concluded
  rw [status, found] at concluded
  exact absurd (Option.some.inj concluded) open_row

/-- A conclusion settles its board, and no other step unsettles one. -/
theorem Move.settled {label : Label bunker} {fresh : List Nat} {id : TournamentId}
    {board after : Board} (move : Move label fresh id board after) (settled : board.Settled)
    (concluded : ∀ source winner awards instant draw,
      Answered label (.setStatus id source .concluded winner awards instant draw) true →
        after.Settled) : after.Settled := by
  cases move with
  | stay => exact settled
  | anonymised player => exact settled.anonymised board player
  | created absent new draft => exact settled_of_open rfl (by simp [draft])
  | edited found open_row same_status => exact settled_of_open rfl (same_status ▸ open_row)
  | moved found move =>
      refine settled_of_open rfl fun target => ?_
      simp only at target
      simp [Moves, target] at move
  | concluded found open_row seated tied answered => exact concluded _ _ _ _ _ answered
  | deleted =>
      intro impossible
      cases impossible
  | entered found open_row => exact settled_of_open found open_row
  | rated found open_row => exact settled_of_open found open_row
  | left found open_row => exact settled_of_open found open_row
  | drawn found live => exact settled_of_open found (by simp [live])
  | undrawn found open_row => exact settled_of_open found open_row
  | resulted found open_row => exact settled_of_open found open_row

end Board

/-! ## A conclusion settles its board -/

section Conclusion

variable {db : Database} {id : TournamentId} {used : List Nat}

theorem account_toEntrant (referenced : db.Referenced) {row : EntrantRow}
    (member : row ∈ db.tournamentEntrants) : (db.toEntrant row).account = row.player := by
  simp only [Entrant.account, Database.toEntrant, Option.map_map]
  cases named : row.player with
  | none => rfl
  | some player =>
      obtain ⟨found, found_mem, same⟩ := List.any_eq_true.mp (referenced row member player named)
      have somebody : (db.player? player).isSome :=
        find?_key_isSome.mpr ⟨found, found_mem, of_decide_eq_true same⟩
      obtain ⟨account, account_found⟩ := Option.isSome_iff_exists.mp somebody
      rw [Option.bind_some, account_found]
      exact congrArg some (find?_key_eq_some account_found).2

/-- The awards look up the accounts of the board. -/
theorem playerOf_entrantsOf (referenced : db.Referenced) (entrant : EntrantId) :
    playerOf (db.entrantsOf id) entrant = (db.board id).accountOf (some entrant) := by
  rw [playerOf, Database.entrantsOf, List.find?_map, Board.accountOf, Option.bind_some]
  have same : (fun e : Entrant => decide (e.id = entrant)) ∘ db.toEntrant =
      fun row => decide (row.id = entrant) := rfl
  rw [same, show (db.board id).entrants = entrantRows id db from rfl]
  cases found : (entrantRows id db).find? fun row => decide (row.id = entrant) with
  | none => rfl
  | some row =>
      have member := (List.mem_filter.mp (List.mem_of_find?_eq_some found)).1
      exact account_toEntrant referenced member

/-- A ledger that agrees with the stored entrants and matches settles the board. -/
theorem settled_of_agrees {moment : Moment bunker} {named : Option EntrantId}
    (good : moment.after.db.Good used) (referenced : moment.after.db.Referenced)
    (agrees : Agrees id named moment) : (moment.after.db.board id).Settled := by
  intro _ player
  obtain ⟨bracket, read, ledger⟩ := agrees.ledger
  have paid : ((moment.after.db.board id).winsPaid player).Perm
      (((bracket.elim [] Bracket.flat).filter fun m => m.isPlayed ∧
        m.winner.bind (playerOf (moment.after.db.entrantsOf id)) = some player).map
          fun m => m.id.toText) := by
    rw [← tournamentAwards_wins]
    have awards := (ledger.filter fun award =>
      award.kind = .matchWin ∧ award.player = player).map Award.sourceRef
    rw [List.filter_map, List.map_map] at awards
    exact awards
  refine paid.trans (List.Perm.of_eq ?_)
  rcases (good.boards id).bracketOf_matchList with ⟨no_rows, found⟩ | ⟨order, held, holds, found⟩
  · obtain rfl := Except.ok.inj (found.symm.trans read)
    simp [Board.winsPlayed, no_rows]
  · obtain rfl := Except.ok.inj (found.symm.trans read)
    rw [Board.winsPlayed, holds.2.2, List.filter_map, List.map_map, Option.elim_some]
    congr 1
    refine List.filter_congr fun m _ => ?_
    have same : m.winner.bind (playerOf (moment.after.db.entrantsOf id)) =
        (moment.after.db.board id).accountOf m.winner := by
      cases m.winner with
      | none => rfl
      | some winner => exact playerOf_entrantsOf referenced winner
    have played : (MatchRow.ofMatch id m).isPlayed = m.isPlayed :=
      (Bool.and_assoc _ _ _).trans (Bool.and_comm _ _)
    rw [Function.comp_apply, played, same]
    rfl

end Conclusion

/-- In every run of requests one at a time, every concluded board is settled. -/
theorem settled_along {clock : Instant} {trace : List (Moment bunker)} {stop : Config bunker}
    (serial : SerialRun (Config.quiet (World.initial clock)) trace stop) (id : TournamentId) :
    (stop.state.db.board id).Settled := by
  let holds : TournamentId → Board → Prop := fun _ board => board.Settled
  have empty : ∀ id, holds id .empty := fun _ impossible => by cases impossible
  let concludes : Moment bunker → Prop := fun moment =>
    ∀ id source winner awards instant draw,
      Board.Answered moment.label (.setStatus id source .concluded winner awards instant draw)
        true → (moment.after.db.board id).Settled
  have keeps : ∀ (moment : Moment bunker) fresh id, concludes moment → moment.before.Good →
      Board.Move moment.label fresh id (moment.before.db.board id) (moment.after.db.board id) →
      holds id (moment.before.db.board id) → holds id (moment.after.db.board id) :=
    fun moment fresh id concluded _ move settled => move.settled settled (concluded id)
  refine (board_invariant empty keeps serial.run ?_ id).1
  intro moment member id source winner awards instant draw answered
  obtain ⟨name, request, past, label⟩ := answered
  obtain ⟨change, rfl, target, -⟩ := (observed serial.run member label).may
  have committed : conclusion? moment = some (id, change.winner) := by rw [conclusion?, label]
  have current := current_of_serial serial moment member id change.winner committed
  exact settled_of_agrees ((boards_along serial.run).2 moment member).after
    ((referenced_along serial.run).2 moment member).2
    (agrees_of_current serial.run member committed current)

end LanBunker
