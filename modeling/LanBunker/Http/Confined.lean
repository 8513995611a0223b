import LanBunker.Effects.Operations
import LanBunker.Services.Writes

/-!
# What a player changes

The writes of the requests that a player makes for themself touch the rows of that player and no
other, and no role.
-/

namespace LanBunker

/-- A tournament after an entry of a player went: the same, or without the winner that it was. -/
def TournamentKept (player : PlayerId) (db : Database) (old new : TournamentRow) : Prop :=
  new = old ∨ new = { old with winner := none } ∧
    ∃ entry ∈ db.tournamentEntrants, entry.player = some player ∧ old.winner = some entry.id

/-- An account after a change: another player's is the same, and the player's has its role. -/
def AccountKept (player : PlayerId) (old new : PlayerRow) : Prop :=
  new.id = old.id ∧ new.role = old.role ∧ (old.id ≠ player → new = old)

/-- A change that touches nothing but the account, the entries, the check-ins and the ledger of one
player, and the winner of a tournament where the winner was an entry of theirs.  The ledger gains
no line but the one a check-in pays. -/
structure Confined (player : PlayerId) (db after : Database) : Prop where
  players : List.Forall₂ (AccountKept player) db.players after.players
  tournaments : List.Forall₂ (TournamentKept player db) db.tournaments after.tournaments
  matchRows : after.matchRows = db.matchRows
  events : after.events = db.events
  entrants : after.tournamentEntrants.filter (fun row => row.player ≠ some player) =
    db.tournamentEntrants.filter fun row => row.player ≠ some player
  checkins : after.eventCheckins = db.eventCheckins ∧ after.pointEntries = db.pointEntries ∨
    ∃ event instant line, after.eventCheckins = db.eventCheckins ++ [⟨event, player, instant⟩] ∧
      after.pointEntries = db.pointEntries ++ [line] ∧ line.player = player ∧
      line.kind = .checkin ∧ line.amount = checkinCycles ∧ line.event = some event

namespace Confined

variable {player : PlayerId} {db after : Database}

theorem refl (player : PlayerId) (db : Database) : Confined player db db where
  players := List.forall₂_same.mpr fun _ _ => ⟨rfl, rfl, fun _ => rfl⟩
  tournaments := List.forall₂_same.mpr fun _ _ => Or.inl rfl
  matchRows := rfl
  events := rfl
  entrants := rfl
  checkins := Or.inl ⟨rfl, rfl⟩

theorem of_eq (same : after = db) : Confined player db after := same ▸ refl player db

/-- A write to the account of the player. -/
theorem of_account {write : PlayerRow → PlayerRow} (id : ∀ row, (write row).id = row.id)
    (role : ∀ row, (write row).role = row.role)
    (others : ∀ row, row.id ≠ player → write row = row) :
    Confined player db { db with players := db.players.map write } :=
  { refl player db with
    players := by
      rw [List.forall₂_map_right_iff]
      exact List.forall₂_same.mpr fun row _ => ⟨id row, role row, others row⟩ }

theorem of_rename {handle : Handle} {answer : Except StorageError Renamed}
    (called : PlayerStorage.rename player handle db = (answer, after)) :
    Confined player db after := by
  rcases PlayerStorage.rename_cases called with ⟨-, -, -, rfl⟩ | ⟨-, -, -, same⟩ | ⟨-, -, same⟩
  · refine of_account (fun row => ?_) (fun row => ?_) fun row other => if_neg other
    · split_ifs <;> rfl
    · split_ifs <;> rfl
  · exact of_eq same
  · exact of_eq same

theorem of_addEntrant {entrant : NewEntrant} {guard : EntrantGuard}
    {answer : Except StorageError Enrolled}
    (called : TournamentStorage.addEntrant entrant guard db = (answer, after)) :
    Confined entrant.player db after := by
  rcases TournamentStorage.addEntrant_cases called with same | ⟨-, -, -, -, -, rfl⟩
  · exact of_eq same
  · exact { refl entrant.player db with
      entrants := by simp [List.filter_append, TournamentStorage.entrantRow] }

theorem of_setSkill {id : TournamentId} {skill : SkillLevel} {guard : EntrantGuard}
    {answer : Except StorageError Bool}
    (called : TournamentStorage.setSkill id player skill guard db = (answer, after)) :
    Confined player db after := by
  rcases TournamentStorage.setSkill_cases called with same | ⟨-, rfl⟩
  · exact of_eq same
  · refine { refl player db with entrants := ?_ }
    rw [List.filter_map]
    have same_owner : ((fun row : EntrantRow => decide (row.player ≠ some player)) ∘ fun row =>
        if row.tournament = id ∧ row.player = some player then { row with skill := some skill }
        else row) = fun row => decide (row.player ≠ some player) := by
      funext row
      simp only [Function.comp_apply]
      split_ifs <;> rfl
    rw [same_owner]
    refine (List.map_congr_left fun row member => ?_).trans (List.map_id _)
    have other := of_decide_eq_true (List.mem_filter.mp member).2
    exact if_neg fun own => other own.2

theorem of_removeEntrantOf {id : TournamentId} {guard : EntrantGuard}
    {answer : Except StorageError Bool}
    (called : TournamentStorage.removeEntrantOf id player guard db = (answer, after)) :
    Confined player db after := by
  rcases Method.single_cases called with ⟨affected, deleted, -⟩ | ⟨unchanged, -⟩
  · rw [TournamentStorage.deleteEntrants_ok deleted]
    refine { refl player db with tournaments := ?_, entrants := ?_ }
    · rw [Database.unlinkWinners, List.forall₂_map_right_iff]
      refine List.forall₂_same.mpr fun row _ => ?_
      split_ifs with lost
      · obtain ⟨winner, was_winner, is_lost⟩ := (Option.any_eq_true _ _).mp lost
        obtain ⟨entry, member, matched⟩ := List.any_eq_true.mp is_lost
        obtain ⟨gone, rfl⟩ := of_decide_eq_true matched
        exact Or.inr ⟨rfl, entry, member, (of_decide_eq_true gone).2.1, was_winner⟩
      · exact Or.inl rfl
    · rw [List.filter_filter]
      refine List.filter_congr fun row _ => ?_
      by_cases own : row.player = some player
      · simp [own]
      · simp [own]
  · exact of_eq unchanged

theorem of_checkIn {event : EventId} {instant : Instant} {draw : Nat → PointEntryId}
    {answer : Except StorageError CheckedIn}
    (called : EventStorage.checkIn event player instant (checkinAward event player) draw db =
      (answer, after)) : Confined player db after := by
  rcases EventStorage.checkIn_cases called with ⟨-, entered⟩ | ⟨-, -, -, same⟩ | ⟨-, -, same, -⟩
  · rw [entered.after_eq]
    exact { refl player db with
      checkins := Or.inr ⟨event, _, _, rfl, rfl, rfl, rfl, rfl, rfl⟩ }
  · exact of_eq same
  · exact of_eq same

end Confined
end LanBunker
