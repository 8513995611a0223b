import LanBunker.Effects.Events
import LanBunker.Effects.Players
import LanBunker.Effects.Tournaments
import LanBunker.Services.Operation

/-!
# What a storage call touches

A tournament method leaves the accounts and the check-ins alone, and an event method everything
but the events, their check-ins and the ledger.
-/

namespace LanBunker

open TournamentStorage

/-! ## Tournament methods -/

/-- The entries after a write: each has the player of an entry before, or is new. -/
def EntriesFrom (db after : Database) : Prop :=
  ∀ entry ∈ after.tournamentEntrants,
    (∃ old ∈ db.tournamentEntrants, old.player = entry.player) ∨
      ∃ player, entry.player = some player ∧ db.hasPlayer player

section Operations

variable {db after : Database}

theorem EntriesFrom.same (same : after.tournamentEntrants = db.tournamentEntrants) :
    EntriesFrom db after := fun entry member => Or.inl ⟨entry, same ▸ member, rfl⟩

theorem EntriesFrom.map {write : EntrantRow → EntrantRow}
    (keeps : ∀ entry, (write entry).player = entry.player)
    (mapped : after.tournamentEntrants = db.tournamentEntrants.map write) :
    EntriesFrom db after := by
  intro entry member
  rw [mapped] at member
  obtain ⟨old, old_mem, rfl⟩ := List.mem_map.mp member
  exact Or.inl ⟨old, old_mem, (keeps old).symm⟩

theorem EntriesFrom.filter {kept : EntrantRow → Bool}
    (filtered : after.tournamentEntrants = db.tournamentEntrants.filter kept) :
    EntriesFrom db after := by
  intro entry member
  rw [filtered] at member
  exact Or.inl ⟨entry, (List.mem_filter.mp member).1, rfl⟩

/-- What a tournament method does outside the tournaments. -/
structure TournamentOp.Effect (db after : Database) : Prop where
  players : after.players = db.players
  events : after.events = db.events
  checkins : after.eventCheckins = db.eventCheckins
  entries : EntriesFrom db after
  /-- The ledger stays, gains the awards of a tournament, or loses what is tied to one. -/
  ledger : after.pointEntries = db.pointEntries ∨
    (∃ id instant draw awards,
      (∀ row ∈ awardRows (.tournament id) instant draw 0 awards, row.isChecked) ∧
        after.pointEntries = db.pointEntries ++ awardRows (.tournament id) instant draw 0 awards) ∨
    ∃ id, after.pointEntries = db.pointEntries.filter fun row => row.tournament ≠ some id

theorem TournamentOp.Effect.same (same : after = db) : TournamentOp.Effect db after where
  players := congrArg Database.players same
  events := congrArg Database.events same
  checkins := congrArg Database.eventCheckins same
  entries := .same (congrArg Database.tournamentEntrants same)
  ledger := Or.inl (congrArg Database.pointEntries same)

theorem TournamentOp.effect (op : TournamentOp) {answer : Except StorageError op.Ans}
    (called : op.method db = (answer, after)) : TournamentOp.Effect db after := by
  cases op with
  | create row =>
      rcases create_cases called with same | ⟨-, stored, -, -, -, rfl⟩
      · exact .same same
      · exact ⟨rfl, rfl, rfl, .same rfl, Or.inl rfl⟩
  | get id => exact .same (congrArg Prod.snd called).symm
  | update id expected fields =>
      rcases update_cases called with same | rfl
      · exact .same same
      · exact ⟨rfl, rfl, rfl, .same rfl, Or.inl rfl⟩
  | setStatus id source target winner awards instant draw =>
      rcases setStatus_cases called with ⟨-, moved⟩ | ⟨same, -⟩
      · have checked := moved.paid.checked
        rw [moved.paid.after_eq]
        exact ⟨rfl, rfl, rfl, .same rfl, Or.inr (Or.inl ⟨id, instant, draw, awards, checked, rfl⟩)⟩
      · exact .same same
  | delete id =>
      rcases delete_cases called with same | rfl
      · exact .same same
      · exact ⟨rfl, rfl, rfl, .filter rfl, Or.inr (Or.inr ⟨id, rfl⟩)⟩
  | entrants id => exact .same (congrArg Prod.snd called).symm
  | entrantOf id player => exact .same (congrArg Prod.snd called).symm
  | addEntrant entrant guard =>
      rcases addEntrant_cases called with same | ⟨-, -, -, -, there, rfl⟩
      · exact .same same
      · refine ⟨rfl, rfl, rfl, fun entry member => ?_, Or.inl rfl⟩
        rcases List.mem_append.mp member with old | new
        · exact Or.inl ⟨entry, old, rfl⟩
        · obtain rfl := List.mem_singleton.mp new
          exact Or.inr ⟨entrant.player, rfl, there⟩
  | setSkill id player skill guard =>
      rcases setSkill_cases called with same | ⟨-, rfl⟩
      · exact .same same
      · exact ⟨rfl, rfl, rfl, .map (fun entry => by split_ifs <;> rfl) rfl, Or.inl rfl⟩
  | removeEntrant id entrant guard =>
      rcases removeEntrant_cases called with same | ⟨-, -, -, rfl⟩
      · exact .same same
      · exact ⟨rfl, rfl, rfl, .filter rfl, Or.inl rfl⟩
  | removeEntrantOf id player guard =>
      rcases removeEntrantOf_cases called with same | ⟨-, -, -, rfl⟩
      · exact .same same
      · exact ⟨rfl, rfl, rfl, .filter rfl, Or.inl rfl⟩
  | matchesOf id => exact .same (congrArg Prod.snd called).symm
  | replaceBracket id expected order bracket =>
      rcases replaceBracket_cases called with ⟨-, seated⟩ | ⟨same, -⟩
      · have keeps : ∀ row, (seatRow id 1 order (unseatRow id row)).player = row.player :=
          fun row => seatRow_player.trans (unseatRow_player row)
        rw [seated.after_eq]
        exact ⟨rfl, rfl, rfl, .map keeps List.map_map, Or.inl rfl⟩
      · exact .same same
  | deleteBracket id expected =>
      rcases deleteBracket_cases called with ⟨-, unseated⟩ | ⟨same, -⟩
      · have keeps : ∀ row, (unseatRow id row).player = row.player := unseatRow_player
        rw [unseated.after_eq]
        exact ⟨rfl, rfl, rfl, .map keeps rfl, Or.inl rfl⟩
      · exact .same same
  | updateMatches id expected changes =>
      rcases updateMatches_cases called with ⟨-, resulted⟩ | ⟨same, -⟩
      · rw [resulted.after_eq]
        exact ⟨rfl, rfl, rfl, .same rfl, Or.inl rfl⟩
      · exact .same same

/-! ## Event methods -/

/-- An event method writes the events, the check-ins and the ledger. -/
theorem EventOp.tables_eq (op : EventOp) {answer : Except StorageError op.Ans}
    (called : op.method db = (answer, after)) :
    after = { db with
      events := after.events
      eventCheckins := after.eventCheckins
      pointEntries := after.pointEntries } := by
  cases op with
  | create row =>
      rcases EventStorage.create_cases called with rfl | ⟨stored, -, -, rfl⟩
      · rfl
      · rfl
  | get id =>
      obtain ⟨-, rfl⟩ := Prod.mk.inj called
      rfl
  | getByCode code =>
      obtain ⟨-, rfl⟩ := Prod.mk.inj called
      rfl
  | update id fields =>
      rcases EventStorage.update_cases called with rfl | ⟨write, -, rfl⟩
      · rfl
      · rfl
  | setStatus id status =>
      rcases EventStorage.setStatus_cases called with rfl | ⟨write, -, rfl⟩
      · rfl
      · rfl
  | delete id =>
      rcases EventStorage.delete_cases called with rfl | rfl
      · rfl
      · rfl
  | removeCheckin id player =>
      obtain ⟨-, rfl⟩ :=
        Prod.mk.inj ((EventStorage.removeCheckin_eq id player db).symm.trans called)
      rfl
  | checkins id =>
      obtain ⟨-, rfl⟩ := Prod.mk.inj called
      rfl
  | checkIn id player instant award draw =>
      rcases EventStorage.checkIn_cases called with ⟨-, entered⟩ | ⟨-, -, -, rfl⟩ | ⟨-, -, rfl, -⟩
      · rw [entered.after_eq]
      · rfl
      · rfl

theorem EventOp.players_eq (op : EventOp) {answer : Except StorageError op.Ans}
    (called : op.method db = (answer, after)) : after.players = db.players := by
  rw [op.tables_eq called]

/-- The primary key of the events. -/
theorem EventOp.keys (op : EventOp) {answer : Except StorageError op.Ans}
    (called : op.method db = (answer, after)) (keys : (db.events.map EventRow.id).Nodup) :
    (after.events.map EventRow.id).Nodup := by
  have unchanged : after = db → (after.events.map EventRow.id).Nodup := by
    rintro rfl
    exact keys
  have mapped : ∀ write : EventRow → EventRow, (∀ row, (write row).id = row.id) →
      ((db.events.map write).map EventRow.id).Nodup := by
    intro write same_id
    have same : EventRow.id ∘ write = EventRow.id := funext same_id
    rw [List.map_map, same]
    exact keys
  cases op with
  | create row =>
      rcases EventStorage.create_cases called with same | ⟨stored, -, new, rfl⟩
      · exact unchanged same
      · rw [List.map_append, List.map_singleton]
        refine List.Nodup.append keys (List.nodup_singleton _) ?_
        rw [List.disjoint_singleton]
        intro taken
        obtain ⟨other, member, same⟩ := List.mem_map.mp taken
        exact new other member same
  | get id => exact unchanged (congrArg Prod.snd called).symm
  | getByCode code => exact unchanged (congrArg Prod.snd called).symm
  | update id fields =>
      rcases EventStorage.update_cases called with same | ⟨write, same_id, rfl⟩
      · exact unchanged same
      · exact mapped write same_id
  | setStatus id status =>
      rcases EventStorage.setStatus_cases called with same | ⟨write, same_id, rfl⟩
      · exact unchanged same
      · exact mapped write same_id
  | delete id =>
      rcases EventStorage.delete_cases called with same | rfl
      · exact unchanged same
      · exact keys.sublist (List.filter_sublist.map EventRow.id)
  | removeCheckin id player =>
      obtain ⟨-, rfl⟩ :=
        Prod.mk.inj ((EventStorage.removeCheckin_eq id player db).symm.trans called)
      exact keys
  | checkins id => exact unchanged (congrArg Prod.snd called).symm
  | checkIn id player instant award draw =>
      rcases EventStorage.checkIn_cases called with ⟨-, entered⟩ | ⟨-, -, -, same⟩ | ⟨-, -, same, -⟩
      · rw [entered.after_eq]
        exact keys
      · exact unchanged same
      · exact unchanged same

/-! ## Account methods -/

theorem PlayerOp.events_eq (op : PlayerOp) {answer : Except StorageError op.Ans}
    (called : op.method db = (answer, after)) : after.events = db.events := by
  have unchanged : after = db → after.events = db.events := congrArg Database.events
  cases op with
  | create player =>
      rcases PlayerStorage.create_cases called with same | ⟨-, rfl⟩
      · exact unchanged same
      · rfl
  | access id => exact unchanged (congrArg Prod.snd called).symm
  | credentialsById id => exact unchanged (congrArg Prod.snd called).symm
  | credentialsByHandle handle => exact unchanged (congrArg Prod.snd called).symm
  | setPassword id passwordHash mustChange changedAt =>
      rcases PlayerStorage.setPassword_cases called with ⟨-, -, rfl⟩ | ⟨same, -⟩
      · rfl
      · exact unchanged same
  | isThere id => exact unchanged (congrArg Prod.snd called).symm
  | setRole id role =>
      rcases PlayerStorage.setRole_cases called with ⟨-, -, rfl⟩ | ⟨-, -, same⟩
      · rfl
      · exact unchanged same
  | delete id =>
      rcases PlayerStorage.delete_cases called with ⟨-, -, rfl⟩ | ⟨-, -, same⟩
      · rfl
      · exact unchanged same
  | list query term active order => exact unchanged (congrArg Prod.snd called).symm
  | addAdjustment adjustment =>
      rcases PointStorage.addAdjustment_cases called with same | ⟨-, rfl⟩
      · exact unchanged same
      · rfl
  | history player query => exact unchanged (congrArg Prod.snd called).symm
  | totals player => exact unchanged (congrArg Prod.snd called).symm

end Operations
end LanBunker
