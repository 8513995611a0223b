import LanBunker.Effects.Ledger
import LanBunker.Storage.Events

/-!
# What the event and check-in writes do
-/

namespace LanBunker

open Transaction

namespace EventStorage

variable {db after : Database} {id : EventId}

theorem create_cases {row : NewEventRow} {answer : Except StorageError Unit}
    (called : create row db = (answer, after)) :
    after = db ∨ ∃ stored : EventRow, stored.id = row.id ∧
      (∀ other ∈ db.events, other.id ≠ stored.id) ∧
      after = { db with events := db.events ++ [stored] } := by
  rcases Method.single_cases called with ⟨affected, inserted, -⟩ | ⟨unchanged, -⟩
  · simp only [insertEvent, guarded_cons_ok, guarded_nil_ok, Except.ok.injEq, Prod.mk.injEq,
      List.all_eq_true, decide_eq_true_eq] at inserted
    obtain ⟨-, new, -, -, after_eq⟩ := inserted
    exact Or.inr ⟨_, rfl, new, after_eq.symm⟩
  · exact Or.inl unchanged

/-- An edit of an event keeps the events, and what each of them is. -/
theorem update_cases {fields : EventFields} {answer : Except StorageError Bool}
    (called : update id fields db = (answer, after)) :
    after = db ∨ ∃ write : EventRow → EventRow, (∀ row, (write row).id = row.id) ∧
      after = { db with events := db.events.map write } := by
  rcases Method.single_cases called with ⟨affected, updated, -⟩ | ⟨unchanged, -⟩
  · simp only [updateEvent, guarded_cons_ok, guarded_nil_ok, Except.ok.injEq,
      Prod.mk.injEq] at updated
    obtain ⟨-, -, rfl⟩ := updated
    refine Or.inr ⟨_, fun row => ?_, rfl⟩
    split_ifs <;> rfl
  · exact Or.inl unchanged

theorem setStatus_cases {status : EventStatus} {answer : Except StorageError Bool}
    (called : setStatus id status db = (answer, after)) :
    after = db ∨ ∃ write : EventRow → EventRow, (∀ row, (write row).id = row.id) ∧
      after = { db with events := db.events.map write } := by
  rcases Method.single_cases called with ⟨affected, updated, -⟩ | ⟨unchanged, -⟩
  · simp only [Except.ok.injEq, Prod.mk.injEq] at updated
    obtain ⟨-, rfl⟩ := updated
    refine Or.inr ⟨_, fun row => ?_, rfl⟩
    split_ifs <;> rfl
  · exact Or.inl unchanged

theorem delete_cases {answer : Except StorageError Bool} (called : delete id db = (answer, after)) :
    after = db ∨
      after = { db with
        events := db.events.filter fun row => row.id ≠ id
        eventCheckins := db.eventCheckins.filter fun row => row.event ≠ id
        pointEntries := db.pointEntries.filter fun row => row.event ≠ some id } := by
  rcases Method.single_cases called with ⟨affected, deleted, -⟩ | ⟨unchanged, -⟩
  · split_ifs at deleted with found
    · simp only [Except.ok.injEq, Prod.mk.injEq] at deleted
      exact Or.inr deleted.2.symm
    · simp only [Except.ok.injEq, Prod.mk.injEq] at deleted
      exact Or.inl deleted.2.symm
  · exact Or.inl unchanged

/-- The check-in and the cycles it paid go together. -/
theorem removeCheckin_eq (event : EventId) (player : PlayerId) (db : Database) :
    removeCheckin event player db =
      (.ok (0 < db.eventCheckins.countP fun row => row.event = event ∧ row.player = player),
        { db with
          eventCheckins := db.eventCheckins.filter fun row =>
            !(row.event = event ∧ row.player = player : Bool)
          pointEntries := db.pointEntries.filter fun row =>
            !(row.kind = .checkin ∧ row.event = some event ∧ row.player = player : Bool) }) := rfl

/-- The check-in of a player at an event. -/
theorem checkin?_eq_none_iff {event : EventId} {player : PlayerId} :
    checkin? event player db = none ↔
      ∀ row ∈ db.eventCheckins, ¬(row.event = event ∧ row.player = player) := by
  simp [checkin?]

theorem checkin?_eq_some {event : EventId} {player : PlayerId} {row : CheckinRow}
    (found : checkin? event player db = some row) :
    row ∈ db.eventCheckins ∧ row.event = event ∧ row.player = player := by
  have named := List.find?_some found
  exact ⟨List.mem_of_find?_eq_some found, of_decide_eq_true named⟩

theorem insertCheckin_ok {row : CheckinRow} {affected : Nat}
    (inserted : insertCheckin row db = .ok (affected, after)) :
    0 < row.checkedInAt ∧ checkin? row.event row.player db = none ∧ db.hasEvent row.event ∧
      db.hasPlayer row.player ∧ after = { db with eventCheckins := db.eventCheckins ++ [row] } := by
  simp only [insertCheckin, guarded_cons_ok, guarded_nil_ok, Except.ok.injEq, Prod.mk.injEq,
    decide_eq_true_eq, Option.isNone_iff_eq_none] at inserted
  obtain ⟨positive, new, ⟨event, player⟩, -, rfl⟩ := inserted
  exact ⟨positive, new, event, player, rfl⟩

/-- What a check-in that made a row leaves behind. -/
structure Entered (event : EventId) (player : PlayerId) (instant : Instant) (award : Award)
    (draw : Nat → PointEntryId) (db after : Database) : Prop where
  positive : 0 < toMicros instant
  new : checkin? event player db = none
  hasEvent : db.hasEvent event
  hasPlayer : db.hasPlayer player
  after_eq : after = { db with
    eventCheckins := db.eventCheckins ++ [⟨event, player, toMicros instant⟩]
    pointEntries := db.pointEntries ++ [awardRow (.event event) instant (draw 0) award] }
  unpaid : ∀ other ∈ db.pointEntries,
    other.key ≠ (awardRow (.event event) instant (draw 0) award).key

section Entered

variable {event : EventId} {player : PlayerId} {instant : Instant} {award : Award}
  {draw : Nat → PointEntryId}

/-- The player of a new check-in is active. -/
theorem Entered.active (entered : Entered event player instant award draw db after) :
    after.activeOf player := by
  obtain ⟨row, row_mem, row_id⟩ := List.any_eq_true.mp entered.hasPlayer
  rw [entered.after_eq]
  cases found : db.player? player with
  | none => exact absurd row_id (by simpa using List.find?_eq_none.mp found row row_mem)
  | some row =>
      have named : row.id = player := by simpa using List.find?_some found
      have same : Database.player? { db with
          eventCheckins := db.eventCheckins ++ [⟨event, player, toMicros instant⟩]
          pointEntries := db.pointEntries ++
            [awardRow (.event event) instant (draw 0) award] } player = some row := found
      rw [Database.activeOf, same, Option.any_some, Database.isActive]
      simp [named]

/-- The row of a new check-in. -/
theorem Entered.inserted (entered : Entered event player instant award draw db after) :
    checkin? event player after = some ⟨event, player, toMicros instant⟩ := by
  have new := entered.new
  rw [checkin?] at new
  rw [entered.after_eq, checkin?, List.find?_append, new]
  simp

end Entered

theorem insertCheckin_error {row : CheckinRow} {error : StorageError}
    (refused : insertCheckin row db = .error error) :
    error ≠ .uniqueViolation .pointEntriesSource := by
  obtain ⟨⟨holds, failure⟩, member, -, rfl⟩ := guarded_error refused
  rintro rfl
  simp at member

/-- The failures of a check-in.  The one on the ledger's index needs a row that was already
paid. -/
def Unentered (event : EventId) (player : PlayerId) (award : Award) (db : Database)
    (error : StorageError) : Prop :=
  error = .uniqueViolation .pointEntriesSource →
    checkin? event player db = none ∧ ∃ other ∈ db.pointEntries, other.key = award.key

/-- Every way a check-in can end: a new row with its cycles, the first time again, or a failure. -/
theorem checkIn_cases {event : EventId} {player : PlayerId} {instant : Instant} {award : Award}
    {draw : Nat → PointEntryId} {answer : Except StorageError CheckedIn}
    (called : checkIn event player instant award draw db = (answer, after)) :
    answer = .ok (.new (instantOf (toMicros instant)) (db.activeOf player)) ∧
        Entered event player instant award draw db after ∨
      (∃ row, checkin? event player db = some row ∧
        answer = .ok (.already (instantOf row.checkedInAt)) ∧ after = db) ∨
      ∃ error, answer = .error error ∧ after = db ∧ Unentered event player award db error := by
  have outcome : (∃ value, answer = .ok value ∧
        (value = .new (instantOf (toMicros instant)) (db.activeOf player) ∧
            Entered event player instant award draw db after ∨
          ∃ row, checkin? event player db = some row ∧
            value = .already (instantOf row.checkedInAt) ∧ after = db)) ∨
      after = db ∧ ∃ abort : Abort CheckedIn, answer = abort.answer ∧
        ∃ error, abort = .failed error ∧ Unentered event player award db error := by
    apply commit_cases ?_ called
    rw [ends_bind, ends_read, ends_bind, ends_attempt]
    constructor
    · intro affected middle inserted
      obtain ⟨positive, new, event_there, player_there, rfl⟩ := insertCheckin_ok inserted
      simp only [insertAwards]
      rw [ends_bind, ends_bind, ends_execute]
      constructor
      · intro affected last paid
        obtain ⟨-, -, -, unpaid, rfl⟩ := insertPoint_ok paid
        rw [ends_pure, ends_pure]
        exact Or.inl ⟨rfl, positive, new, event_there, player_there, rfl, unpaid⟩
      · rintro error refused
        refine ⟨error, rfl, fun index => ?_⟩
        subst index
        exact ⟨new, insertPoint_error refused⟩
    · intro error refused
      have other_index := insertCheckin_error refused
      split
      · rename_i key
        obtain rfl := Except.error.inj key
        rw [ends_bind, ends_read]
        split
        · rename_i row found
          rw [ends_pure]
          exact Or.inr ⟨row, found, rfl, rfl⟩
        · rw [ends_fail]
          exact ⟨_, rfl, fun index => by cases index⟩
      · rename_i other _ key
        obtain rfl := Except.error.inj key
        rw [ends_fail]
        exact ⟨_, rfl, fun index => absurd index other_index⟩
      · rename_i impossible
        cases impossible
  rcases outcome with ⟨value, rfl, ⟨rfl, entered⟩ | ⟨row, found, rfl, rfl⟩⟩ |
    ⟨rfl, abort, rfl, error, rfl, unentered⟩
  · exact Or.inl ⟨rfl, entered⟩
  · exact Or.inr (Or.inl ⟨row, found, rfl, rfl⟩)
  · exact Or.inr (Or.inr ⟨error, rfl, rfl, unentered⟩)

end EventStorage
end LanBunker
