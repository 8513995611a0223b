import LanBunker.Effects.Operations
import LanBunker.Relational.Lookup
import LanBunker.Services.Provenance
import Mathlib.Data.List.Find

/-!
# The table of events

Every event has an id and a code of its own, and a window that is in order, so that no read finds a
malformed row.
-/

namespace LanBunker

open Interleaving

namespace EventStorage

/-- The keys of the events, and the checks of their columns. -/
structure Sound (events : List EventRow) : Prop where
  ids : (events.map EventRow.id).Nodup
  codes : (events.map EventRow.checkinCode).Nodup
  checked : ∀ row ∈ events, isChecked row

namespace Sound

variable {events : List EventRow}

theorem nil : Sound [] where
  ids := List.nodup_nil
  codes := List.nodup_nil
  checked row member := by cases member

theorem concat (sound : Sound events) {row : EventRow} (checked : isChecked row)
    (new_id : ∀ other ∈ events, other.id ≠ row.id)
    (new_code : ∀ other ∈ events, other.checkinCode ≠ row.checkinCode) :
    Sound (events ++ [row]) where
  ids := Relational.nodup_keys_concat sound.ids new_id
  codes := Relational.nodup_keys_concat sound.codes new_code
  checked other member := by
    rcases List.mem_append.mp member with old | last
    · exact sound.checked other old
    · rw [List.mem_singleton.mp last]
      exact checked

/-- A write that leaves the keys and passes the checks. -/
theorem map (sound : Sound events) {write : EventRow → EventRow}
    (keys : ∀ row, (write row).id = row.id ∧ (write row).checkinCode = row.checkinCode)
    (checked : ∀ row ∈ events, isChecked (write row)) : Sound (events.map write) where
  ids := Relational.nodup_keys_map sound.ids fun row => (keys row).1
  codes := Relational.nodup_keys_map sound.codes fun row => (keys row).2
  checked row member := by
    obtain ⟨old, old_mem, rfl⟩ := List.mem_map.mp member
    exact checked old old_mem

theorem filter (sound : Sound events) (kept : EventRow → Bool) : Sound (events.filter kept) where
  ids := Relational.nodup_keys_filter sound.ids kept
  codes := Relational.nodup_keys_filter sound.codes kept
  checked row member := sound.checked row (List.mem_filter.mp member).1

variable {db after : Database}

theorem create (sound : Sound db.events) {row : NewEventRow} {answer : Except StorageError Unit}
    (called : EventStorage.create row db = (answer, after)) : Sound after.events := by
  rcases Method.single_cases called with ⟨affected, inserted, -⟩ | ⟨rfl, -⟩
  · simp only [insertEvent, guarded_cons_ok, guarded_nil_ok, Except.ok.injEq, Prod.mk.injEq,
      List.all_eq_true, decide_eq_true_eq] at inserted
    obtain ⟨checked, new_id, new_code, -, rfl⟩ := inserted
    exact sound.concat checked new_id new_code
  · exact sound

theorem update (sound : Sound db.events) {id : EventId} {fields : EventFields}
    {answer : Except StorageError Bool}
    (called : EventStorage.update id fields db = (answer, after)) : Sound after.events := by
  rcases Method.single_cases called with ⟨affected, updated, -⟩ | ⟨rfl, -⟩
  · simp only [updateEvent, guarded_cons_ok, guarded_nil_ok, Except.ok.injEq, Prod.mk.injEq,
      List.all_eq_true, Bool.or_eq_true, Bool.not_eq_true', decide_eq_false_iff_not] at updated
    obtain ⟨checked, -, rfl⟩ := updated
    refine sound.map (fun row => by split_ifs <;> exact ⟨rfl, rfl⟩) fun row member => ?_
    split_ifs with touched
    · exact (checked row member).resolve_left fun other => other touched
    · exact sound.checked row member
  · exact sound

theorem setStatus (sound : Sound db.events) {id : EventId} {status : EventStatus}
    {answer : Except StorageError Bool}
    (called : EventStorage.setStatus id status db = (answer, after)) : Sound after.events := by
  rcases Method.single_cases called with ⟨affected, updated, -⟩ | ⟨rfl, -⟩
  · simp only [Except.ok.injEq, Prod.mk.injEq] at updated
    obtain ⟨-, rfl⟩ := updated
    refine sound.map (fun row => by split_ifs <;> exact ⟨rfl, rfl⟩) fun row member => ?_
    have checked := sound.checked row member
    split_ifs
    · exact checked
    · exact checked
  · exact sound

end Sound
end EventStorage

/-- Every event method keeps the table sound. -/
theorem EventOp.sound (op : EventOp) {db after : Database} {answer : Except StorageError op.Ans}
    (called : op.method db = (answer, after)) (sound : EventStorage.Sound db.events) :
    EventStorage.Sound after.events := by
  have unchanged : after = db → EventStorage.Sound after.events := by
    rintro rfl
    exact sound
  cases op with
  | create row => exact sound.create called
  | get id => exact unchanged (congrArg Prod.snd called).symm
  | getByCode code => exact unchanged (congrArg Prod.snd called).symm
  | update id fields => exact sound.update called
  | setStatus id status => exact sound.setStatus called
  | delete id =>
      rcases EventStorage.delete_cases called with same | rfl
      · exact unchanged same
      · exact sound.filter _
  | removeCheckin id player =>
      obtain ⟨-, rfl⟩ :=
        Prod.mk.inj ((EventStorage.removeCheckin_eq id player db).symm.trans called)
      exact sound
  | checkins id => exact unchanged (congrArg Prod.snd called).symm
  | checkIn id player instant award draw =>
      rcases EventStorage.checkIn_cases called with ⟨-, entered⟩ | ⟨-, -, -, same⟩ | ⟨-, -, same, -⟩
      · rw [entered.after_eq]
        exact sound
      · exact unchanged same
      · exact unchanged same

/-! ## The row of one event -/

namespace EventStorage

variable {db after : Database} {id target : EventId} {row : EventRow}
  {answer : Except StorageError Bool}

/-- A write that leaves the ids does to the row of an event what it does to any row. -/
theorem event?_map (found : event? id db = some row) {write : EventRow → EventRow}
    (ids : ∀ other, (write other).id = other.id) :
    event? id { db with events := db.events.map write } = some (write row) := by
  have same_test : ((fun other : EventRow => decide (other.id = id)) ∘ write) =
      fun other => decide (other.id = id) := by
    funext other
    simp only [Function.comp_apply, ids]
  change (db.events.map write).find? (fun other => other.id = id) = some (write row)
  rw [event?] at found
  rw [List.find?_map, same_test, found, Option.map_some]

/-- A write that counts the rows of its event counts the one that is found. -/
theorem ne_of_unwritten (found : event? id db = some row)
    (answered : answer = .ok (0 < db.events.countP fun other => other.id = target : Bool))
    (unwritten : answer = .ok true → target ≠ id) : row.id ≠ target := by
  obtain ⟨member, same_id⟩ := Relational.find?_key_eq_some found
  intro own
  have counted : 0 < db.events.countP fun other => other.id = target :=
    List.countP_pos_iff.mpr ⟨row, member, decide_eq_true own⟩
  rw [decide_eq_true counted] at answered
  exact unwritten answered (own.symm.trans same_id)

theorem setStatus_event? {status : EventStatus}
    (called : setStatus target status db = (answer, after)) (found : event? id db = some row)
    (unwritten : answer = .ok true → target ≠ id) : event? id after = some row := by
  rcases Method.single_cases called with ⟨affected, updated, answered⟩ | ⟨rfl, -⟩
  · obtain ⟨rfl, rfl⟩ := Prod.mk.inj (Except.ok.inj updated)
    rw [event?_map found fun other => by split_ifs <;> rfl,
      if_neg (ne_of_unwritten found answered unwritten)]
  · exact found

theorem update_event? {fields : EventFields}
    (called : update target fields db = (answer, after)) (found : event? id db = some row)
    (unwritten : answer = .ok true → target ≠ id) : event? id after = some row := by
  rcases Method.single_cases called with ⟨affected, updated, answered⟩ | ⟨rfl, -⟩
  · simp only [updateEvent, guarded_cons_ok, guarded_nil_ok, Except.ok.injEq,
      Prod.mk.injEq] at updated
    obtain ⟨-, rfl, rfl⟩ := updated
    have other := ne_of_unwritten found answered unwritten
    rw [event?_map found fun other => by split_ifs <;> rfl, if_neg (by simpa using other)]
  · exact found

theorem delete_event? (called : delete target db = (answer, after))
    (found : event? id db = some row) (unwritten : answer = .ok true → target ≠ id) :
    event? id after = some row := by
  rcases Method.single_cases called with ⟨affected, deleted, answered⟩ | ⟨rfl, -⟩
  · split_ifs at deleted with there
    · obtain ⟨rfl, rfl⟩ := Prod.mk.inj (Except.ok.inj deleted)
      have other := ne_of_unwritten found answered unwritten
      obtain ⟨-, same_id⟩ := Relational.find?_key_eq_some found
      rw [event?] at found ⊢
      rw [List.find?_filter]
      refine (List.find?_congr fun candidate _ => ?_).trans found
      by_cases same : candidate.id = id
      · simp [same, ← same_id, other]
      · simp [same]
    · obtain ⟨-, rfl⟩ := Prod.mk.inj (Except.ok.inj deleted)
      exact found
  · exact found

end EventStorage

/-- The event whose row a committed call replaces or removes. -/
def EventOp.writes? : (op : EventOp) → Except StorageError op.Ans → Option EventId
  | .update id _, .ok true => some id
  | .setStatus id _, .ok true => some id
  | .delete id, .ok true => some id
  | _, _ => none

/-- The row of an event stays where no committed call writes it. -/
theorem EventOp.event?_kept (op : EventOp) {db after : Database}
    {answer : Except StorageError op.Ans} (called : op.method db = (answer, after)) {id : EventId}
    {row : EventRow} (found : EventStorage.event? id db = some row)
    (unwritten : op.writes? answer ≠ some id) : EventStorage.event? id after = some row := by
  have unchanged : after = db → EventStorage.event? id after = some row := by
    rintro rfl
    exact found
  cases op with
  | create new =>
      rcases EventStorage.create_cases called with same | ⟨stored, -, -, rfl⟩
      · exact unchanged same
      · rw [EventStorage.event?] at found ⊢
        rw [List.find?_append, found, Option.some_or]
  | get id => exact unchanged (congrArg Prod.snd called).symm
  | getByCode code => exact unchanged (congrArg Prod.snd called).symm
  | update target fields =>
      refine EventStorage.update_event? called found ?_
      rintro rfl rfl
      exact unwritten rfl
  | setStatus target status =>
      refine EventStorage.setStatus_event? called found ?_
      rintro rfl rfl
      exact unwritten rfl
  | delete target =>
      refine EventStorage.delete_event? called found ?_
      rintro rfl rfl
      exact unwritten rfl
  | removeCheckin id player =>
      obtain ⟨-, rfl⟩ :=
        Prod.mk.inj ((EventStorage.removeCheckin_eq id player db).symm.trans called)
      exact found
  | checkins id => exact unchanged (congrArg Prod.snd called).symm
  | checkIn id player instant award draw =>
      rcases EventStorage.checkIn_cases called with ⟨-, entered⟩ | ⟨-, -, -, same⟩ | ⟨-, -, same, -⟩
      · rw [entered.after_eq]
        exact found
      · exact unchanged same
      · exact unchanged same

/-- The event whose row a step replaces or removes. -/
def eventWrite? (moment : Moment bunker) : Option EventId :=
  match moment.label with
  | .call _ _ _ (.store (.events op)) answer => op.writes? answer
  | _ => none

/-- The row of an event stays in a step that does not write it. -/
theorem event?_kept {moment : Moment bunker} (sound : discipline.Sound moment) {id : EventId}
    {row : EventRow} (found : EventStorage.event? id moment.before.db = some row)
    (unwritten : eventWrite? moment ≠ some id) :
    EventStorage.event? id moment.after.db = some row := by
  rcases moment_cases moment sound with
    same | ⟨clock, same⟩ | ⟨player, promoted⟩ | ⟨name, request, past, op, answer, label, stored⟩
  · rwa [same]
  · rwa [same]
  · rw [promoted]
    exact found
  · have called := stored.called
    rw [EventStorage.event?] at found ⊢
    cases op with
    | tournaments op => rwa [(op.effect called).events]
    | events op =>
        refine op.event?_kept called found fun writes => unwritten ?_
        rw [eventWrite?, label]
        exact writes
    | players op => rwa [op.events_eq called]

/-- Every step of the services keeps the table sound. -/
theorem events_sound_step {moment : Moment bunker} (sound : discipline.Sound moment)
    (kept : EventStorage.Sound moment.before.db.events) :
    EventStorage.Sound moment.after.db.events := by
  rcases moment_cases moment sound with
    same | ⟨clock, same⟩ | ⟨id, promoted⟩ | ⟨name, request, past, op, answer, -, stored⟩
  · rwa [same]
  · rwa [same]
  · rw [promoted]
    exact kept
  · have called := stored.called
    cases op with
    | tournaments op => rwa [(op.effect called).events]
    | events op => exact op.sound called kept
    | players op => rwa [op.events_eq called]

end LanBunker
