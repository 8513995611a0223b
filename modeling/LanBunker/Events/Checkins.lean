import LanBunker.Effects.Operations
import LanBunker.Events.Doors
import LanBunker.Services.Provenance

/-!
# Check-ins and their cycles

Every step of every run keeps each check-in paired with the entry that pays for it, so a check-in
never meets the index of the ledger, and what a receipt says is what its call did.
-/

namespace LanBunker

open Interleaving EventStorage

/-! ## Every step is a move of the doors -/

section Moves

variable {db after : Database}

private theorem unchanged (same : after = db) : Doors.Move db.doors after.doors :=
  same ▸ .stay _

theorem TournamentOp.doors (op : TournamentOp) {answer : Except StorageError op.Ans}
    (called : op.method db = (answer, after)) : Doors.Move db.doors after.doors := by
  have effect := op.effect called
  rw [Database.doors, Database.doors, effect.checkins]
  rcases effect.ledger with same | ⟨id, instant, draw, awards, checked, paid⟩ | ⟨id, untied⟩
  · rw [same]
    exact .stay _
  · rw [paid]
    refine .paid fun row member kind => ?_
    -- An entry for a check-in names its event, and an award of a tournament does not.
    have row_checked := checked row member
    simp only [PointRow.isChecked, kind, (mem_awardRows member).2, decide_eq_true_eq] at row_checked
    simp [AwardSource.eventColumn] at row_checked
  · rw [untied]
    exact .untied _ id

theorem mem_keys_iff {event : EventId} {player : PlayerId} :
    (event, player) ∉ db.eventCheckins.map CheckinRow.key ↔ checkin? event player db = none := by
  rw [checkin?_eq_none_iff]
  simp [CheckinRow.key]

theorem EventOp.doors (op : EventOp) {request : Request} {past : Past}
    (allowed : op.Allowed request past) {answer : Except StorageError op.Ans}
    (called : op.method db = (answer, after)) : Doors.Move db.doors after.doors := by
  cases op with
  | create row =>
      rcases create_cases called with same | ⟨stored, -, -, rfl⟩
      · exact unchanged same
      · exact .stay _
  | get id => exact unchanged (congrArg Prod.snd called).symm
  | getByCode code => exact unchanged (congrArg Prod.snd called).symm
  | update id fields =>
      rcases update_cases called with same | ⟨write, -, rfl⟩
      · exact unchanged same
      · exact .stay _
  | setStatus id status =>
      rcases setStatus_cases called with same | ⟨write, -, rfl⟩
      · exact unchanged same
      · exact .stay _
  | delete id =>
      rcases delete_cases called with same | rfl
      · exact unchanged same
      · have agree : ∀ (entry : PointRow) key, entry.checkin? = some key →
            decide (entry.event ≠ some id) = (fun key => decide (key.1 ≠ id)) key := by
          intro entry key paid
          simp [(Doors.checkin?_eq_some.mp paid).2.1]
        exact .left agree
  | removeCheckin id player =>
      obtain ⟨-, rfl⟩ := Prod.mk.inj ((removeCheckin_eq id player db).symm.trans called)
      have agree : ∀ (entry : PointRow) key, entry.checkin? = some key →
          (!decide (entry.kind = .checkin ∧ entry.event = some id ∧ entry.player = player)) =
            (fun key => !decide (key.1 = id ∧ key.2 = player)) key := by
        intro entry key paid
        obtain ⟨kind, event, owner⟩ := Doors.checkin?_eq_some.mp paid
        simp [kind, event, owner]
      exact .left agree
  | checkins id => exact unchanged (congrArg Prod.snd called).symm
  | checkIn id player instant award draw =>
      obtain ⟨rfl, -⟩ := allowed
      rcases checkIn_cases called with ⟨-, entered⟩ | ⟨-, -, -, same⟩ | ⟨-, -, same, -⟩
      · rw [entered.after_eq]
        exact .entered instant (draw 0) (mem_keys_iff.mpr entered.new)
      · exact unchanged same
      · exact unchanged same

theorem PlayerOp.doors (op : PlayerOp) {answer : Except StorageError op.Ans}
    (called : op.method db = (answer, after)) : Doors.Move db.doors after.doors := by
  cases op with
  | create player =>
      rcases PlayerStorage.create_cases called with same | ⟨-, rfl⟩
      · exact unchanged same
      · exact .stay _
  | access id => exact unchanged (congrArg Prod.snd called).symm
  | credentialsById id => exact unchanged (congrArg Prod.snd called).symm
  | credentialsByHandle handle => exact unchanged (congrArg Prod.snd called).symm
  | setPassword id passwordHash mustChange changedAt =>
      rcases PlayerStorage.setPassword_cases called with ⟨-, -, rfl⟩ | ⟨same, -⟩
      · exact .stay _
      · exact unchanged same
  | isThere id => exact unchanged (congrArg Prod.snd called).symm
  | setRole id role =>
      rcases PlayerStorage.setRole_cases called with ⟨-, -, rfl⟩ | ⟨-, -, same⟩
      · exact .stay _
      · exact unchanged same
  | delete id =>
      rcases PlayerStorage.delete_cases called with ⟨-, -, rfl⟩ | ⟨-, -, same⟩
      · exact .anonymised _ id
      · exact unchanged same
  | list query term active order => exact unchanged (congrArg Prod.snd called).symm
  | addAdjustment adjustment =>
      rcases PointStorage.addAdjustment_cases called with same | ⟨-, rfl⟩
      · exact unchanged same
      · refine .paid fun row member => ?_
        obtain rfl := List.mem_singleton.mp member
        simp [PointStorage.adjustmentRow]
  | history player query => exact unchanged (congrArg Prod.snd called).symm
  | totals player => exact unchanged (congrArg Prod.snd called).symm

/-- One step of a run, for the doors. -/
theorem doors_move (moment : Moment bunker) (sound : discipline.Sound moment) :
    Doors.Move moment.before.db.doors moment.after.db.doors := by
  rcases moment_cases moment sound with
    same | ⟨clock, same⟩ | ⟨id, promoted⟩ | ⟨name, request, past, op, answer, -, stored⟩
  · exact unchanged (congrArg World.db same)
  · rw [same]
    exact .stay _
  · rw [promoted]
    exact .stay _
  · have called := stored.called
    cases op with
    | tournaments op => exact op.doors called
    | events op => exact op.doors stored.may called
    | players op => exact op.doors called

end Moves

/-! ## One night -/

namespace Night

/-- Nothing is stored, and the clock shows a microsecond count of 1000. -/
def start : Config bunker := Config.quiet (World.initial 1000000)

def id : EventId := ⟨40⟩

def code : CheckinCode := .letters

def fields : EventFields where
  name := ⟨['l', 'a', 'n'], by decide, by decide, by decide⟩
  location := .empty
  games := .empty
  description := .empty
  image := none
  window := ⟨500000, 2000000, by decide⟩

/-- The player 1 is signed up, and the event 40 is published with its doors open. -/
def opened : List bunkerScript.Command :=
  alone 4 (.signup ⟨['a', 'd', 'a'], by decide, by decide, by decide⟩ "") 1 ++
    alone 6 (.createEvent fields) 40 ++ alone 3 (.setEventStatus id .published) 0

end Night
end LanBunker
