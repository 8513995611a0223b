import LanBunker.Events.Checkins

/-!
# What a receipt says

In every state of every run the check-ins and the cycles they pay match one to one, and a receipt
tells what its call did: the cycles it paid, the time of the first check-in, and whether it made
the player active.
-/

namespace LanBunker

open Interleaving EventStorage

namespace Doors

def checkinsOf (doors : Doors) (event : EventId) (player : PlayerId) : List CheckinRow :=
  doors.checkins.filter fun row => row.event = event ∧ row.player = player

/-- The entries of the kind check-in. -/
def entriesOf (doors : Doors) (event : EventId) (player : PlayerId) : List PointRow :=
  doors.entries.filter fun row =>
    row.kind = .checkin ∧ row.event = some event ∧ row.player = player

/-- The check-in of a player at an event and its cycles are in step. -/
structure InStep (doors : Doors) (event : EventId) (player : PlayerId) : Prop where
  atMostOne : (doors.checkinsOf event player).length ≤ 1
  /-- One entry over `checkinCycles` for the check-in, and none without it. -/
  cycles : (doors.entriesOf event player).map PointRow.amount =
    (doors.checkinsOf event player).map fun _ => checkinCycles

theorem Paired.inStep {doors : Doors} (paired : doors.Paired) (event : EventId)
    (player : PlayerId) : doors.InStep event player := by
  have checkins_count : (doors.checkinsOf event player).length =
      (doors.checkins.map CheckinRow.key).count (event, player) := by
    rw [checkinsOf, ← List.countP_eq_length_filter, List.count_eq_countP, List.countP_map]
    refine List.countP_congr fun row _ => ?_
    simp [CheckinRow.key]
  have entries_count : (doors.entriesOf event player).length =
      doors.paidFor.count (event, player) := by
    rw [entriesOf, ← List.countP_eq_length_filter, List.count_eq_countP, paidFor,
      List.countP_filterMap]
    refine List.countP_congr fun row _ => ?_
    cases paid : row.checkin? with
    | none =>
        have other : ¬(row.kind = .checkin ∧ row.event = some event ∧ row.player = player) := by
          intro named
          have found : row.checkin? = some (event, player) := checkin?_eq_some.mpr named
          rw [paid] at found
          cases found
        simp [other]
    | some key =>
        obtain ⟨kind, event_eq, player_eq⟩ := checkin?_eq_some.mp paid
        obtain ⟨key_event, key_player⟩ := key
        simp_all
  refine ⟨?_, ?_⟩
  · rw [checkins_count]
    exact List.nodup_iff_count_le_one.mp paired.keys _
  · have amounts : ∀ amount ∈ (doors.entriesOf event player).map PointRow.amount,
        amount = checkinCycles := by
      intro amount member
      obtain ⟨entry, entry_mem, rfl⟩ := List.mem_map.mp member
      obtain ⟨there, named⟩ := List.mem_filter.mp entry_mem
      obtain ⟨_, -, -, amount_eq, -⟩ := paired.entries entry there (of_decide_eq_true named).1
      exact amount_eq
    have same_length : (doors.entriesOf event player).length =
        (doors.checkinsOf event player).length := by
      rw [entries_count, checkins_count, paired.perm.count_eq]
    rw [List.eq_replicate_of_mem amounts, List.length_map, same_length, List.map_const']

end Doors

/-! ## Calls at the door -/

/-- A check-in of a request that the storage answered. -/
def CheckedAt (name : Nat) (event : EventId) (player : PlayerId) (written : CheckedIn)
    (moment : Moment bunker) : Prop :=
  ∃ request past instant award draw,
    moment.label =
      .call name request past (.store (.events (.checkIn event player instant award draw)))
        (.ok written)

/-- A step that made the check-in. -/
def Inserts (event : EventId) (player : PlayerId) (moment : Moment bunker) : Prop :=
  checkin? event player moment.before.db = none ∧ (checkin? event player moment.after.db).isSome

section Run

variable {clock : Instant} {trace : List (Moment bunker)} {stop : Config bunker}

theorem paired_along (run : Run (Config.quiet (World.initial clock)) trace stop) :
    stop.state.db.doors.Paired ∧
      ∀ moment ∈ trace, moment.before.db.doors.Paired ∧ moment.after.db.doors.Paired := by
  let kept : bunker.State → Prop := fun world => (Database.doors world.db).Paired
  have start : kept (World.initial clock) := Doors.paired_empty
  have step : ∀ moment ∈ trace, kept moment.before → kept moment.after := fun moment member =>
    (doors_move moment (discipline.sound run moment member)).paired
  exact run.invariant start step

/-- What a check-in of a run did. -/
theorem CheckedAt.cases (run : Run (Config.quiet (World.initial clock)) trace stop)
    {moment : Moment bunker} (member : moment ∈ trace) {name : Nat} {event : EventId}
    {player : PlayerId} {written : CheckedIn}
    (checked : CheckedAt name event player written moment) :
    (∃ row : CheckinRow, written = .new (instantOf row.checkedInAt)
          (moment.before.db.activeOf player) ∧
        checkin? event player moment.before.db = none ∧
        checkin? event player moment.after.db = some row ∧ moment.after.db.activeOf player) ∨
      ∃ row, written = .already (instantOf row.checkedInAt) ∧
        checkin? event player moment.before.db = some row ∧
        checkin? event player moment.after.db = some row := by
  obtain ⟨request, past, instant, award, draw, label⟩ := checked
  have sound := discipline.sound run moment member
  simp only [Discipline.Sound, label] at sound
  obtain ⟨-, ⟨-, stored⟩ | ⟨busy, -⟩⟩ := sound
  · rcases checkIn_cases (World.store_eq stored) with
      ⟨answer, entered⟩ | ⟨row, found, answer, same⟩ | ⟨error, answer, -⟩
    · exact Or.inl ⟨⟨event, player, toMicros instant⟩, Except.ok.inj answer, entered.new,
        entered.inserted, entered.active⟩
    · exact Or.inr ⟨row, Except.ok.inj answer, found, same ▸ found⟩
    · cases answer
  · cases busy

/-- A check-in that is there before and after a step is the same check-in. -/
theorem checkin?_kept (run : Run (Config.quiet (World.initial clock)) trace stop)
    {moment : Moment bunker} (member : moment ∈ trace) {event : EventId} {player : PlayerId}
    {row : CheckinRow} (found : checkin? event player moment.before.db = some row)
    (there : (checkin? event player moment.after.db).isSome) :
    checkin? event player moment.after.db = some row := by
  obtain ⟨later, later_found⟩ := Option.isSome_iff_exists.mp there
  obtain ⟨row_mem, row_event, row_player⟩ := checkin?_eq_some found
  obtain ⟨later_mem, later_event, later_player⟩ := checkin?_eq_some later_found
  have same_key : later.key = row.key := by
    simp [CheckinRow.key, row_event, row_player, later_event, later_player]
  rw [later_found]
  rcases (doors_move moment (discipline.sound run moment member)).kept later later_mem with
    there | absent
  · have paired := ((paired_along run).2 moment member).1
    rw [List.inj_on_of_nodup_map paired.keys there row_mem same_key]
  · exact absurd (same_key ▸ List.mem_map_of_mem row_mem) absent

end Run

/-- The check-ins of a trace, and what the answers say about them. -/
structure DoorsRight (trace : List (Moment bunker)) : Prop where
  /-- In every state each check-in is there once, and paid for once. -/
  inStep : ∀ moment ∈ trace, ∀ event player, moment.after.db.doors.InStep event player
  /-- No check-in meets the unique index of the ledger. -/
  index : ∀ moment ∈ trace, ∀ name request past event player instant award draw,
    moment.label ≠
      .call name request past (.store (.events (.checkIn event player instant award draw)))
        (.error (.uniqueViolation .pointEntriesSource))
  /-- A receipt is about a check-in that its request made. -/
  receipts : ∀ moment ∈ trace, ∀ name request past player outcome,
    (∃ code, request = .checkIn code player) ∨ (∃ id, request = .addCheckin id player) →
    moment.label = .reply name request past (.ok (.receipt outcome)) →
    ∃ call ∈ trace, ∃ event shown written, CheckedAt name event player written call ∧
      outcome = EventService.receipt shown written
  /-- It says that cycles were paid exactly if the call made the check-in. -/
  cycles : ∀ moment ∈ trace, ∀ name event player written,
    CheckedAt name event player written moment → ∀ shown,
      Inserts event player moment ∧ (EventService.receipt shown written).value.cycles = 100 ∨
        ¬Inserts event player moment ∧ (EventService.receipt shown written).value.cycles = 0
  /-- It says that the player was activated exactly if the call made the check-in and the player
  went from inactive to active. -/
  activated : ∀ moment ∈ trace, ∀ name event player written,
    CheckedAt name event player written moment → ∀ shown,
      (EventService.receipt shown written).value.activated = true ↔
        Inserts event player moment ∧ moment.before.db.activeOf player = false ∧
          moment.after.db.activeOf player = true
  /-- As long as the check-in stays, every repeat pays nothing and tells the first time. -/
  repeats : ∀ first early second late third,
    trace = first ++ early :: (second ++ late :: third) →
      ∀ name again event player written rewritten,
        CheckedAt name event player written early → CheckedAt again event player rewritten late →
        (∀ moment ∈ second, (checkin? event player moment.after.db).isSome) → ∀ shown reshown,
          (EventService.receipt reshown rewritten).value.cycles = 0 ∧
            (EventService.receipt reshown rewritten).value.checkedInAt =
              (EventService.receipt shown written).value.checkedInAt

section Run

variable {clock : Instant} {trace : List (Moment bunker)} {stop : Config bunker}

/-- The cycles of a check-in are not in the ledger before it is made. -/
theorem index_free (run : Run (Config.quiet (World.initial clock)) trace stop)
    {moment : Moment bunker} (member : moment ∈ trace) {name : Nat} {request : Request}
    {past : Past} {event : EventId} {player : PlayerId} {instant : Instant} {award : Award}
    {draw : Nat → PointEntryId} :
    moment.label ≠
      .call name request past (.store (.events (.checkIn event player instant award draw)))
        (.error (.uniqueViolation .pointEntriesSource)) := by
  intro label
  have sound := discipline.sound run moment member
  simp only [Discipline.Sound, label] at sound
  obtain ⟨⟨award_eq, -⟩, ⟨-, stored⟩ | ⟨busy, -⟩⟩ := sound
  · rcases checkIn_cases (World.store_eq stored) with
      ⟨answer, -⟩ | ⟨row, -, answer, -⟩ | ⟨error, answer, -, unentered⟩
    · cases answer
    · cases answer
    · obtain ⟨new, other, other_mem, key_eq⟩ := unentered (Except.error.inj answer).symm
      subst award_eq
      have kind : other.kind = .checkin := congrArg Prod.fst key_eq
      have owner : other.player = player := congrArg (Prod.fst ∘ Prod.snd) key_eq
      have source : other.sourceRef = event.toText := congrArg (Prod.snd ∘ Prod.snd) key_eq
      have paired := ((paired_along run).2 moment member).1
      obtain ⟨paid, event_eq, source_eq, -⟩ := paired.entries other other_mem kind
      obtain rfl : paid = event := Id.toText_inj.mp (source_eq.symm.trans source)
      have paid_for : (paid, player) ∈ moment.before.db.doors.paidFor :=
        List.mem_filterMap.mpr
          ⟨other, other_mem, Doors.checkin?_eq_some.mpr ⟨kind, event_eq, owner⟩⟩
      exact mem_keys_iff.mpr new (paired.perm.subset paid_for)
  · cases busy

/-- A receipt is made from the answer of the check-in its request called. -/
theorem receipt_called (run : Run (Config.quiet (World.initial clock)) trace stop)
    {moment : Moment bunker} (member : moment ∈ trace) {name : Nat} {request : Request}
    {past : Past} {player : PlayerId} {outcome : Outcome CheckinReceipt}
    (checks : (∃ code, request = .checkIn code player) ∨ ∃ id, request = .addCheckin id player)
    (label : moment.label = .reply name request past (.ok (.receipt outcome))) :
    ∃ call ∈ trace, ∃ event shown written, CheckedAt name event player written call ∧
      outcome = EventService.receipt shown written := by
  have sound := discipline.sound run moment member
  simp only [Discipline.Sound, label] at sound
  have receipted : Receipted past player outcome := by
    rcases checks with ⟨code, rfl⟩ | ⟨id, rfl⟩
    · exact sound.2
    · exact sound.2
  obtain ⟨event, instant, award, draw, written, shown, read, outcome_eq⟩ := receipted
  obtain ⟨first, second, rfl⟩ := List.append_of_mem member
  obtain ⟨here, there, front, step, -⟩ := run.at_moment
  have caller : moment.label.caller = some (name, request, past) := by rw [label]; rfl
  have named : (Config.quiet (World.initial clock) : Config bunker).Named := by
    intro thread impossible
    cases impossible
  obtain ⟨call, call_mem, earlier, call_label⟩ :=
    front.caller_called named step caller (Nat.zero_le _) _ read
  exact ⟨call, List.mem_append_left _ call_mem, event, shown, written,
    ⟨request, earlier, instant, award, draw, call_label⟩, outcome_eq⟩

/-- A check-in that stays is told to the next call for it. -/
theorem repeat_told {first second third : List (Moment bunker)} {early late : Moment bunker}
    (run : Run (Config.quiet (World.initial clock))
      (first ++ early :: (second ++ late :: third)) stop)
    {name again : Nat} {event : EventId} {player : PlayerId} {written rewritten : CheckedIn}
    (checked : CheckedAt name event player written early)
    (rechecked : CheckedAt again event player rewritten late)
    (stays : ∀ moment ∈ second, (checkin? event player moment.after.db).isSome) :
    ∃ row, rewritten = .already (instantOf row.checkedInAt) ∧
      checkin? event player early.after.db = some row := by
  obtain ⟨row, found⟩ : ∃ row, checkin? event player early.after.db = some row := by
    rcases checked.cases run (by simp) with ⟨row, -, -, found, -⟩ | ⟨row, -, -, found⟩
    · exact ⟨row, found⟩
    · exact ⟨row, found⟩
  obtain ⟨here, there, -, early_step, later⟩ := run.at_moment
  obtain ⟨before, after, between, late_step, -⟩ := later.at_moment
  let told : bunker.State → Prop := fun world => checkin? event player world.db = some row
  have start : told there.state := early_step.after_eq ▸ found
  have kept : told before.state := by
    refine (between.invariant start ?_).1
    intro moment member there
    have in_trace : moment ∈ first ++ early :: (second ++ late :: third) := by simp [member]
    exact checkin?_kept run in_trace there (stays moment member)
  refine ⟨row, ?_, found⟩
  rcases rechecked.cases run (by simp) with ⟨other, -, absent, -⟩ | ⟨other, answer, here, -⟩
  · rw [late_step.before_eq] at absent
    cases kept.symm.trans absent
  · rw [late_step.before_eq] at here
    obtain rfl := Option.some.inj (kept.symm.trans here)
    exact answer

/-- Check-ins and their cycles are in step in every state of every run, and every receipt is
right. -/
theorem doors_right (run : Run (Config.quiet (World.initial clock)) trace stop) :
    DoorsRight trace where
  inStep moment member event player := ((paired_along run).2 moment member).2.inStep event player
  index moment member name request past event player instant award draw := index_free run member
  receipts moment member name request past player outcome checks label :=
    receipt_called run member checks label
  cycles moment member name event player written checked shown := by
    rcases checked.cases run member with ⟨row, rfl, absent, found, -⟩ | ⟨row, rfl, found, -⟩
    · exact Or.inl ⟨⟨absent, by simp [found]⟩, rfl⟩
    · refine Or.inr ⟨fun inserts => ?_, rfl⟩
      rw [Inserts, found] at inserts
      cases inserts.1
  activated moment member name event player written checked shown := by
    rcases checked.cases run member with
      ⟨row, rfl, absent, found, active⟩ | ⟨row, rfl, found, -⟩
    · have inserts : Inserts event player moment := ⟨absent, by simp [found]⟩
      simp [EventService.receipt, Outcome.value, inserts, active]
    · have repeated : ¬Inserts event player moment := fun inserts => by
        rw [Inserts, found] at inserts
        cases inserts.1
      simp [EventService.receipt, Outcome.value, repeated]
  repeats first early second late third whole name again event player written rewritten checked
      rechecked stays shown reshown := by
    subst whole
    obtain ⟨row, rfl, found⟩ := repeat_told run checked rechecked stays
    refine ⟨rfl, ?_⟩
    rcases checked.cases run (by simp) with ⟨told, rfl, -, here, -⟩ | ⟨told, rfl, -, here⟩
    · rw [found] at here
      obtain rfl := Option.some.inj here
      rfl
    · rw [found] at here
      obtain rfl := Option.some.inj here
      rfl

end Run

/-- The receipt a step answered with. -/
def receipt? (moment : Moment bunker) : Option CheckinReceipt :=
  match moment.label with
  | .reply _ _ _ (.ok (.receipt outcome)) => some outcome.value
  | _ => none

set_option maxRecDepth 10000 in
/-- One player scans twice. -/
theorem doors_right_night :
    ∃ trace stop, Run Night.start trace stop ∧
      ((trace.filterMap receipt?).map CheckinReceipt.cycles = [100, 0] ∧
        stop.state.db.pointEntries.length = 1) ∧ DoorsRight trace := by
  obtain ⟨trace, stop, run, paid⟩ := bunkerScript.exists_run Night.start
    (Night.opened ++ alone 7 (.checkIn Night.code ⟨1⟩) 300 ++
      alone 7 (.checkIn Night.code ⟨1⟩) 400)
    (fun trace stop => decide ((trace.filterMap receipt?).map CheckinReceipt.cycles = [100, 0] ∧
      stop.state.db.pointEntries.length = 1)) (by decide +kernel)
  exact ⟨trace, stop, run, of_decide_eq_true paid, doors_right run⟩

end LanBunker
