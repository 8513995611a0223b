import LanBunker.Events.Receipts
import LanBunker.Events.Table
import LanBunker.Interleaving.Rely

/-!
# When the door pays

A scan looks the event up, compares its window with a first reading of the clock, and writes the
check-in with a second.  The write compares nothing: it pays in an open event as long as no admin
writes the event after the lookup, and the second reading is not past the end that the lookup read.
-/

namespace LanBunker

open Interleaving EventStorage

/-- A check-in that a scan inserted. -/
structure Scan where
  name : Nat
  code : CheckinCode
  /-- What the scan was answered before the insert. -/
  past : Past
  event : EventId
  player : PlayerId
  /-- The second reading of the clock. -/
  instant : Instant

/-- The scan that a step inserts a check-in for. -/
def scan? (moment : Moment bunker) : Option Scan :=
  match moment.label with
  | .call name (.checkIn code _) past (.store (.events (.checkIn event player instant _ _)))
      (.ok (.new _ _)) => some { name, code, past, event, player, instant }
  | _ => none

/-- The check-in is inserted while the event is published and its window is open. -/
def Scan.PaysOpen (scan : Scan) (moment : Moment bunker) : Prop :=
  ∃ row inserted, event? scan.event moment.before.db = some row ∧
    checkin? scan.event scan.player moment.after.db = some inserted ∧
    row.status = .published ∧ row.startsAt ≤ inserted.checkedInAt ∧
    inserted.checkedInAt < row.endsAt

/-- The moment looks a code up, for this request. -/
def looksUp? (moment : Moment bunker) : Option Nat :=
  match moment.label with
  | .call name _ _ (.store (.events (.getByCode _))) _ => some name
  | _ => none

/-- The moments after a request looked a code up. -/
def afterLookup (name : Nat) (moments : List (Moment bunker)) : List (Moment bunker) :=
  (moments.dropWhile fun moment => looksUp? moment ≠ some name).tail

/-- The ends of the events that a history looked up. -/
def Past.ends (past : Past) : List Instant :=
  past.filterMap fun
    | ⟨.store (.events (.getByCode _)), .ok (some event)⟩ => some event.window.endsAt
    | _ => none

/-- No status, edit or removal of the event was committed after the lookup, and the second reading
of the clock is before the end that the lookup read. -/
structure Scan.Undisturbed (scan : Scan) (first : List (Moment bunker)) : Prop where
  unwritten : ∀ moment ∈ afterLookup scan.name first, eventWrite? moment ≠ some scan.event
  unended : ∀ ends ∈ Past.ends scan.past, scan.instant < ends

instance Scan.decidableUndisturbed (scan : Scan) (first : List (Moment bunker)) :
    Decidable (scan.Undisturbed first) :=
  decidable_of_iff
    ((∀ moment ∈ afterLookup scan.name first, eventWrite? moment ≠ some scan.event) ∧
      ∀ ends ∈ Past.ends scan.past, scan.instant < ends)
    ⟨fun holds => ⟨holds.1, holds.2⟩, fun holds => ⟨holds.1, holds.2⟩⟩

/-- The clock does not go back. -/
def Forward (moment : Moment bunker) : Prop := moment.before.clock ≤ moment.after.clock

instance (moment : Moment bunker) : Decidable (Forward moment) :=
  inferInstanceAs (Decidable (World.clock moment.before ≤ World.clock moment.after))

namespace Forward

/-- Later states show later times. -/
def guarantee : Guarantee bunker where
  holds _ := True
  relies world later := World.clock world ≤ World.clock later
  refl _ := Int.le_refl _
  trans first second := Int.le_trans first second

theorem kept : guarantee.KeptBy discipline Forward := fun _ _ _ _ forward => ⟨trivial, forward⟩

end Forward

theorem EventWindow.opened_starts {window : EventWindow} {now : Instant}
    (opened : window.checkin now = .opened) : window.startsAt ≤ now := by
  rw [checkin] at opened
  split_ifs at opened with early
  exact Int.not_lt.mp early

/-- The event that a scan looked up, and its readings of the clock, which are in order. -/
theorem Scanned.readings {past : Past} {code : CheckinCode} {id : EventId} {instant : Instant}
    {draw : Nat → PointEntryId} {world : World} (scanned : Scanned past code id instant draw)
    (lived : Forward.guarantee.Lived past world) :
    ∃ event now,
      past.Read (.events (.getByCode code)) (some event) ∧ event.window.endsAt ∈ Past.ends past ∧
        event.id = id ∧ event.status = .published ∧ event.window.checkin now = .opened ∧
        now ≤ instant := by
  obtain ⟨event, now, rfl, same_id, published, opened⟩ := scanned
  refine ⟨event, now, by simp [Past.Read], by simp [Past.ends], same_id, published, opened, ?_⟩
  -- The draw was made last, the second reading before it, and the first before that.
  have to_draw : Guarantee.Lived _ ([_, _, _] ++ [_]) _ := lived
  obtain ⟨drawn_at, _, to_draw, -⟩ := to_draw.last
  have to_second : Guarantee.Lived _ ([_, _] ++ [_]) _ := to_draw
  obtain ⟨second_at, _, to_second, -, second_read, -⟩ := to_second.last
  have to_first : Guarantee.Lived _ ([_] ++ [_]) _ := to_second
  obtain ⟨first_at, _, -, -, first_read, passed⟩ := to_first.last
  rw [first_read.1, second_read.1]
  exact passed

/-- What a lookup of a code read of the event. -/
structure LookedUp (code : CheckinCode) (event : Event) (row : EventRow) : Prop where
  code : row.checkinCode = code
  id : event.id = row.id
  status : event.status = row.status
  startsAt : event.window.startsAt = instantOf row.startsAt
  endsAt : event.window.endsAt = instantOf row.endsAt

theorem getByCode_answer {code : CheckinCode} {db after : Database} {event : Event}
    (called : getByCode code db = (.ok (some event), after)) :
    after = db ∧ ∃ row ∈ db.events, LookedUp code event row := by
  obtain ⟨answered, rfl⟩ := Prod.mk.inj called
  refine ⟨rfl, ?_⟩
  cases read : converted (toStored db) (db.events.find? fun row => row.checkinCode = code) with
  | error error =>
      rw [read] at answered
      cases answered
  | ok found =>
      rw [read, Except.map, Except.ok.injEq, Option.map_eq_some_iff] at answered
      obtain ⟨stored, rfl, rfl⟩ := answered
      obtain ⟨row, found, shown⟩ := converted_eq_ok.mp read
      obtain ⟨member, same_code⟩ := Relational.find?_key_eq_some found
      obtain ⟨-, ordered, rfl⟩ := EventRow.toStored_eq_some.mp shown
      exact ⟨row, member, same_code, rfl, rfl, rfl, rfl⟩

section Run

variable {clock : Instant} {first last trace : List (Moment bunker)} {moment : Moment bunker}
  {stop : Config bunker} {scan : Scan}

/-- The insert of a scan, with what its request was answered. -/
structure Scan.Made (scan : Scan) (moment : Moment bunker) : Prop where
  caller : ∃ request, moment.label.caller = some (scan.name, request, scan.past)
  scanned : ∃ draw, Scanned scan.past scan.code scan.event scan.instant draw
  lived : Forward.guarantee.Lived scan.past moment.before
  positive : 0 < toMicros scan.instant
  inserted : ∃ row, checkin? scan.event scan.player moment.after.db = some row ∧
    row.checkedInAt = toMicros scan.instant

theorem Scan.made (run : Run (Config.quiet (World.initial clock)) trace stop)
    (forward : ∀ moment ∈ trace, Forward moment) (member : moment ∈ trace)
    (scans : scan? moment = some scan) : scan.Made moment := by
  have informed :=
    ((Guarantee.along_run Forward.kept trivial run forward).2 moment member).informed
  have sound := discipline.sound run moment member
  rw [scan?] at scans
  split at scans
  · rename_i name code player past event other instant award draw told active label
    obtain rfl := Option.some.inj scans
    have caller : moment.label.caller = some (name, .checkIn code player, past) := by
      rw [label]
      rfl
    have lived := informed name _ past caller
    simp only [Discipline.Sound, label] at sound
    obtain ⟨⟨-, allowed⟩, ⟨-, stored⟩ | ⟨busy, -⟩⟩ := sound
    · rcases checkIn_cases (World.store_eq stored) with
        ⟨-, entered⟩ | ⟨row, -, answer, -⟩ | ⟨error, answer, -⟩
      · rcases allowed with ⟨_, request_eq, scanned⟩ | request_eq
        · obtain ⟨rfl, -⟩ := Request.checkIn.inj request_eq
          exact ⟨⟨_, caller⟩, ⟨draw, scanned⟩, lived, entered.positive, _, entered.inserted, rfl⟩
        · cases request_eq
      · cases answer
      · cases answer
    · cases busy
  · cases scans

/-- The row that the lookup read is still there at the insert, where no step wrote it. -/
theorem Scan.Made.row_kept
    (run : Run (Config.quiet (World.initial clock)) (first ++ moment :: last) stop)
    (made : scan.Made moment)
    (unwritten : ∀ other ∈ afterLookup scan.name first, eventWrite? other ≠ some scan.event)
    {event : Event} (read : scan.past.Read (.events (.getByCode scan.code)) (some event))
    (same_id : event.id = scan.event) :
    ∃ row, event? scan.event moment.before.db = some row ∧ LookedUp scan.code event row := by
  obtain ⟨request, caller⟩ := made.caller
  have sound := discipline.sound run
  let sound_table : bunker.State → Prop := fun world => EventStorage.Sound (World.db world).events
  have tables := (run.invariant (show sound_table (World.initial clock) from .nil)
    fun other member => events_sound_step (sound other member)).2
  obtain ⟨early, call, between, earlier, there, here, rfl, label, there_eq, rest, here_eq⟩ :=
    run.since caller read
  have call_mem : call ∈ (early ++ call :: between) ++ moment :: last := by simp
  have stored := Stored.of_ok (sound call call_mem) label
  obtain ⟨same_db, row, row_mem, looked_up⟩ := getByCode_answer stored.called
  have looks : looksUp? call = some scan.name := by simp only [looksUp?, label]
  have found : event? scan.event call.after.db = some row := by
    rw [same_db, ← same_id, looked_up.id]
    exact Relational.find?_key_of_mem (tables call call_mem).1.ids row_mem
  let stands : bunker.State → Prop := fun world => event? scan.event (World.db world) = some row
  have kept : stands here.state := by
    refine (rest.invariant (there_eq ▸ found) fun other member before => ?_).1
    exact event?_kept (sound other (by simp [member])) before
      (unwritten other (Run.mem_tail_dropWhile (by simp [looks]) member))
  rw [here_eq] at kept
  exact ⟨row, kept, looked_up⟩

/-- A scan whose event nothing wrote since the lookup pays while the door is open. -/
theorem Scan.Made.paysOpen
    (run : Run (Config.quiet (World.initial clock)) (first ++ moment :: last) stop)
    (made : scan.Made moment) (undisturbed : scan.Undisturbed first) : scan.PaysOpen moment := by
  obtain ⟨draw, scanned⟩ := made.scanned
  obtain ⟨event, now, read, ends, same_id, published, opened, in_order⟩ :=
    scanned.readings made.lived
  obtain ⟨row, found, looked_up⟩ := made.row_kept run undisturbed.unwritten read same_id
  obtain ⟨inserted, inserted_found, inserted_at⟩ := made.inserted
  have after_epoch : 0 ≤ scan.instant :=
    Int.le_trans (by decide) (toMicros_pos_iff.mp made.positive)
  refine ⟨row, inserted, found, inserted_found, looked_up.status.symm.trans published, ?_, ?_⟩
  · have started : event.window.startsAt ≤ scan.instant :=
      Int.le_trans (EventWindow.opened_starts opened) in_order
    rw [looked_up.startsAt] at started
    rw [inserted_at]
    exact Int.not_lt.mp fun early =>
      Int.not_lt.mpr started ((toMicros_lt_iff after_epoch).mp early)
  · rw [inserted_at, toMicros_lt_iff after_epoch, ← looked_up.endsAt]
    exact undisturbed.unended _ ends

end Run

/-- Under a clock that does not go back, a scan of a run pays at the door while it is open if no
status, edit or removal of the event was committed since its lookup, and its second reading of the
clock is before the end that the lookup read. -/
theorem pays_open_undisturbed {clock : Instant} {trace : List (Moment bunker)}
    {stop : Config bunker} (run : Run (Config.quiet (World.initial clock)) trace stop)
    (forward : ∀ moment ∈ trace, Forward moment) :
    ∀ first moment last, trace = first ++ moment :: last →
      ∀ scan, scan? moment = some scan → scan.Undisturbed first → scan.PaysOpen moment := by
  rintro first moment last rfl scan scans undisturbed
  exact (Scan.made run forward (by simp) scans).paysOpen run undisturbed

/-- A scan that pays for an event with a status. -/
def paysIn (status : EventStatus) (moment : Moment bunker) : Bool :=
  (scan? moment).any fun scan =>
    (event? scan.event moment.before.db).any fun row => row.status = status

set_option maxRecDepth 10000 in
/-- One player scans on an open night, and another signs up between the lookup and the insert. -/
theorem pays_open_undisturbed_night :
    ∃ trace stop, Run Night.start trace stop ∧ ∃ moment, trace.getLast? = some moment ∧
      ∃ scan, scan? moment = some scan ∧ scan.PaysOpen moment := by
  obtain ⟨trace, stop, run, outcome⟩ := bunkerScript.exists_run Night.start
    (Night.opened ++ bunkerScript.alone 0 2 (.checkIn Night.code ⟨1⟩) {} ++
      bunkerScript.alone 1 4 (.signup ⟨['b', 'o', 'b'], by decide, by decide, by decide⟩ "")
        { uuid := 2 } ++
      List.replicate 3 (.advance 0 { uuid := 300 }))
    (fun trace _ => trace.getLast?.any (fun moment => (scan? moment).any fun scan =>
        scan.Undisturbed trace.dropLast) &&
      trace.all fun moment => decide (Forward moment)) (by decide +kernel)
  obtain ⟨found, forward⟩ := Bool.and_eq_true_iff.mp outcome
  obtain ⟨moment, last, tested⟩ := (Option.any_eq_true _ _).mp found
  obtain ⟨scan, scans, undisturbed⟩ := (Option.any_eq_true _ _).mp tested
  refine ⟨trace, stop, run, moment, last, scan, scans, ?_⟩
  refine pays_open_undisturbed run (fun other member => ?_) _ _ []
    (List.dropLast_append_getLast? moment last).symm scan scans (of_decide_eq_true undisturbed)
  exact of_decide_eq_true (List.all_eq_true.mp forward other member)

set_option maxRecDepth 10000 in
/-- A scan looks up a published event and reads the clock, an admin takes the event back to draft,
and then the scan inserts its check-in. -/
theorem not_pays_open :
    ∃ trace stop, Run Night.start trace stop ∧ (∀ moment ∈ trace, Forward moment) ∧
      ∃ moment ∈ trace, ∃ scan, scan? moment = some scan ∧ ¬scan.PaysOpen moment := by
  obtain ⟨trace, stop, run, outcome⟩ := bunkerScript.exists_run Night.start
    (Night.opened ++ bunkerScript.alone 0 2 (.checkIn Night.code ⟨1⟩) {} ++
      bunkerScript.alone 1 3 (.setEventStatus Night.id .draft) {} ++
      List.replicate 5 (.advance 0 { uuid := 300 }))
    (fun trace _ => trace.any (paysIn .draft) &&
      trace.all fun moment => decide (Forward moment)) (by decide +kernel)
  obtain ⟨paid, forward⟩ := Bool.and_eq_true_iff.mp outcome
  refine ⟨trace, stop, run, fun moment member => ?_, ?_⟩
  · exact of_decide_eq_true (List.all_eq_true.mp forward moment member)
  · obtain ⟨moment, member, pays⟩ := List.any_eq_true.mp paid
    obtain ⟨scan, scans, found⟩ := (Option.any_eq_true _ _).mp pays
    refine ⟨moment, member, scan, scans, ?_⟩
    rintro ⟨row, -, row_found, -, published, -⟩
    rw [row_found, Option.any_some, published] at found
    cases found

end LanBunker
