import LanBunker.Events.Checkins
import LanBunker.Events.Table
import LanBunker.Http.Tables
import LanBunker.Matches.Log

/-!
# The lists behind a server

The pages of the tournaments and of the events, for everyone and for the backoffice.  In every
state of a run they list what they may show once, in order, and each item is what its own page
shows.
-/

namespace LanBunker

open Interleaving Relational

/-! ## Tournaments -/

/-- The order of the tournaments: the latest day first. -/
def Tournament.IsListedBefore (left right : Tournament) : Prop :=
  MatchStorage.compareDays right.date left.date = .lt ∨
    right.date = left.date ∧ (right.createdAt < left.createdAt ∨
      right.createdAt = left.createdAt ∧ left.id.uuid < right.id.uuid)

namespace TournamentStorage

theorem transCmp_listed : Std.TransCmp compareListed := by
  have := transCmp_days
  have day : Std.TransCmp fun left right : TournamentRow =>
      MatchStorage.compareDays right.date left.date :=
    Ordered.transCmp_on TournamentRow.date fun left right => MatchStorage.compareDays right left
  have created : Std.TransCmp fun left right : TournamentRow =>
      compare right.createdAt left.createdAt :=
    Ordered.transCmp_on TournamentRow.createdAt fun left right => compare right left
  have id : Std.TransCmp fun left right : TournamentRow => compare left.id.uuid right.id.uuid :=
    Ordered.transCmp_on (fun row : TournamentRow => row.id.uuid) compare
  exact inferInstanceAs (Std.TransCmp (compareLex _ (compareLex _ _)))

theorem id_eq_of_compareListed {left right : TournamentRow}
    (same : compareListed left right = .eq) : left.id = right.id := by
  simp only [compareListed, compareLex, Ordering.then_eq_eq] at same
  exact congrArg Id.mk (Nat.compare_eq_eq.mp same.2.2)

theorem isListedBefore_of_lt {db : Database} {left right : TournamentRow}
    (before : compareListed left right = .lt) :
    (tournamentOf db left).IsListedBefore (tournamentOf db right) := by
  simp only [compareListed, compareLex, Ordering.then_eq_lt] at before
  rcases before with day | ⟨day, created | ⟨created, id⟩⟩
  · exact Or.inl day
  · refine Or.inr ⟨compareDays_eq day, Or.inl ?_⟩
    exact Int.mul_lt_mul_of_pos_right (Int.compare_eq_lt.mp created) (by decide)
  · refine Or.inr ⟨compareDays_eq day, Or.inr ⟨?_, Nat.compare_eq_lt.mp id⟩⟩
    exact congrArg instantOf (Int.compare_eq_eq.mp created)

/-- What a page shows of a tournament is what a read of it shows. -/
def Shows (db : Database) (row : TournamentRow) (item : Tournament) : Prop :=
  item.id = row.id ∧ item.status = row.status ∧ get row.id db = (.ok (some item), db)

/-- A page is read exactly if a read knows each of its rows. -/
theorem list_ok_iff (query : PageQuery) (includeDrafts : Bool) (db : Database) :
    (∃ page, (list query includeDrafts db).1 = .ok page) ↔
      ∀ row ∈ window query.limit query.offset (listed includeDrafts db), row.IsReadable := by
  refine Ordered.exists_map_mapM_eq_ok.trans (forall₂_congr fun row _ => ?_)
  simp only [converting_eq_ok, toTournament_eq_some, exists_and_left, exists_eq', and_true]

theorem listing {db : Database} (keys : (db.tournaments.map TournamentRow.id).Nodup)
    (includeDrafts : Bool)
    (readable : ∀ row ∈ db.tournaments.filter (isListed includeDrafts), row.IsReadable) :
    Listing (db.tournaments.filter (isListed includeDrafts)) (Shows db) Tournament.IsListedBefore
      fun query => (list query includeDrafts db).1 := by
  have := transCmp_listed
  simp only [list, listed, List.countP_eq_length_filter]
  refine Listing.of_sorted ?_ ?_ ?_
  · have apart := List.pairwise_map.mp (Relational.nodup_keys_filter keys (isListed includeDrafts))
    exact apart.imp fun different same => different (id_eq_of_compareListed same)
  · intro row member
    have read : toTournament db row = some (tournamentOf db row) :=
      toTournament_eq_some.mpr ⟨readable row member, rfl⟩
    refine ⟨tournamentOf db row, converting_eq_ok.mpr read, rfl, rfl, Prod.ext ?_ rfl⟩
    exact get_eq_ok.mpr ⟨row, tournament?_of_mem keys (List.mem_filter.mp member).1,
      readable row member, rfl⟩
  · rintro left right first second before first_eq second_eq
    obtain ⟨-, rfl⟩ := toTournament_eq_some.mp (converting_eq_ok.mp first_eq)
    obtain ⟨-, rfl⟩ := toTournament_eq_some.mp (converting_eq_ok.mp second_eq)
    exact isListedBefore_of_lt before

end TournamentStorage

/-! ## Events -/

/-- The order of the events: the latest night first. -/
def Event.IsListedBefore (left right : Event) : Prop :=
  right.window.startsAt < left.window.startsAt ∨
    right.window.startsAt = left.window.startsAt ∧ left.id.uuid < right.id.uuid

namespace EventStorage

theorem transCmp_listed : Std.TransCmp compareListed := by
  have starts : Std.TransCmp fun left right : EventRow => compare right.startsAt left.startsAt :=
    Ordered.transCmp_on EventRow.startsAt fun left right => compare right left
  have id : Std.TransCmp fun left right : EventRow => compare left.id.uuid right.id.uuid :=
    Ordered.transCmp_on (fun row : EventRow => row.id.uuid) compare
  exact inferInstanceAs (Std.TransCmp (compareLex _ _))

theorem id_eq_of_compareListed {left right : EventRow}
    (same : compareListed left right = .eq) : left.id = right.id := by
  simp only [compareListed, compareLex, Ordering.then_eq_eq] at same
  exact congrArg Id.mk (Nat.compare_eq_eq.mp same.2)

/-- What a page shows of an event is what a read by its id shows, and one by its code. -/
def Shows (db : Database) (row : EventRow) (item : Event) : Prop :=
  item.id = row.id ∧ item.status = row.status ∧
    get row.id db = (.ok (some ⟨item, row.checkinCode⟩), db) ∧
    getByCode row.checkinCode db = (.ok (some item), db)

/-- A checked row in the years that a read knows is an event. -/
theorem exists_toStored {row : EventRow} (checked : isChecked row) (readable : row.IsReadable)
    (checkinCount : Nat) : ∃ event : Event,
      row.toStored checkinCount = some ⟨event, row.checkinCode⟩ ∧ event.id = row.id ∧
        event.status = row.status := by
  simp only [isChecked, Bool.decide_and, Bool.and_eq_true, decide_eq_true_eq] at checked
  have ordered : instantOf row.startsAt < instantOf row.endsAt :=
    Int.mul_lt_mul_of_pos_right checked.2.2.2.2.2.1 (by decide)
  exact ⟨_, EventRow.toStored_eq_some.mpr ⟨readable, ordered, rfl⟩, rfl, rfl⟩

theorem tryEvent_eq_ok {db : Database} {row : EventRow} {event : Event} :
    tryEvent db row = .ok event ↔
      ∃ stored, toStored db row = some stored ∧ stored.event = event := by
  rw [tryEvent, converting]
  cases read : toStored db row with
  | none => simp [Except.map]
  | some stored => simp [Except.map]

/-- A page is read exactly if a read knows each of its rows. -/
theorem list_ok_iff {db : Database} (sound : Sound db.events) (query : PageQuery)
    (includeDrafts : Bool) :
    (∃ page, (list query includeDrafts db).1 = .ok page) ↔
      ∀ row ∈ window query.limit query.offset (listed includeDrafts db), row.IsReadable := by
  refine Ordered.exists_map_mapM_eq_ok.trans (forall₂_congr fun row member => ?_)
  have row_mem : row ∈ db.events := by
    have sorted := List.mem_of_mem_drop (List.mem_of_mem_take member)
    exact (List.mem_filter.mp ((Ordered.sortBy_perm _ _).subset sorted)).1
  constructor
  · rintro ⟨event, read⟩
    obtain ⟨stored, read, -⟩ := tryEvent_eq_ok.mp read
    exact (EventRow.toStored_eq_some.mp read).1
  · intro readable
    obtain ⟨event, stored, -⟩ := exists_toStored (sound.checked row row_mem) readable
      (db.eventCheckins.countP fun c => c.event = row.id)
    exact ⟨event, tryEvent_eq_ok.mpr ⟨_, stored, rfl⟩⟩

theorem listing {db : Database} (sound : Sound db.events) (includeDrafts : Bool)
    (readable : ∀ row ∈ db.events.filter (isListed includeDrafts), row.IsReadable) :
    Listing (db.events.filter (isListed includeDrafts)) (Shows db) Event.IsListedBefore
      fun query => (list query includeDrafts db).1 := by
  have := transCmp_listed
  simp only [list, listed, List.countP_eq_length_filter]
  refine Listing.of_sorted ?_ ?_ ?_
  · have apart := List.pairwise_map.mp
      (Relational.nodup_keys_filter sound.ids (isListed includeDrafts))
    exact apart.imp fun different same => different (id_eq_of_compareListed same)
  · intro row member
    have row_mem := (List.mem_filter.mp member).1
    obtain ⟨event, stored, id_eq, status_eq⟩ := exists_toStored (sound.checked row row_mem)
      (readable row member) (db.eventCheckins.countP fun c => c.event = row.id)
    have read : converting (toStored db) row = .ok ⟨event, row.checkinCode⟩ :=
      converting_eq_ok.mpr stored
    refine ⟨event, tryEvent_eq_ok.mpr ⟨_, stored, rfl⟩, id_eq, status_eq, ?_, ?_⟩
    · rw [get, event?, Relational.find?_key_of_mem sound.ids row_mem, converted, read]
      rfl
    · rw [getByCode, Relational.find?_key_of_mem sound.codes row_mem, converted, read]
      rfl
  · intro left right first second before first_eq second_eq
    obtain ⟨_, first_read, rfl⟩ := tryEvent_eq_ok.mp first_eq
    obtain ⟨_, second_read, rfl⟩ := tryEvent_eq_ok.mp second_eq
    obtain ⟨-, _, rfl⟩ := EventRow.toStored_eq_some.mp first_read
    obtain ⟨-, _, rfl⟩ := EventRow.toStored_eq_some.mp second_read
    simp only [compareListed, compareLex, Ordering.then_eq_lt] at before
    rcases before with starts | ⟨starts, id⟩
    · exact Or.inl (Int.mul_lt_mul_of_pos_right (Int.compare_eq_lt.mp starts) (by decide))
    · exact Or.inr ⟨congrArg instantOf (Int.compare_eq_eq.mp starts), Nat.compare_eq_lt.mp id⟩

end EventStorage

/-! ## Every run -/

section Run

variable {secrets : Secrets} {clock : Instant} {trace : List (Moment (server secrets))}
  {stop : Config (server secrets)}

theorem events_sound (run : Run (Config.quiet (World.initial clock)) trace stop) :
    EventStorage.Sound stop.state.db.events := by
  let kept : World → Prop := fun world => EventStorage.Sound world.db.events
  have initial : kept (World.initial clock) := .nil
  refine (server_invariant run initial ?_ ?_).1
  · intro lower sound kept
    exact events_sound_step sound kept
  · intro world id handle answer db kept ran
    rcases PlayerStorage.rename_cases ran with ⟨-, -, -, rfl⟩ | ⟨-, -, -, rfl⟩ | ⟨-, -, rfl⟩
    · exact kept
    · exact kept
    · exact kept

/-- In every state of a run a page of the lists is read exactly if a read knows the years of its
rows.  A list, with the drafts or without, of which it knows every row is whole: no read of a page
fails, every item is what a read of it alone shows, and the pages show each item they may once, in
order. -/
theorem lists_whole (run : Run (Config.quiet (World.initial clock)) trace stop)
    (includeDrafts : Bool) :
    (∀ query,
      ((∃ page, (TournamentStorage.list query includeDrafts stop.state.db).1 = .ok page) ↔
        ∀ row ∈ window query.limit query.offset
          (TournamentStorage.listed includeDrafts stop.state.db), row.IsReadable) ∧
      ((∃ page, (EventStorage.list query includeDrafts stop.state.db).1 = .ok page) ↔
        ∀ row ∈ window query.limit query.offset
          (EventStorage.listed includeDrafts stop.state.db), row.IsReadable)) ∧
    ((∀ row ∈ stop.state.db.tournaments.filter (TournamentStorage.isListed includeDrafts),
        row.IsReadable) →
      Listing (stop.state.db.tournaments.filter (TournamentStorage.isListed includeDrafts))
        (TournamentStorage.Shows stop.state.db) Tournament.IsListedBefore
        fun query => (TournamentStorage.list query includeDrafts stop.state.db).1) ∧
    ((∀ row ∈ stop.state.db.events.filter (EventStorage.isListed includeDrafts),
        row.IsReadable) →
      Listing (stop.state.db.events.filter (EventStorage.isListed includeDrafts))
        (EventStorage.Shows stop.state.db) Event.IsListedBefore
        fun query => (EventStorage.list query includeDrafts stop.state.db).1) := by
  have sound := events_sound run
  refine ⟨fun query => ⟨TournamentStorage.list_ok_iff query includeDrafts _,
    EventStorage.list_ok_iff sound query includeDrafts⟩, fun readable => ?_, fun readable => ?_⟩
  · exact TournamentStorage.listing (boards_good run).tournaments includeDrafts readable
  · exact EventStorage.listing sound includeDrafts readable

end Run

namespace HttpRequest

/-- An admin keeps one tournament a draft and opens another, and publishes a night. -/
def posted : List (serverScript .letters).Command :=
  signup 'p' rfl 1 ++ [.drift { promoted := some ⟨1⟩ }] ++
    admin 5 (.createTournament Cup.new) 10 ++ admin 5 (.createTournament Cup.new) 11 ++
    admin 6 (.changeStatus Cup.id ⟨.live, none⟩) 100 ++ admin 6 (.createEvent Night.fields) 40 ++
    admin 3 (.changeEventStatus Night.id .published) 0

end HttpRequest

set_option maxRecDepth 10000 in
/-- Everyone sees one tournament of two, and the night. -/
theorem lists_whole_posted :
    ∃ (trace : List (Moment (server .letters))) (stop : Config (server .letters)),
      Run (Config.quiet (World.initial 2000000000)) trace stop ∧
        (stop.state.db.tournaments.map TournamentRow.status) = [.live, .draft] ∧
        (∀ query, ∃ page, (TournamentStorage.list query false stop.state.db).1 = .ok page ∧
          page.total = 1) ∧
        ∀ query, ∃ page, (EventStorage.list query false stop.state.db).1 = .ok page ∧
          page.total = 1 := by
  obtain ⟨trace, stop, run, found⟩ := (serverScript .letters).exists_run
    (Config.quiet (World.initial 2000000000)) HttpRequest.posted
    (fun _ stop => decide (stop.state.db.tournaments.map TournamentRow.status = [.live, .draft] ∧
      (stop.state.db.tournaments.filter (TournamentStorage.isListed false)).length = 1 ∧
      (stop.state.db.events.filter (EventStorage.isListed false)).length = 1 ∧
      (∀ row ∈ stop.state.db.tournaments.filter (TournamentStorage.isListed false),
        row.IsReadable) ∧
      ∀ row ∈ stop.state.db.events.filter (EventStorage.isListed false), row.IsReadable))
    (by decide +kernel)
  obtain ⟨statuses, tournaments, events, known, nights_known⟩ := of_decide_eq_true found
  obtain ⟨-, tournaments_whole, events_whole⟩ := lists_whole run false
  rw [← tournaments]
  refine ⟨trace, stop, run, statuses, fun query => ?_, fun query => ?_⟩
  · obtain ⟨page, read, total, -⟩ := (tournaments_whole known).reads query
    exact ⟨page, read, total⟩
  · obtain ⟨page, read, total, -⟩ := (events_whole nights_known).reads query
    exact ⟨page, read, total.trans (events.trans tournaments.symm)⟩

end LanBunker
