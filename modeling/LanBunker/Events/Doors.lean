import LanBunker.Effects.Events
import LanBunker.Effects.Players
import LanBunker.Effects.Tournaments

/-!
# The doors

The check-ins of all events and the ledger that pays for them, every way one step can change the
two, and what they keep: for each check-in exactly one entry, for each entry of that kind a
check-in.
-/

namespace LanBunker

/-- The primary key of a check-in. -/
def CheckinRow.key (row : CheckinRow) : EventId × PlayerId := (row.event, row.player)

/-- The check-in an entry pays for. -/
def PointRow.checkin? (row : PointRow) : Option (EventId × PlayerId) :=
  if row.kind = .checkin then row.event.map fun event => (event, row.player) else none

/-- The check-ins and the ledger. -/
structure Doors where
  checkins : List CheckinRow
  entries : List PointRow

def Database.doors (db : Database) : Doors := ⟨db.eventCheckins, db.pointEntries⟩

namespace Doors

/-- The check-ins that were paid for. -/
def paidFor (doors : Doors) : List (EventId × PlayerId) :=
  doors.entries.filterMap PointRow.checkin?

/-- One step of the doors. -/
inductive Move : Doors → Doors → Prop where
  | stay (doors : Doors) : Move doors doors
  | paid {doors : Doors} {rows : List PointRow} (others : ∀ row ∈ rows, row.kind ≠ .checkin) :
      Move doors { doors with entries := doors.entries ++ rows }
  | entered {doors : Doors} {event : EventId} {player : PlayerId} (instant : Instant)
      (id : PointEntryId) (new : (event, player) ∉ doors.checkins.map CheckinRow.key) :
      Move doors
        { checkins := doors.checkins ++ [⟨event, player, toMicros instant⟩]
          entries := doors.entries ++
            [awardRow (.event event) instant id (checkinAward event player)] }
  | left {doors : Doors} {stays : EventId × PlayerId → Bool} {kept : PointRow → Bool}
      (agree : ∀ entry key, entry.checkin? = some key → kept entry = stays key) :
      Move doors
        { checkins := doors.checkins.filter fun row => stays row.key
          entries := doors.entries.filter kept }
  | untied (doors : Doors) (id : TournamentId) :
      Move doors { doors with entries := doors.entries.filter fun row => row.tournament ≠ some id }
  | anonymised (doors : Doors) (player : PlayerId) :
      Move doors
        { checkins := doors.checkins.filter fun row => row.player ≠ player
          entries := (doors.entries.filter fun row => row.player ≠ player).map fun row =>
            if row.createdBy = some player then { row with createdBy := none } else row }

/-- The invariant: check-ins and the entries that pay for them match one to one. -/
structure Paired (doors : Doors) : Prop where
  /-- No player is checked in twice at one event. -/
  keys : (doors.checkins.map CheckinRow.key).Nodup
  /-- Every check-in is paid for exactly once. -/
  perm : doors.paidFor.Perm (doors.checkins.map CheckinRow.key)
  /-- What an entry for a check-in looks like. -/
  entries : ∀ entry ∈ doors.entries, entry.kind = .checkin → ∃ event, entry.event = some event ∧
    entry.sourceRef = event.toText ∧ entry.amount = checkinCycles ∧ entry.tournament = none

theorem paired_empty : Paired ⟨[], []⟩ where
  keys := List.nodup_nil
  perm := List.Perm.refl _
  entries entry member := by cases member

/-! ## A move keeps the pairs -/

section Paired

variable {doors after : Doors}

theorem checkin?_eq_some {entry : PointRow} {key : EventId × PlayerId} :
    entry.checkin? = some key ↔
      entry.kind = .checkin ∧ entry.event = some key.1 ∧ entry.player = key.2 := by
  obtain ⟨event, player⟩ := key
  simp only [PointRow.checkin?]
  split_ifs with kind
  · simp [kind, Option.map_eq_some_iff]
  · simp [kind]

theorem Paired.paid (paired : doors.Paired) {rows : List PointRow}
    (others : ∀ row ∈ rows, row.kind ≠ .checkin) :
    Paired { doors with entries := doors.entries ++ rows } where
  keys := paired.keys
  perm := by
    have unpaid : rows.filterMap PointRow.checkin? = [] := by
      rw [List.filterMap_eq_nil_iff]
      intro row member
      rw [PointRow.checkin?, if_neg (others row member)]
    simp only [paidFor, List.filterMap_append, unpaid, List.append_nil]
    exact paired.perm
  entries entry member kind := by
    rcases List.mem_append.mp member with old | new
    · exact paired.entries entry old kind
    · exact absurd kind (others entry new)

theorem Paired.entered (paired : doors.Paired) {event : EventId} {player : PlayerId}
    (instant : Instant) (id : PointEntryId)
    (new : (event, player) ∉ doors.checkins.map CheckinRow.key) :
    Paired
      { checkins := doors.checkins ++ [⟨event, player, toMicros instant⟩]
        entries := doors.entries ++
          [awardRow (.event event) instant id (checkinAward event player)] } where
  keys := by
    rw [List.map_append, List.map_singleton]
    refine List.Nodup.append paired.keys (List.nodup_singleton _) ?_
    rw [List.disjoint_singleton]
    exact new
  perm := by
    simp only [paidFor, List.filterMap_append, List.map_append]
    exact paired.perm.append (List.Perm.refl _)
  entries entry member kind := by
    rcases List.mem_append.mp member with old | last
    · exact paired.entries entry old kind
    · obtain rfl := List.mem_singleton.mp last
      exact ⟨event, rfl, rfl, rfl, rfl⟩

/-- Filters of the ledger and of what it pays for. -/
theorem filterMap_filter_entries {entries : List PointRow} {stays : EventId × PlayerId → Bool}
    {kept : PointRow → Bool}
    (agree : ∀ entry ∈ entries, ∀ key, entry.checkin? = some key → kept entry = stays key) :
    (entries.filter kept).filterMap PointRow.checkin? =
      (entries.filterMap PointRow.checkin?).filter stays := by
  induction entries with
  | nil => rfl
  | cons entry entries ih =>
      have rest := ih fun other member => agree other (List.mem_cons_of_mem _ member)
      cases paid : entry.checkin? with
      | none =>
          rw [List.filterMap_cons_none paid, ← rest, List.filter_cons]
          split_ifs
          · rw [List.filterMap_cons_none paid]
          · rfl
      | some key =>
          have same := agree entry List.mem_cons_self key paid
          rw [List.filterMap_cons_some paid, List.filter_cons, List.filter_cons, ← same, ← rest]
          split_ifs
          · rw [List.filterMap_cons_some paid]
          · rfl

theorem Paired.left (paired : doors.Paired) {stays : EventId × PlayerId → Bool}
    {kept : PointRow → Bool}
    (agree : ∀ entry ∈ doors.entries, ∀ key, entry.checkin? = some key → kept entry = stays key) :
    Paired
      { checkins := doors.checkins.filter fun row => stays row.key
        entries := doors.entries.filter kept } where
  keys := paired.keys.sublist (List.filter_sublist.map CheckinRow.key)
  perm := by
    have keys_eq : (doors.checkins.filter fun row => stays row.key).map CheckinRow.key =
        (doors.checkins.map CheckinRow.key).filter stays := by
      rw [List.filter_map]
      rfl
    simp only [paidFor, filterMap_filter_entries agree, keys_eq]
    exact paired.perm.filter stays
  entries entry member := paired.entries entry (List.mem_filter.mp member).1

/-- A write to the ledger that keeps what an entry pays for. -/
theorem Paired.map_entries (paired : doors.Paired) {write : PointRow → PointRow}
    (same : ∀ row, (write row).kind = row.kind ∧ (write row).event = row.event ∧
      (write row).player = row.player ∧ (write row).sourceRef = row.sourceRef ∧
      (write row).amount = row.amount ∧ (write row).tournament = row.tournament) :
    Paired { doors with entries := doors.entries.map write } where
  keys := paired.keys
  perm := by
    have same_paid : PointRow.checkin? ∘ write = PointRow.checkin? := by
      funext row
      obtain ⟨kind, event, player, -⟩ := same row
      simp only [Function.comp_apply, PointRow.checkin?, kind, event, player]
    simp only [paidFor, List.filterMap_map, same_paid]
    exact paired.perm
  entries entry member kind := by
    obtain ⟨row, row_mem, rfl⟩ := List.mem_map.mp member
    obtain ⟨kind_eq, event_eq, -, source_eq, amount_eq, tournament_eq⟩ := same row
    rw [event_eq, source_eq, amount_eq, tournament_eq]
    exact paired.entries row row_mem (kind_eq ▸ kind)

theorem Move.paired (move : Move doors after) (paired : doors.Paired) : after.Paired := by
  cases move with
  | stay => exact paired
  | paid others => exact paired.paid others
  | entered instant id new => exact paired.entered instant id new
  | left agree => exact paired.left fun entry _ => agree entry
  | untied id =>
      have all : (doors.checkins.filter fun _ => true) = doors.checkins := by simp
      have agree : ∀ entry ∈ doors.entries, ∀ key, entry.checkin? = some key →
          decide (entry.tournament ≠ some id) = (fun _ => true) key := by
        intro entry member key paid
        obtain ⟨event, -, -, -, no_tournament⟩ :=
          paired.entries entry member (checkin?_eq_some.mp paid).1
        simp [no_tournament]
      have kept := paired.left agree
      rw [all] at kept
      exact kept
  | anonymised player =>
      have agree : ∀ entry ∈ doors.entries, ∀ key, entry.checkin? = some key →
          decide (entry.player ≠ player) = (fun key => decide (key.2 ≠ player)) key := by
        intro entry _ key paid
        rw [(checkin?_eq_some.mp paid).2.2]
      refine (paired.left agree).map_entries fun row => ?_
      split_ifs <;> simp

/-- A check-in that is there was there, or nobody was there by its key. -/
theorem Move.kept (move : Move doors after) : ∀ row ∈ after.checkins,
    row ∈ doors.checkins ∨ row.key ∉ doors.checkins.map CheckinRow.key := by
  intro row member
  cases move with
  | stay => exact Or.inl member
  | paid others => exact Or.inl member
  | entered instant id new =>
      rcases List.mem_append.mp member with old | last
      · exact Or.inl old
      · obtain rfl := List.mem_singleton.mp last
        exact Or.inr new
  | left agree => exact Or.inl (List.mem_filter.mp member).1
  | untied id => exact Or.inl member
  | anonymised player => exact Or.inl (List.mem_filter.mp member).1

end Paired
end Doors
end LanBunker
