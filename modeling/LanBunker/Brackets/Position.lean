import Mathlib.Data.List.Nodup
import LanBunker.Models.Bracket

/-!
# Positions of a bracket

Everything `report` and `clear` do is a write at one position and a write at the position it
feeds.  This file says what those writes do to every other position, and what a successful call
has checked before it writes.
-/

namespace LanBunker

/-! ## The side a slot feeds -/

namespace Match

variable (slot : Nat) (entrant : Option EntrantId) (next : Match)

@[simp]
theorem fed_id : (next.fed slot entrant).id = next.id := by
  unfold fed
  split_ifs <;> rfl

@[simp]
theorem fed_round : (next.fed slot entrant).round = next.round := by
  unfold fed
  split_ifs <;> rfl

@[simp]
theorem fed_slot : (next.fed slot entrant).slot = next.slot := by
  unfold fed
  split_ifs <;> rfl

@[simp]
theorem fed_winner : (next.fed slot entrant).winner = next.winner := by
  unfold fed
  split_ifs <;> rfl

end Match

namespace Bracket

/-! ## Reading after a write -/

theorem mem_flat_iff {bracket : Bracket} {m : Match} :
    m ∈ bracket.flat ↔ ∃ round slot, bracket.get round slot = some m := by
  constructor
  · intro member
    obtain ⟨slots, slots_mem, m_mem⟩ := List.mem_flatten.mp member
    obtain ⟨round, round_eq⟩ := List.getElem?_of_mem slots_mem
    obtain ⟨slot, slot_eq⟩ := List.getElem?_of_mem m_mem
    exact ⟨round, slot, by simp [get, round_eq, slot_eq]⟩
  · rintro ⟨round, slot, found⟩
    obtain ⟨slots, slots_eq, slot_eq⟩ := Option.bind_eq_some_iff.mp found
    exact List.mem_flatten.mpr
      ⟨slots, List.mem_of_getElem? slots_eq, List.mem_of_getElem? slot_eq⟩

theorem get_eq_some_iff {bracket : Bracket} {round slot : Nat} {m : Match} :
    bracket.get round slot = some m ↔
      ∃ slots, bracket.rounds[round]? = some slots ∧ slots[slot]? = some m := by
  simp [get, Option.bind_eq_some_iff]

theorem get_modify (bracket : Bracket) (round slot : Nat) (write : Match → Match)
    (otherRound otherSlot : Nat) :
    (bracket.modify round slot write).get otherRound otherSlot =
      (bracket.get otherRound otherSlot).map fun m =>
        if otherRound = round ∧ otherSlot = slot then write m else m := by
  simp only [get, modify, List.getElem?_modify]
  cases bracket.rounds[otherRound]? with
  | none => simp
  | some slots =>
      by_cases same_round : round = otherRound
      · subst same_round
        by_cases same_slot : slot = otherSlot
        · subst same_slot
          cases slots[slot]? <;> simp
        · have other : ¬otherSlot = slot := fun equality => same_slot equality.symm
          cases same : slots[otherSlot]? <;> simp [same, same_slot, other]
      · have other : ¬otherRound = round := fun equality => same_round equality.symm
        simp [same_round, other]

/-- What `enter` leaves at a position that held `m`. -/
def entered (round slot : Nat) (winner : Option EntrantId) (otherRound otherSlot : Nat)
    (m : Match) : Match :=
  if otherRound = round ∧ otherSlot = slot then { m with winner }
  else if otherRound = round + 1 ∧ otherSlot = slot / 2 then m.fed slot winner
  else m

theorem get_enter (bracket : Bracket) (round slot : Nat) (winner : Option EntrantId)
    (otherRound otherSlot : Nat) :
    (bracket.enter round slot winner).get otherRound otherSlot =
      (bracket.get otherRound otherSlot).map
        (entered round slot winner otherRound otherSlot) := by
  simp only [enter, feed, get_modify, Option.map_map]
  congr 1
  funext m
  by_cases here : otherRound = round ∧ otherSlot = slot
  · have not_next : ¬(otherRound = round + 1 ∧ otherSlot = slot / 2) := by omega
    simp only [entered, Function.comp_apply, if_pos here, if_neg not_next]
  · simp only [entered, Function.comp_apply, if_neg here]

theorem entered_self (round slot : Nat) (winner : Option EntrantId) (m : Match) :
    entered round slot winner round slot m = { m with winner } := by
  simp [entered]

theorem entered_next (round slot : Nat) (winner : Option EntrantId) (m : Match) :
    entered round slot winner (round + 1) (slot / 2) m = m.fed slot winner := by
  simp [entered]

theorem entered_of_ne {round slot : Nat} {winner : Option EntrantId} {otherRound otherSlot : Nat}
    {m : Match} (not_here : ¬(otherRound = round ∧ otherSlot = slot))
    (not_next : ¬(otherRound = round + 1 ∧ otherSlot = slot / 2)) :
    entered round slot winner otherRound otherSlot m = m := by
  simp [entered, not_here, not_next]

@[simp]
theorem entered_id (round slot : Nat) (winner : Option EntrantId) (otherRound otherSlot : Nat)
    (m : Match) : (entered round slot winner otherRound otherSlot m).id = m.id := by
  unfold entered
  split_ifs <;> simp

@[simp]
theorem entered_round (round slot : Nat) (winner : Option EntrantId) (otherRound otherSlot : Nat)
    (m : Match) : (entered round slot winner otherRound otherSlot m).round = m.round := by
  unfold entered
  split_ifs <;> simp

@[simp]
theorem entered_slot (round slot : Nat) (winner : Option EntrantId) (otherRound otherSlot : Nat)
    (m : Match) : (entered round slot winner otherRound otherSlot m).slot = m.slot := by
  unfold entered
  split_ifs <;> simp

/-- The whole rounds after `enter`: only the round itself and the next one are written. -/
theorem rounds_enter (bracket : Bracket) (round slot : Nat) (winner : Option EntrantId)
    (index : Nat) :
    (bracket.enter round slot winner).rounds[index]? =
      bracket.rounds[index]?.map fun slots =>
        if index = round then slots.modify slot fun m => { m with winner }
        else if index = round + 1 then slots.modify (slot / 2) (Match.fed slot winner)
        else slots := by
  simp only [enter, feed, modify, List.getElem?_modify]
  by_cases here : round = index
  · subst here
    simp
  · have other : ¬index = round := fun equality => here equality.symm
    by_cases next : round + 1 = index
    · subst next
      simp
    · have not_next : ¬index = round + 1 := fun equality => next equality.symm
      simp [here, other, next, not_next]

/-- Two brackets with as many rounds and the same matches at the same positions are one. -/
theorem ext_get {left right : Bracket} (lengths : left.rounds.length = right.rounds.length)
    (same : ∀ round slot, left.get round slot = right.get round slot) : left = right := by
  obtain ⟨leftRounds⟩ := left
  obtain ⟨rightRounds⟩ := right
  congr 1
  apply List.ext_getElem lengths
  intro round left_lt right_lt
  apply List.ext_getElem?
  intro slot
  simpa [get, left_lt, right_lt] using same round slot

/-- A write outside the bracket does nothing. -/
theorem modify_of_get_eq_none {bracket : Bracket} {round slot : Nat}
    (missing : bracket.get round slot = none) (write : Match → Match) :
    bracket.modify round slot write = bracket := by
  apply ext_get
  · simp [modify]
  · intro otherRound otherSlot
    rw [get_modify]
    cases found : bracket.get otherRound otherSlot with
    | none => rfl
    | some m =>
        rw [Option.map_some, if_neg]
        rintro ⟨rfl, rfl⟩
        simp [missing] at found

/-! ## Locating a match -/

theorem locate_ok {bracket : Bracket} {id : MatchId} {round slot : Nat}
    (located : bracket.locate id = .ok (round, slot)) :
    ∃ m, bracket.get round slot = some m ∧ m.id = id := by
  unfold locate at located
  split at located
  · rename_i position found
    obtain rfl : position = (round, slot) := by simpa using located
    obtain ⟨⟨slots, index⟩, member, position_eq⟩ := List.exists_of_findSome?_eq_some found
    obtain ⟨slot', slot_found, pair_eq⟩ := Option.map_eq_some_iff.mp position_eq
    obtain ⟨rfl, rfl⟩ : index = round ∧ slot' = slot := by simpa using pair_eq
    obtain ⟨slot_lt, id_eq, -⟩ := List.findIdx?_eq_some_iff_getElem.mp slot_found
    have slots_eq : bracket.rounds[index]? = some slots :=
      List.mem_zipIdx_iff_getElem?.mp member
    exact ⟨slots[slot'], by simp [get, slots_eq, slot_lt], by simpa using id_eq⟩
  · cases located

/-- A match that is in the bracket is found, though perhaps at the position of another match with
the same id. -/
theorem locate_isOk {bracket : Bracket} {round slot : Nat} {m : Match}
    (found : bracket.get round slot = some m) :
    ∃ position, bracket.locate m.id = .ok position := by
  unfold locate
  split
  · exact ⟨_, rfl⟩
  · rename_i nothing
    obtain ⟨slots, slots_eq, slot_eq⟩ := get_eq_some_iff.mp found
    have unseen := List.findSome?_eq_none_iff.mp nothing (slots, round)
      (List.mem_zipIdx_iff_getElem?.mpr slots_eq)
    have absent : slots.findIdx? (fun other => decide (other.id = m.id)) = none := by
      simpa using unseen
    have differs := List.findIdx?_eq_none_iff.mp absent m (List.mem_of_getElem? slot_eq)
    simp at differs

/-- No two positions hold matches with one id. -/
def DistinctIds (bracket : Bracket) : Prop := (bracket.flat.map Match.id).Nodup

instance (bracket : Bracket) : Decidable bracket.DistinctIds :=
  inferInstanceAs (Decidable (List.Nodup _))

theorem DistinctIds.position {bracket : Bracket} (distinct : bracket.DistinctIds)
    {round slot otherRound otherSlot : Nat} {m other : Match}
    (found : bracket.get round slot = some m)
    (other_found : bracket.get otherRound otherSlot = some other) (same : m.id = other.id) :
    round = otherRound ∧ slot = otherSlot := by
  obtain ⟨slots, slots_eq, slot_eq⟩ := get_eq_some_iff.mp found
  obtain ⟨otherSlots, otherSlots_eq, otherSlot_eq⟩ := get_eq_some_iff.mp other_found
  rw [DistinctIds, flat, List.map_flatten, List.nodup_flatten] at distinct
  obtain ⟨rounds_nodup, rounds_disjoint⟩ := distinct
  have id_mem : m.id ∈ slots.map Match.id := List.mem_map_of_mem (List.mem_of_getElem? slot_eq)
  have other_mem : m.id ∈ otherSlots.map Match.id := by
    rw [same]
    exact List.mem_map_of_mem (List.mem_of_getElem? otherSlot_eq)
  obtain rfl : round = otherRound := by
    by_contra rounds_ne
    have disjoint := (List.pairwise_iff_getElem.mp rounds_disjoint)
    obtain ⟨round_lt, round_val⟩ := List.getElem?_eq_some_iff.mp slots_eq
    obtain ⟨other_lt, other_val⟩ := List.getElem?_eq_some_iff.mp otherSlots_eq
    rcases Nat.lt_or_gt_of_ne rounds_ne with lt | gt
    · have apart := disjoint round otherRound (by simpa using round_lt) (by simpa using other_lt) lt
      simp only [List.getElem_map, round_val, other_val] at apart
      exact apart id_mem other_mem
    · have apart := disjoint otherRound round (by simpa using other_lt) (by simpa using round_lt) gt
      simp only [List.getElem_map, round_val, other_val] at apart
      exact apart other_mem id_mem
  obtain rfl : slots = otherSlots := Option.some.inj (slots_eq.symm.trans otherSlots_eq)
  refine ⟨rfl, ?_⟩
  have slots_nodup := rounds_nodup _ (List.mem_map_of_mem (List.mem_of_getElem? slots_eq))
  have slot_lt : slot < (slots.map Match.id).length := by
    rw [List.length_map]
    exact (List.getElem?_eq_some_iff.mp slot_eq).1
  apply (List.getElem?_inj slot_lt slots_nodup).mp
  simp [slot_eq, otherSlot_eq, same]

theorem DistinctIds.locate_eq {bracket : Bracket} (distinct : bracket.DistinctIds)
    {round slot : Nat} {m : Match} (found : bracket.get round slot = some m) :
    bracket.locate m.id = .ok (round, slot) := by
  obtain ⟨⟨otherRound, otherSlot⟩, located⟩ := locate_isOk found
  obtain ⟨other, other_found, id_eq⟩ := locate_ok located
  obtain ⟨rfl, rfl⟩ := distinct.position found other_found id_eq.symm
  exact located

/-- The match a result feeds is another match. -/
theorem DistinctIds.next_ne {bracket : Bracket} (distinct : bracket.DistinctIds)
    {round slot : Nat} {m next : Match} (found : bracket.get round slot = some m)
    (next_found : bracket.get (round + 1) (slot / 2) = some next) : next.id ≠ m.id := by
  intro same
  have positions := distinct.position next_found found same
  omega

/-! ## What a call checks -/

/-- The match this position feeds has no winner, or the position is the final. -/
def NextUndecided (bracket : Bracket) (round slot : Nat) : Prop :=
  ∀ next, bracket.get (round + 1) (slot / 2) = some next → next.winner = none

theorem guardNextUndecided_ok_iff {bracket : Bracket} {round slot : Nat} {id : MatchId} :
    bracket.guardNextUndecided round slot id = .ok () ↔ bracket.NextUndecided round slot := by
  unfold guardNextUndecided NextUndecided
  cases next : bracket.get (round + 1) (slot / 2) with
  | none => simp
  | some m =>
      cases winner : m.winner with
      | none => simp [winner]
      | some champion => simp [winner]

/-- A position where a result may be entered: both sides known, the next match undecided. -/
structure Enterable (bracket : Bracket) (round slot : Nat) (m : Match) : Prop where
  found : bracket.get round slot = some m
  ready : m.isReady
  next : bracket.NextUndecided round slot

/-- Every outcome of `report`: a refusal that leaves the bracket alone, or the entry of a side. -/
theorem report_cases (bracket : Bracket) (id : MatchId) (winner : EntrantId) :
    (∃ error, bracket.report id winner = (.error error, bracket)) ∨
      ∃ round slot m, bracket.locate id = .ok (round, slot) ∧ m.id = id ∧
        bracket.Enterable round slot m ∧
        (m.entrantA = some winner ∨ m.entrantB = some winner) ∧
        bracket.report id winner =
          (.ok ((bracket.enter round slot (some winner)).changed round slot),
            bracket.enter round slot (some winner)) := by
  cases located : bracket.locate id with
  | error error => exact Or.inl ⟨error, by simp [report, located]⟩
  | ok position =>
      obtain ⟨round, slot⟩ := position
      obtain ⟨m, found, id_eq⟩ := locate_ok located
      by_cases ready : m.isReady
      · by_cases side : m.entrantA ≠ some winner ∧ m.entrantB ≠ some winner
        · exact Or.inl ⟨.notAParticipant winner id, by simp [report, located, found, ready, side]⟩
        · cases guarded : bracket.guardNextUndecided round slot id with
          | error error =>
              exact Or.inl ⟨error, by simp [report, located, found, ready, side, guarded]⟩
          | ok _ =>
              have next := guardNextUndecided_ok_iff.mp guarded
              refine Or.inr ⟨round, slot, m, rfl, id_eq, ⟨found, ready, next⟩, ?_, ?_⟩
              · simpa [Classical.or_iff_not_imp_left] using side
              · simp [report, located, found, ready, side, guarded]
      · exact Or.inl ⟨.notReady id, by simp [report, located, found, ready]⟩

/-- Every outcome of `clear`: nothing happens to the bracket, or a result is taken back. -/
theorem clear_cases (bracket : Bracket) (id : MatchId) :
    (∃ error, bracket.clear id = (.error error, bracket)) ∨
      bracket.clear id = (.ok [], bracket) ∨
      ∃ round slot m, bracket.locate id = .ok (round, slot) ∧ m.id = id ∧
        bracket.Enterable round slot m ∧ m.winner.isSome ∧
        bracket.clear id =
          (.ok ((bracket.enter round slot none).changed round slot),
            bracket.enter round slot none) := by
  cases located : bracket.locate id with
  | error error => exact Or.inl ⟨error, by simp [clear, located]⟩
  | ok position =>
      obtain ⟨round, slot⟩ := position
      obtain ⟨m, found, id_eq⟩ := locate_ok located
      by_cases ready : m.isReady
      · cases winner : m.winner with
        | none => exact Or.inr (Or.inl (by simp [clear, located, found, ready, winner]))
        | some champion =>
            cases guarded : bracket.guardNextUndecided round slot id with
            | error error =>
                exact Or.inl ⟨error, by simp [clear, located, found, ready, winner, guarded]⟩
            | ok _ =>
                have next := guardNextUndecided_ok_iff.mp guarded
                refine Or.inr (Or.inr ⟨round, slot, m, rfl, id_eq, ⟨found, ready, next⟩, ?_, ?_⟩)
                · simp [winner]
                · simp [clear, located, found, ready, winner, guarded]
      · exact Or.inl ⟨.notReady id, by simp [clear, located, found, ready]⟩

theorem report_eq {bracket : Bracket} {round slot : Nat} {m : Match} {winner : EntrantId}
    (located : bracket.locate m.id = .ok (round, slot)) (enterable : bracket.Enterable round slot m)
    (side : m.entrantA = some winner ∨ m.entrantB = some winner) :
    bracket.report m.id winner =
      (.ok ((bracket.enter round slot (some winner)).changed round slot),
        bracket.enter round slot (some winner)) := by
  have not_stranger : ¬(m.entrantA ≠ some winner ∧ m.entrantB ≠ some winner) := by
    rintro ⟨not_a, not_b⟩
    exact side.elim not_a not_b
  have guarded : bracket.guardNextUndecided round slot m.id = .ok () :=
    guardNextUndecided_ok_iff.mpr enterable.next
  simp [report, located, enterable.found, enterable.ready, not_stranger, guarded]

end Bracket
end LanBunker
