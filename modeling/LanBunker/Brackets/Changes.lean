import LanBunker.Brackets.Rows

/-!
# What a result changes

A result writes one match and the side it feeds, and the changed matches are enough to follow it on
the stored rows.  Two results on one match leave the second, a result on an undecided match is
undone by clearing it, and results of matches that do not feed each other commute.
-/

namespace LanBunker
namespace Bracket

variable {bracket : Bracket} {round slot : Nat} {m : Match}

/-! ## Well-formed brackets -/

/-- A bracket whose rows group into the bracket again. -/
def WellFormed (bracket : Bracket) : Prop := fromMatches bracket.flat = .ok bracket

/-- Everything that is read back is well-formed. -/
theorem WellFormed.of_fromMatches {rows : List Match} (accepted : fromMatches rows = .ok bracket) :
    bracket.WellFormed := by
  obtain ⟨roundCount, positive, whole, rounds_eq⟩ := fromMatches_ok_iff.mp accepted
  exact whole.fromMatches_perm positive rounds_eq (whole.flat_perm rounds_eq)

/-- Everything that calls can make of a draw is well-formed. -/
theorem Drawn.wellFormed {seeded : List EntrantId} (drawn : Drawn seeded bracket) :
    bracket.WellFormed :=
  drawn.coherent.fromMatches_flat

theorem wellFormed_iff : bracket.WellFormed ↔
    1 ≤ bracket.rounds.length ∧ IsWhole bracket.rounds.length bracket.flat ∧
      ∀ round slot m, bracket.get round slot = some m → m.round = round + 1 ∧ m.slot = slot := by
  constructor
  · intro accepted
    obtain ⟨roundCount, positive, whole, rounds_eq⟩ := fromMatches_ok_iff.mp accepted
    have length_eq : bracket.rounds.length = roundCount := by rw [rounds_eq, roundsOf_length]
    rw [length_eq]
    exact ⟨positive, whole, fun round slot m found => ((whole.get_iff rounds_eq).mp found).2⟩
  · rintro ⟨positive, whole, placed⟩
    refine fromMatches_ok_iff.mpr ⟨_, positive, whole, ?_⟩
    have same : ∀ other : Bracket, other.rounds = roundsOf bracket.rounds.length bracket.flat →
        bracket = other := by
      intro other other_eq
      refine ext_get (by rw [other_eq, roundsOf_length]) fun round slot => ?_
      apply Option.ext
      intro m
      rw [whole.get_iff other_eq, mem_flat_iff]
      constructor
      · intro found
        exact ⟨⟨round, slot, found⟩, placed round slot m found⟩
      · rintro ⟨⟨atRound, atSlot, found⟩, round_eq, rfl⟩
        obtain ⟨at_round, rfl⟩ := placed atRound atSlot m found
        obtain rfl : atRound = round := by omega
        exact found
    exact congrArg rounds (same { rounds := roundsOf bracket.rounds.length bracket.flat } rfl)

namespace WellFormed

variable (whole : bracket.WellFormed)

include whole

theorem placed (found : bracket.get round slot = some m) : m.round = round + 1 ∧ m.slot = slot :=
  (wellFormed_iff.mp whole).2.2 round slot m found

/-- The rows of a well-formed bracket may be read in any order. -/
theorem fromMatches_perm {rows : List Match} (perm : rows.Perm bracket.flat) :
    fromMatches rows = .ok bracket := by
  obtain ⟨roundCount, positive, counted, rounds_eq⟩ := fromMatches_ok_iff.mp whole
  exact counted.fromMatches_perm positive rounds_eq perm

theorem enter (round slot : Nat) (winner : Option EntrantId) :
    (bracket.enter round slot winner).WellFormed := by
  obtain ⟨positive, counted, placed⟩ := wellFormed_iff.mp whole
  have same_places : (bracket.enter round slot winner).flat.map (fun m => (m.round, m.slot)) =
      bracket.flat.map fun m => (m.round, m.slot) :=
    flat_map_enter (fun _ _ => rfl) (fun m slot entrant => by simp) bracket round slot winner
  have same_count : ∀ atRound atSlot,
      ((bracket.enter round slot winner).flat.countP fun m =>
        m.round = atRound ∧ m.slot = atSlot) =
      bracket.flat.countP fun m => m.round = atRound ∧ m.slot = atSlot := by
    intro atRound atSlot
    have counts := congrArg
      (List.countP fun place : Nat × Nat => place.1 = atRound ∧ place.2 = atSlot) same_places
    rw [List.countP_map, List.countP_map] at counts
    exact counts
  refine wellFormed_iff.mpr ⟨?_, fun atRound atSlot => ?_, fun atRound atSlot m found => ?_⟩
  · rw [rounds_enter_length]
    exact positive
  · rw [same_count, rounds_enter_length]
    exact counted atRound atSlot
  · obtain ⟨before, before_found, rfl⟩ := get_enter_eq_some found
    simpa using placed atRound atSlot before before_found

end WellFormed

/-! ## The changed matches -/

/-- What a call that succeeds has changed, and where. -/
structure Changes (bracket : Bracket) (changed : List Match) (after : Bracket) : Prop where
  /-- Any other match is as it was. -/
  frame : ∀ round slot m, bracket.get round slot = some m → m.id ∉ changed.map Match.id →
    after.get round slot = some m
  /-- A changed match stands where the match of its id stood. -/
  placed : ∀ m ∈ changed, ∃ before, bracket.get (m.round - 1) m.slot = some before ∧
    before.id = m.id ∧ after.get (m.round - 1) m.slot = some m
  /-- No match is returned twice. -/
  ids : (changed.map Match.id).Nodup
  /-- The rows with the changed matches written over are the rows of the bracket left behind. -/
  flat : after.flat = changed.foldl overwrite bracket.flat
  wellFormed : after.WellFormed

theorem Changes.refl (whole : bracket.WellFormed) : bracket.Changes [] bracket where
  frame _ _ _ found _ := found
  placed _ member := by cases member
  ids := List.nodup_nil
  flat := rfl
  wellFormed := whole

theorem changes_enter (whole : bracket.WellFormed) (distinct : bracket.DistinctIds)
    (found : bracket.get round slot = some m) (winner : Option EntrantId) :
    bracket.Changes ((bracket.enter round slot winner).changed round slot)
      (bracket.enter round slot winner) where
  frame atRound atSlot other other_found unchanged := by
    rw [changed_enter found, List.map_cons, List.mem_cons, not_or] at unchanged
    obtain ⟨not_here, not_next⟩ := unchanged
    rw [get_enter, other_found, Option.map_some, entered_of_ne]
    · rintro ⟨rfl, rfl⟩
      obtain rfl : other = m := Option.some.inj (other_found.symm.trans found)
      exact not_here rfl
    · rintro ⟨rfl, rfl⟩
      rw [other_found] at not_next
      simp at not_next
  placed after member := by
    rw [changed, List.reduceOption_mem_iff, List.mem_cons, List.mem_singleton] at member
    have stands : ∃ atRound atSlot,
        (bracket.enter round slot winner).get atRound atSlot = some after := by
      rcases member with here | next
      · exact ⟨_, _, here.symm⟩
      · exact ⟨_, _, next.symm⟩
    obtain ⟨atRound, atSlot, after_found⟩ := stands
    obtain ⟨round_eq, rfl⟩ := (whole.enter round slot winner).placed after_found
    obtain ⟨before, before_found, after_eq⟩ := get_enter_eq_some after_found
    rw [round_eq, Nat.add_sub_cancel]
    exact ⟨before, before_found, by rw [after_eq, entered_id], after_found⟩
  ids := by
    rw [changed_enter found]
    cases next_found : bracket.get (round + 1) (slot / 2) with
    | none => simp
    | some next =>
        have other : m.id ≠ next.id := (distinct.next_ne found next_found).symm
        simpa using other
  flat := flat_enter distinct found winner
  wellFormed := whole.enter round slot winner

/-- Every call is refused and changes nothing, or returns what it changed. -/
theorem result_changes (whole : bracket.WellFormed) (distinct : bracket.DistinctIds)
    (call : Call) :
    (∃ error, bracket.result call = (.error error, bracket)) ∨
      ∃ changed after, bracket.result call = (.ok changed, after) ∧
        bracket.Changes changed after := by
  rcases result_cases bracket call with
    refused | nothing | ⟨round, slot, m, winner, -, enterable, -, entered⟩
  · exact Or.inl refused
  · exact Or.inr ⟨[], bracket, nothing, .refl whole⟩
  · exact Or.inr ⟨_, _, entered, changes_enter whole distinct enterable.found winner⟩

/-- The rows may be overwritten in any order they are stored in. -/
theorem foldl_overwrite_perm {rows others : List Match} (perm : rows.Perm others)
    (changed : List Match) : (changed.foldl overwrite rows).Perm (changed.foldl overwrite others) :=
  by
  induction changed generalizing rows others with
  | nil => exact perm
  | cons after changed ih => exact ih (perm.map _)

/-! ## Locating after a result -/

/-- A match is located by the ids alone. -/
private theorem locate_congr {left right : Bracket}
    (lengths : left.rounds.length = right.rounds.length)
    (same : ∀ round slot,
      (left.get round slot).map Match.id = (right.get round slot).map Match.id)
    (id : MatchId) : left.locate id = right.locate id := by
  have by_ids : ∀ bracket : Bracket, bracket.locate id =
      ((bracket.rounds.map (List.map Match.id)).zipIdx.findSome? fun entry =>
        (entry.1.findIdx? fun other => other = id).map fun slot => (entry.2, slot)).elim
          (.error (.unknownMatch id)) .ok := by
    intro bracket
    rw [List.zipIdx_map, List.findSome?_map]
    simp only [Function.comp_def, Prod.map_fst, Prod.map_snd, id_eq, List.findIdx?_map]
    rw [locate]
    split
    · rename_i position found
      rw [found]
      rfl
    · rename_i found
      rw [found]
      rfl
  have ids_eq : left.rounds.map (List.map Match.id) = right.rounds.map (List.map Match.id) := by
    apply List.ext_getElem
    · rw [List.length_map, List.length_map, lengths]
    intro round left_lt right_lt
    rw [List.length_map] at left_lt right_lt
    apply List.ext_getElem?
    intro slot
    simpa [get, left_lt, right_lt] using same round slot
  rw [by_ids, by_ids, ids_eq]

@[simp]
theorem locate_enter (bracket : Bracket) (round slot : Nat) (winner : Option EntrantId)
    (id : MatchId) : (bracket.enter round slot winner).locate id = bracket.locate id := by
  refine locate_congr (rounds_enter_length _ _ _ _) (fun otherRound otherSlot => ?_) id
  rw [get_enter, Option.map_map]
  congr 1
  funext m
  exact entered_id round slot winner otherRound otherSlot m

/-! ## Two results -/

/-- The later of two results on one match stands alone. -/
theorem enter_enter (bracket : Bracket) (round slot : Nat) (first second : Option EntrantId) :
    (bracket.enter round slot first).enter round slot second =
      bracket.enter round slot second := by
  refine ext_get (by simp) fun otherRound otherSlot => ?_
  rw [get_enter, get_enter, get_enter, Option.map_map]
  congr 1
  funext m
  simp only [Function.comp_apply, entered, Match.fed]
  split_ifs <;> rfl

/-- Matches at two positions where neither feeds the other. -/
structure Apart (round slot otherRound otherSlot : Nat) : Prop where
  other : ¬(otherRound = round ∧ otherSlot = slot)
  not_feeds : ¬(otherRound = round + 1 ∧ otherSlot = slot / 2)
  not_fed : ¬(round = otherRound + 1 ∧ slot = otherSlot / 2)

theorem Apart.symm {otherRound otherSlot : Nat} (apart : Apart round slot otherRound otherSlot) :
    Apart otherRound otherSlot round slot where
  other same := apart.other ⟨same.1.symm, same.2.symm⟩
  not_feeds := apart.not_fed
  not_fed := apart.not_feeds

/-- Siblings write the two sides of one match. -/
private theorem fed_fed {left right : Nat} (parity : left % 2 ≠ right % 2)
    (leftEntrant rightEntrant : Option EntrantId) (next : Match) :
    (next.fed left leftEntrant).fed right rightEntrant =
      (next.fed right rightEntrant).fed left leftEntrant := by
  rcases Nat.mod_two_eq_zero_or_one left with left_even | left_odd
  · have right_odd : right % 2 = 1 := by omega
    simp [Match.fed, left_even, right_odd]
  · have right_even : right % 2 = 0 := by omega
    simp [Match.fed, left_odd, right_even]

/-- Results of matches that do not feed each other commute. -/
theorem enter_comm {otherRound otherSlot : Nat} (apart : Apart round slot otherRound otherSlot)
    (bracket : Bracket) (winner otherWinner : Option EntrantId) :
    (bracket.enter round slot winner).enter otherRound otherSlot otherWinner =
      (bracket.enter otherRound otherSlot otherWinner).enter round slot winner := by
  refine ext_get (by simp) fun atRound atSlot => ?_
  rw [get_enter, get_enter, get_enter, get_enter, Option.map_map, Option.map_map]
  congr 1
  funext m
  obtain ⟨other, not_feeds, not_fed⟩ := apart
  simp only [Function.comp_apply]
  by_cases here : atRound = round ∧ atSlot = slot
  · obtain ⟨rfl, rfl⟩ := here
    have kept : ∀ m, entered otherRound otherSlot otherWinner atRound atSlot m = m := fun m =>
      entered_of_ne (fun same => other ⟨same.1.symm, same.2.symm⟩) not_fed
    rw [kept, kept]
  by_cases there : atRound = otherRound ∧ atSlot = otherSlot
  · obtain ⟨rfl, rfl⟩ := there
    have kept : ∀ m, entered round slot winner atRound atSlot m = m := fun m =>
      entered_of_ne other not_feeds
    rw [kept, kept]
  by_cases next : atRound = round + 1 ∧ atSlot = slot / 2
  · by_cases otherNext : atRound = otherRound + 1 ∧ atSlot = otherSlot / 2
    · -- Siblings: the rounds are one, and the slots are the two of one pair.
      have parity : slot % 2 ≠ otherSlot % 2 := by omega
      obtain ⟨rfl, rfl⟩ := next
      obtain ⟨round_eq, slot_eq⟩ := otherNext
      rw [round_eq, slot_eq, entered_next, ← slot_eq, ← round_eq, entered_next, entered_next,
        round_eq, slot_eq, entered_next]
      exact fed_fed parity winner otherWinner m
    · have kept : ∀ m, entered otherRound otherSlot otherWinner atRound atSlot m = m := fun m =>
        entered_of_ne there otherNext
      rw [kept, kept]
  · have kept : ∀ m, entered round slot winner atRound atSlot m = m := fun m =>
      entered_of_ne here next
    rw [kept, kept]

/-! ## Undoing a result -/

/-- Entering what a match and the side it feeds already hold changes nothing. -/
private theorem enter_same (found : bracket.get round slot = some m)
    (fed : ∀ next, bracket.get (round + 1) (slot / 2) = some next →
      next.fed slot m.winner = next) : bracket.enter round slot m.winner = bracket := by
  refine ext_get (by simp) fun otherRound otherSlot => ?_
  rw [get_enter]
  cases other_found : bracket.get otherRound otherSlot with
  | none => rfl
  | some other =>
      rw [Option.map_some, Option.some.injEq]
      by_cases here : otherRound = round ∧ otherSlot = slot
      · obtain ⟨rfl, rfl⟩ := here
        obtain rfl : other = m := Option.some.inj (other_found.symm.trans found)
        rw [entered_self]
      · by_cases next : otherRound = round + 1 ∧ otherSlot = slot / 2
        · obtain ⟨rfl, rfl⟩ := next
          rw [entered_next]
          exact fed other other_found
        · exact entered_of_ne here next

/-- In a coherent bracket the side a match feeds holds its winner. -/
theorem Coherent.fed_eq {seeded : List EntrantId} (coherent : Coherent seeded bracket)
    (found : bracket.get round slot = some m) {next : Match}
    (next_found : bracket.get (round + 1) (slot / 2) = some next) :
    next.fed slot m.winner = next := by
  obtain ⟨a, b, a_found, b_found, a_winner, b_winner⟩ := coherent.feeders next_found
  rcases Nat.mod_two_eq_zero_or_one slot with even | odd
  · have slot_eq : 2 * (slot / 2) = slot := by omega
    rw [slot_eq, found, Option.some.injEq] at a_found
    rw [Match.fed, if_pos even, a_found, ← a_winner]
  · have slot_eq : 2 * (slot / 2) + 1 = slot := by omega
    rw [slot_eq, found, Option.some.injEq] at b_found
    rw [Match.fed, if_neg (by omega), b_found, ← b_winner]

/-- Emptying an undecided match of a coherent bracket changes nothing. -/
theorem Coherent.enter_none {seeded : List EntrantId} (coherent : Coherent seeded bracket)
    (found : bracket.get round slot = some m) (undecided : m.winner = none) :
    bracket.enter round slot none = bracket := by
  rw [← undecided]
  exact enter_same found fun next next_found => coherent.fed_eq found next_found

/-! ## Calls after a result -/

section Calls

variable {id : MatchId}

/-- The match a result feeds has the winner it had. -/
private theorem guardNextUndecided_enter (bracket : Bracket) (round slot : Nat)
    (winner : Option EntrantId) (id : MatchId) :
    (bracket.enter round slot winner).guardNextUndecided round slot id =
      bracket.guardNextUndecided round slot id := by
  rw [guardNextUndecided, guardNextUndecided, get_enter]
  cases bracket.get (round + 1) (slot / 2) with
  | none => rfl
  | some next => rw [Option.map_some, entered_next]; simp only [Match.fed_winner]

/-- A second report is answered like the first: a result that was entered before is no reason to
refuse, and none to accept. -/
theorem report_enter (located : bracket.locate id = .ok (round, slot))
    (found : bracket.get round slot = some m) (winner : Option EntrantId) (side : EntrantId) :
    (∃ error, bracket.report id side = (.error error, bracket) ∧
        (bracket.enter round slot winner).report id side =
          (.error error, bracket.enter round slot winner)) ∨
      ∃ changed after, bracket.report id side = (.ok changed, after) ∧
        (bracket.enter round slot winner).report id side = (.ok changed, after) := by
  have written : (bracket.enter round slot winner).get round slot = some { m with winner } := by
    rw [get_enter, found, Option.map_some, entered_self]
  have same_ready : ({ m with winner } : Match).isReady = m.isReady := rfl
  simp only [report, locate_enter, located, written, found, same_ready, guardNextUndecided_enter,
    enter_enter]
  by_cases ready : m.isReady = false
  · simp [ready]
  rw [if_neg ready, if_neg ready]
  by_cases stranger : m.entrantA ≠ some side ∧ m.entrantB ≠ some side
  · rw [if_pos stranger, if_pos stranger]
    exact Or.inl ⟨_, rfl, rfl⟩
  rw [if_neg stranger, if_neg stranger]
  cases bracket.guardNextUndecided round slot id with
  | error error => exact Or.inl ⟨error, rfl, rfl⟩
  | ok _ => exact Or.inr ⟨_, _, rfl, rfl⟩

/-- A result that was just entered can be cleared. -/
theorem clear_enter (located : bracket.locate id = .ok (round, slot))
    (enterable : bracket.Enterable round slot m) (side : EntrantId) :
    ∃ changed, (bracket.enter round slot (some side)).clear id =
      (.ok changed, bracket.enter round slot none) := by
  have written : (bracket.enter round slot (some side)).get round slot =
      some { m with winner := some side } := by
    rw [get_enter, enterable.found, Option.map_some, entered_self]
  have ready : ({ m with winner := some side } : Match).isReady ≠ false := by
    have known := enterable.ready
    rw [Ne, Bool.not_eq_false]
    exact known
  have undecided : bracket.guardNextUndecided round slot id = .ok () :=
    guardNextUndecided_ok_iff.mpr enterable.next
  simp only [clear, locate_enter, located, written, guardNextUndecided_enter, undecided,
    enter_enter, if_neg ready]
  exact ⟨_, rfl⟩

/-- A match stays enterable when a result is entered elsewhere that it does not depend on. -/
private theorem Enterable.enter {otherRound otherSlot : Nat}
    (enterable : bracket.Enterable round slot m)
    (apart : Apart otherRound otherSlot round slot) (winner : Option EntrantId) :
    (bracket.enter otherRound otherSlot winner).Enterable round slot m where
  found := by
    rw [get_enter, enterable.found, Option.map_some,
      entered_of_ne apart.other apart.not_feeds]
  ready := enterable.ready
  next next found := by
    obtain ⟨before, before_found, rfl⟩ := get_enter_eq_some found
    have undecided := enterable.next before before_found
    by_cases here : round + 1 = otherRound ∧ slot / 2 = otherSlot
    · exact absurd ⟨here.1.symm, here.2.symm⟩ apart.not_fed
    · rw [entered, if_neg here]
      split_ifs
      · rw [Match.fed_winner, undecided]
      · exact undecided

/-- Two reports that both succeed, on matches that do not feed each other, succeed in both orders
and leave one bracket. -/
private theorem report_comm {first second : MatchId} {firstWinner secondWinner : EntrantId}
    {otherRound otherSlot : Nat} (located : bracket.locate first = .ok (round, slot))
    (other_located : bracket.locate second = .ok (otherRound, otherSlot))
    (apart : Apart round slot otherRound otherSlot) {changed otherChanged : List Match}
    {after otherAfter : Bracket}
    (reported : bracket.report first firstWinner = (.ok changed, after))
    (other_reported : bracket.report second secondWinner = (.ok otherChanged, otherAfter)) :
    ∃ firstChanged secondChanged both,
      after.report second secondWinner = (.ok secondChanged, both) ∧
        otherAfter.report first firstWinner = (.ok firstChanged, both) := by
  have entered : ∀ {id winner changed after round slot},
      bracket.locate id = .ok (round, slot) →
      bracket.report id winner = (.ok changed, after) →
      after = bracket.enter round slot (some winner) ∧ ∃ m, m.id = id ∧
        bracket.Enterable round slot m ∧
        (m.entrantA = some winner ∨ m.entrantB = some winner) := by
    intro id winner changed after round slot located reported
    rcases report_cases bracket id winner with
      ⟨error, refused⟩ | ⟨round', slot', m, located', id_eq, enterable, side, entered⟩
    · rw [refused] at reported
      cases reported
    · rw [located] at located'
      cases located'
      rw [entered] at reported
      cases reported
      exact ⟨rfl, m, id_eq, enterable, side⟩
  obtain ⟨rfl, m, rfl, enterable, side⟩ := entered located reported
  obtain ⟨rfl, other, rfl, other_enterable, other_side⟩ := entered other_located other_reported
  have second_after := report_eq ((locate_enter bracket round slot (some firstWinner) _).trans
    other_located) (other_enterable.enter apart _) other_side
  have first_after := report_eq ((locate_enter bracket otherRound otherSlot (some secondWinner)
    _).trans located) (enterable.enter apart.symm _) side
  rw [enter_comm apart] at second_after
  exact ⟨_, _, _, second_after, first_after⟩

end Calls

/-- What calls leave behind of a draw can be undone and commutes.  A result of an undecided match
is taken back by clearing it.  A second result of a match is answered like the first, and stands
alone when it is accepted.  Two results of matches that do not feed each other can be entered in
either order. -/
theorem report_undo_comm {draw : Nat → MatchId} {seeded : List EntrantId} {start : Bracket}
    (generated : generate draw seeded = .ok start) (calls : List Call) :
    let bracket := start.playAll calls
    (∀ id winner changed after, bracket.report id winner = (.ok changed, after) →
      (∀ round slot m, bracket.locate id = .ok (round, slot) →
        bracket.get round slot = some m → m.winner = none →
          ∃ cleared, after.clear id = (.ok cleared, bracket)) ∧
      ∀ second,
        (∀ error, (bracket.report id second).1 = .error error →
          after.report id second = (.error error, after)) ∧
        ∀ rechanged again, bracket.report id second = (.ok rechanged, again) →
          after.report id second = (.ok rechanged, again)) ∧
    ∀ first second round slot otherRound otherSlot, first ≠ second →
      bracket.locate first = .ok (round, slot) →
      bracket.locate second = .ok (otherRound, otherSlot) →
      ¬(otherRound = round + 1 ∧ otherSlot = slot / 2) →
      ¬(round = otherRound + 1 ∧ slot = otherSlot / 2) →
      ∀ firstWinner secondWinner changed otherChanged after otherAfter,
        bracket.report first firstWinner = (.ok changed, after) →
        bracket.report second secondWinner = (.ok otherChanged, otherAfter) →
        ∃ firstChanged secondChanged both,
          after.report second secondWinner = (.ok secondChanged, both) ∧
            otherAfter.report first firstWinner = (.ok firstChanged, both) := by
  intro bracket
  have coherent : Coherent seeded bracket := (coherent_generate generated).playAll calls
  refine ⟨fun id winner changed after reported => ?_, ?_⟩
  · rcases report_cases bracket id winner with
      ⟨error, refused⟩ | ⟨round, slot, m, located, -, enterable, -, entered⟩
    · rw [refused] at reported
      cases reported
    rw [entered] at reported
    cases reported
    constructor
    · intro round' slot' other located' found undecided
      rw [located] at located'
      cases located'
      obtain ⟨cleared, cleared_eq⟩ := clear_enter located enterable winner
      rw [coherent.enter_none found undecided] at cleared_eq
      exact ⟨cleared, cleared_eq⟩
    · intro second
      rcases report_enter located enterable.found (some winner) second with
        ⟨error, refused, refused_after⟩ | ⟨rechanged, again, accepted, accepted_after⟩
      · refine ⟨fun other other_eq => ?_, fun rechanged again accepted => ?_⟩
        · rw [refused] at other_eq
          cases other_eq
          exact refused_after
        · rw [refused] at accepted
          cases accepted
      · refine ⟨fun other other_eq => ?_, fun rechanged' again' accepted' => ?_⟩
        · rw [accepted] at other_eq
          cases other_eq
        · rw [accepted] at accepted'
          cases accepted'
          exact accepted_after
  · intro first second round slot otherRound otherSlot differ located other_located not_feeds
      not_fed firstWinner secondWinner changed otherChanged after otherAfter reported
      other_reported
    refine report_comm located other_located ⟨?_, not_feeds, not_fed⟩ reported other_reported
    -- One position holds one match, so two ids are two positions.
    rintro ⟨rfl, rfl⟩
    obtain ⟨m, found, rfl⟩ := locate_ok located
    obtain ⟨other, other_found, rfl⟩ := locate_ok other_located
    exact differ (congrArg Match.id (Option.some.inj (found.symm.trans other_found)))

/-- A field of four: the first result is undone, and the two semifinals commute. -/
theorem report_undo_comm_four :
    ∃ start, generate (fun index => ⟨index⟩) [⟨10⟩, ⟨11⟩, ⟨12⟩, ⟨13⟩] = .ok start ∧
      (∃ cleared, (start.report ⟨0⟩ ⟨10⟩).2.clear ⟨0⟩ = (.ok cleared, start)) ∧
      ∃ firstChanged secondChanged both,
        (start.report ⟨0⟩ ⟨10⟩).2.report ⟨1⟩ ⟨13⟩ = (.ok secondChanged, both) ∧
          (start.report ⟨1⟩ ⟨13⟩).2.report ⟨0⟩ ⟨10⟩ = (.ok firstChanged, both) := by
  have generated : generate (fun index => ⟨index⟩) [⟨10⟩, ⟨11⟩, ⟨12⟩, ⟨13⟩] = .ok { rounds :=
      [[⟨⟨0⟩, 1, 0, some ⟨10⟩, some ⟨11⟩, none⟩, ⟨⟨1⟩, 1, 1, some ⟨12⟩, some ⟨13⟩, none⟩],
        [⟨⟨2⟩, 2, 0, none, none, none⟩]] } := by
    decide
  obtain ⟨undone, commute⟩ := report_undo_comm generated []
  refine ⟨_, generated, ?_, ?_⟩
  · exact (undone ⟨0⟩ ⟨10⟩ _ _ rfl).1 0 0 _ rfl rfl rfl
  · exact commute ⟨0⟩ ⟨1⟩ 0 0 0 1 (by decide) rfl rfl (by decide) (by decide) ⟨10⟩ ⟨13⟩ _ _ _ _ rfl
      rfl

end Bracket
end LanBunker
