import LanBunker.Brackets.Representation
import LanBunker.Models.Points

/-!
# Playing a bracket out

A bracket without a champion always has a match to play, every result of such a match is one more
loser, and the losers and the champion are the whole field.  So a field of `n` entrants is played
out after exactly `n - 1` results, in whatever order they come.
-/

namespace LanBunker

open Knockout

@[simp]
theorem Match.pairing_loser (m : Match) : m.pairing.loser = m.loser := by
  obtain ⟨id, round, slot, a, b, winner⟩ := m
  cases a <;> cases b <;> cases winner <;> rfl

theorem Match.isPlayed_of_loser {m : Match} {loser : EntrantId} (lost : m.loser = some loser) :
    m.isPlayed := by
  obtain ⟨id, round, slot, a, b, winner⟩ := m
  cases a <;> cases b <;> cases winner <;>
    simp [Match.loser, loserOf, Match.isPlayed, Match.isReady] at lost ⊢

theorem losers_pairings (slots : List Match) :
    Knockout.losers (pairings slots) = slots.filterMap Match.loser := by
  simp [Knockout.losers, pairings, List.filterMap_map]

/-- Only played matches have losers. -/
theorem filter_played_loser (slots : List Match) :
    (slots.filter Match.isPlayed).filterMap Match.loser = slots.filterMap Match.loser := by
  rw [List.filterMap_filter]
  refine List.filterMap_congr fun m _ => ?_
  cases lost : m.loser with
  | none => simp
  | some loser => rw [if_pos (Match.isPlayed_of_loser lost)]

namespace Bracket

/-! ## The final -/

section Final

variable {seeded : List EntrantId} {bracket : Bracket}

/-- The last round is the final alone, and its winner is the champion. -/
theorem Coherent.final_eq (coherent : Coherent seeded bracket) :
    ∃ last final, bracket.rounds.length = last + 1 ∧ bracket.rounds.getLast? = some [final] ∧
      bracket.get last 0 = some final ∧ bracket.finalMatch = some final ∧
      bracket.champion = final.winner := by
  have single := coherent.final
  obtain ⟨slots, slots_eq, length_eq⟩ := Option.map_eq_some_iff.mp single
  obtain ⟨final, rfl⟩ := List.length_eq_one_iff.mp length_eq
  have nonempty : bracket.rounds ≠ [] := by
    intro empty
    simp [empty] at slots_eq
  obtain ⟨last, last_eq⟩ := Nat.exists_eq_succ_of_ne_zero
    (fun zero => nonempty (List.length_eq_zero_iff.mp zero))
  refine ⟨last, final, last_eq, slots_eq, ?_, ?_, ?_⟩
  · rw [List.getLast?_eq_getElem?, last_eq, Nat.succ_eq_add_one, Nat.add_sub_cancel] at slots_eq
    exact get_eq_some_iff.mpr ⟨_, slots_eq, rfl⟩
  · simp [finalMatch, slots_eq]
  · simp [champion, slots_eq]

/-- Once the final is decided, so is every match. -/
theorem Coherent.decided (coherent : Coherent seeded bracket) {champion : EntrantId}
    (crowned : bracket.champion = some champion) : ∀ m ∈ bracket.flat, m.winner.isSome := by
  obtain ⟨first, rest, rounds_eq, -⟩ := coherent.rounds_eq
  obtain ⟨last, final, last_eq, final_eq, final_found, -, champion_eq⟩ := coherent.final_eq
  have knockout_eq : bracket.knockout = pairings first :: rest.map pairings := by
    simp [knockout, rounds_eq]
  have knockout_last : bracket.knockout.getLast? = some (pairings [final]) := by
    rw [knockout, List.getLast?_map, final_eq, Option.map_some]
  have feeds := coherent.isKnockout.feeds
  rw [knockout_eq] at feeds knockout_last
  rw [List.getLast?_eq_some_getLast (by simp), Option.some.injEq] at knockout_last
  have decided := decided_of_last feeds ?_ ?_
  · intro m member
    obtain ⟨slots, slots_mem, m_mem⟩ := List.mem_flatten.mp member
    refine decided (pairings slots) ?_ m.pairing (List.mem_map_of_mem m_mem)
    rw [← knockout_eq]
    exact List.mem_map_of_mem slots_mem
  · intro round member pairing pairing_mem known
    obtain ⟨slots, slots_mem, rfl⟩ := List.mem_map.mp member
    obtain ⟨m, m_mem, rfl⟩ := List.mem_map.mp pairing_mem
    obtain ⟨index, index_eq⟩ := List.getElem?_of_mem slots_mem
    obtain ⟨slot, slot_eq⟩ := List.getElem?_of_mem m_mem
    have found : bracket.get (index + 1) slot = some m :=
      get_eq_some_iff.mpr ⟨slots, by rw [rounds_eq, List.getElem?_cons_succ, index_eq], slot_eq⟩
    have ready := coherent.ready index slot m found known
    rwa [Match.isReady, Bool.and_eq_true] at ready
  · intro pairing member
    rw [knockout_last, pairings, List.map_singleton, List.mem_singleton] at member
    subst member
    rw [Match.pairing_winner, ← champion_eq, crowned]
    rfl

end Final

/-! ## The next match to play -/

/-- A match that can be played now, with one of its sides. -/
def Playable (bracket : Bracket) (id : MatchId) (winner : EntrantId) : Prop :=
  ∃ round slot m, bracket.Enterable round slot m ∧ m.id = id ∧ m.winner = none ∧
    (m.entrantA = some winner ∨ m.entrantB = some winner)

section Playable

variable {seeded : List EntrantId} {bracket : Bracket}

private theorem exists_round_min (bracket : Bracket) {round slot : Nat} {m : Match}
    (found : bracket.get round slot = some m) (undecided : m.winner = none) :
    ∃ round slot m, bracket.get round slot = some m ∧ m.winner = none ∧
      ∀ earlier < round, ∀ slot m, bracket.get earlier slot = some m → m.winner.isSome := by
  induction round using Nat.strong_induction_on generalizing slot m with
  | _ round ih =>
      rcases Classical.em (∀ earlier < round, ∀ slot m, bracket.get earlier slot = some m →
        m.winner.isSome) with all_decided | not_all
      · exact ⟨round, slot, m, found, undecided, all_decided⟩
      · push Not at not_all
        obtain ⟨earlier, earlier_lt, slot', m', found', open'⟩ := not_all
        exact ih earlier earlier_lt found' (by simpa using open')

/-- A match of the earliest round that is not decided has both sides, and what it feeds is not
decided either. -/
private theorem Coherent.enterable_of_round_min (coherent : Coherent seeded bracket)
    {round slot : Nat} {m : Match} (found : bracket.get round slot = some m)
    (undecided : m.winner = none) (earlier_decided : ∀ earlier < round, ∀ slot m,
      bracket.get earlier slot = some m → m.winner.isSome) :
    bracket.Enterable round slot m := by
  refine ⟨found, ?_, ?_⟩
  · cases round with
    | zero =>
        obtain ⟨side, alone⟩ := coherent.byes slot m found
        have other : m.entrantB ≠ none := by
          intro empty
          rw [alone empty] at undecided
          simp [undecided] at side
        simp [Match.isReady, side, Option.isSome_iff_ne_none, other]
    | succ round =>
        obtain ⟨a, b, a_found, b_found, a_winner, b_winner⟩ := coherent.feeders found
        have a_decided := earlier_decided round (Nat.lt_succ_self round) _ a a_found
        have b_decided := earlier_decided round (Nat.lt_succ_self round) _ b b_found
        simp [Match.isReady, a_winner, b_winner, a_decided, b_decided]
  · intro next next_found
    by_contra decided
    obtain ⟨-, a, b, a_found, b_found, a_decided, b_decided⟩ :=
      coherent.feeders_decided next_found (Option.isSome_iff_ne_none.mpr decided)
    have parity : slot = 2 * (slot / 2) ∨ slot = 2 * (slot / 2) + 1 := by omega
    rcases parity with even | odd
    · rw [← even, found, Option.some.injEq] at a_found
      rw [← a_found, undecided] at a_decided
      cases a_decided
    · rw [← odd, found, Option.some.injEq] at b_found
      rw [← b_found, undecided] at b_decided
      cases b_decided

/-- Without a champion there is a match to play. -/
theorem Coherent.exists_enterable (coherent : Coherent seeded bracket)
    (uncrowned : bracket.champion = none) :
    ∃ round slot m, bracket.Enterable round slot m ∧ m.winner = none := by
  obtain ⟨last, final, -, -, final_found, -, champion_eq⟩ := coherent.final_eq
  rw [uncrowned] at champion_eq
  obtain ⟨round, slot, m, found, undecided, earlier⟩ :=
    exists_round_min bracket final_found champion_eq.symm
  exact ⟨round, slot, m, coherent.enterable_of_round_min found undecided earlier, undecided⟩

/-- A side of a ready match. -/
theorem Enterable.exists_side {round slot : Nat} {m : Match}
    (enterable : bracket.Enterable round slot m) : ∃ winner, m.entrantA = some winner := by
  have ready := enterable.ready
  rw [Match.isReady, Bool.and_eq_true] at ready
  exact Option.isSome_iff_exists.mp ready.1

end Playable

/-! ## Counting results -/

/-- How many matches were played. -/
def playedCount (bracket : Bracket) : Nat := bracket.flat.countP Match.isPlayed

section Count

private theorem countP_modify {α : Type*} (counted : α → Bool) (write : α → α) {items : List α}
    {index : Nat} {item : α} (found : items[index]? = some item) :
    (items.modify index write).countP counted + (counted item).toNat =
      items.countP counted + (counted (write item)).toNat := by
  induction items generalizing index with
  | nil => simp at found
  | cons head items ih =>
      cases index with
      | zero =>
          rw [List.getElem?_cons_zero, Option.some.injEq] at found
          subst found
          simp only [List.modify_zero_cons, List.countP_cons]
          cases counted head <;> cases counted (write head) <;> simp
      | succ index =>
          rw [List.getElem?_cons_succ] at found
          have rest := ih found
          simp only [List.modify_succ_cons, List.countP_cons]
          omega

private theorem countP_flatten_modify {α : Type*} (counted : α → Bool) (write : α → α)
    {rounds : List (List α)} {round slot : Nat} {slots : List α} {item : α}
    (slots_eq : rounds[round]? = some slots) (found : slots[slot]? = some item) :
    (rounds.modify round fun slots => slots.modify slot write).flatten.countP counted +
        (counted item).toNat =
      rounds.flatten.countP counted + (counted (write item)).toNat := by
  induction rounds generalizing round with
  | nil => simp at slots_eq
  | cons head rounds ih =>
      cases round with
      | zero =>
          rw [List.getElem?_cons_zero, Option.some.injEq] at slots_eq
          subst slots_eq
          have row := countP_modify counted write found
          simp only [List.modify_zero_cons, List.flatten_cons, List.countP_append]
          omega
      | succ round =>
          rw [List.getElem?_cons_succ] at slots_eq
          have rest := ih slots_eq
          simp only [List.modify_succ_cons, List.flatten_cons, List.countP_append]
          omega

theorem playedCount_modify {bracket : Bracket} {round slot : Nat} {m : Match}
    (found : bracket.get round slot = some m) (write : Match → Match) :
    (bracket.modify round slot write).playedCount + m.isPlayed.toNat =
      bracket.playedCount + (write m).isPlayed.toNat := by
  obtain ⟨slots, slots_eq, m_found⟩ := get_eq_some_iff.mp found
  exact countP_flatten_modify Match.isPlayed write slots_eq m_found

/-- The result of a match that can be played is one more played match. -/
theorem playedCount_enter {bracket : Bracket} {round slot : Nat} {m : Match} {winner : EntrantId}
    (enterable : bracket.Enterable round slot m) (undecided : m.winner = none) :
    (bracket.enter round slot (some winner)).playedCount = bracket.playedCount + 1 := by
  have here := playedCount_modify enterable.found fun m => { m with winner := some winner }
  have was_open : m.isPlayed = false := by simp [Match.isPlayed, undecided]
  have is_played : Match.isPlayed { m with winner := some winner } = true := by
    simpa [Match.isPlayed, Match.isReady] using enterable.ready
  rw [was_open, is_played] at here
  rw [enter, feed]
  generalize entered_eq : bracket.modify round slot (fun m => { m with winner := some winner }) =
    after at here
  have next_eq : after.get (round + 1) (slot / 2) = bracket.get (round + 1) (slot / 2) := by
    rw [← entered_eq, get_modify]
    cases bracket.get (round + 1) (slot / 2) with
    | none => rfl
    | some next => simp
  cases next_found : bracket.get (round + 1) (slot / 2) with
  | none =>
      rw [modify_of_get_eq_none (next_eq.trans next_found)]
      simpa using here
  | some next =>
      have next_open := enterable.next next next_found
      have fed := playedCount_modify (next_eq.trans next_found) (Match.fed slot (some winner))
      have before : next.isPlayed = false := by simp [Match.isPlayed, next_open]
      have still : (next.fed slot (some winner)).isPlayed = false := by
        simp [Match.isPlayed, next_open]
      rw [before, still] at fed
      simp only [Bool.toNat_false, Bool.toNat_true, Nat.add_zero] at fed here
      omega

end Count

/-! ## Losers -/

section Losers

variable {seeded : List EntrantId} {bracket : Bracket}

/-- The losers of the played matches, in order. -/
def losers (bracket : Bracket) : List EntrantId := bracket.flat.filterMap Match.loser

theorem losers_eq (bracket : Bracket) :
    bracket.losers = bracket.knockout.flatMap Knockout.losers := by
  simp only [losers, flat, knockout, List.flatMap_map]
  induction bracket.rounds with
  | nil => rfl
  | cons slots rounds ih =>
      rw [List.flatten_cons, List.filterMap_append, List.flatMap_cons, ih]
      simp [Knockout.losers, pairings, List.filterMap_map]

theorem Coherent.losers_length (coherent : Coherent seeded bracket) :
    bracket.losers.length = bracket.playedCount := by
  have flattened : bracket.knockout.flatten = bracket.flat.map Match.pairing := by
    rw [flat, List.map_flatten]
    rfl
  rw [losers_eq, coherent.isKnockout.losers_length, flattened, List.countP_map]
  rfl

/-- With a champion, the losers and the champion are the whole field. -/
theorem Coherent.losers_perm (coherent : Coherent seeded bracket) {champion : EntrantId}
    (crowned : bracket.champion = some champion) :
    (bracket.losers ++ [champion]).Perm seeded := by
  obtain ⟨first, rest, rounds_eq, seats⟩ := coherent.rounds_eq
  obtain ⟨last, final, -, final_eq, -, -, champion_eq⟩ := coherent.final_eq
  have knockout_eq : bracket.knockout = pairings first :: rest.map pairings := by
    simp [knockout, rounds_eq]
  have knockout_last : bracket.knockout.getLast? = some (pairings [final]) := by
    rw [knockout, List.getLast?_map, final_eq, Option.map_some]
  have knockout := coherent.isKnockout
  have every_decided : ∀ round ∈ bracket.knockout, ∀ pairing ∈ round, pairing.winner.isSome := by
    intro round member pairing pairing_mem
    obtain ⟨slots, slots_mem, rfl⟩ := List.mem_map.mp member
    obtain ⟨m, m_mem, rfl⟩ := List.mem_map.mp pairing_mem
    exact coherent.decided crowned m (List.mem_flatten.mpr ⟨slots, slots_mem, m_mem⟩)
  rw [losers_eq]
  rw [knockout_eq] at knockout knockout_last every_decided ⊢
  rw [List.getLast?_eq_some_getLast (by simp), Option.some.injEq] at knockout_last
  have split := knockout.losers_perm every_decided
  rw [knockout_last, seats] at split
  simpa [winners, pairings, ← champion_eq, crowned] using split

/-- A champion stands after exactly one result less than there are entrants. -/
theorem Coherent.playedCount_of_champion (coherent : Coherent seeded bracket)
    {champion : EntrantId} (crowned : bracket.champion = some champion) :
    bracket.playedCount + 1 = seeded.length := by
  rw [← coherent.losers_length, ← (coherent.losers_perm crowned).length_eq, List.length_append,
    List.length_singleton]

theorem Coherent.playedCount_le (coherent : Coherent seeded bracket) :
    bracket.playedCount ≤ seeded.length := by
  obtain ⟨first, rest, rounds_eq, seats⟩ := coherent.rounds_eq
  have knockout := coherent.isKnockout
  rw [← coherent.losers_length, losers_eq, Bracket.knockout, rounds_eq, List.map_cons]
  rw [Bracket.knockout, rounds_eq, List.map_cons] at knockout
  have bound := knockout.losers_subperm.length_le
  rw [seats, List.length_append] at bound
  omega

/-- Without a champion there are results to come. -/
theorem Coherent.playedCount_lt (coherent : Coherent seeded bracket)
    (uncrowned : bracket.champion = none) : bracket.playedCount + 1 < seeded.length := by
  induction left : seeded.length - bracket.playedCount generalizing bracket with
  | zero =>
      obtain ⟨round, slot, m, enterable, undecided⟩ := coherent.exists_enterable uncrowned
      obtain ⟨winner, side⟩ := enterable.exists_side
      have after := coherent.enter enterable fun entrant known =>
        Or.inl (side.trans known)
      have bound := after.playedCount_le
      rw [playedCount_enter enterable undecided] at bound
      omega
  | succ left ih =>
      obtain ⟨round, slot, m, enterable, undecided⟩ := coherent.exists_enterable uncrowned
      obtain ⟨winner, side⟩ := enterable.exists_side
      have after := coherent.enter enterable fun entrant known =>
        Or.inl (side.trans known)
      have count : (bracket.enter round slot (some winner)).playedCount =
          bracket.playedCount + 1 := playedCount_enter enterable undecided
      cases crowned : (bracket.enter round slot (some winner)).champion with
      | none =>
          have rest := ih after crowned (by omega)
          omega
      | some champion =>
          have all := after.playedCount_of_champion crowned
          omega

/-- With a champion, every match that was not played is a bye of round one. -/
theorem Coherent.bye_of_unplayed (coherent : Coherent seeded bracket) {champion : EntrantId}
    (crowned : bracket.champion = some champion) {m : Match} (member : m ∈ bracket.flat)
    (unplayed : m.isPlayed = false) :
    m.round = 1 ∧ m.entrantB = none ∧ m.entrantA.isSome ∧ m.winner = m.entrantA := by
  have decided := coherent.decided crowned m member
  have not_ready : m.isReady = false := by simpa [Match.isPlayed, decided] using unplayed
  obtain ⟨round, slot, found⟩ := mem_flat_iff.mp member
  cases round with
  | zero =>
      obtain ⟨side, alone⟩ := coherent.byes slot m found
      have empty : m.entrantB = none := by simpa [Match.isReady, side] using not_ready
      exact ⟨(coherent.placed 0 slot m found).1, empty, side, alone empty⟩
  | succ round =>
      rw [coherent.ready round slot m found decided] at not_ready
      cases not_ready

private theorem countP_loser (matches' : List Match) (entrant : EntrantId) :
    (matches'.filter Match.isPlayed).countP (fun m => m.loser = some entrant) =
      (matches'.filterMap Match.loser).count entrant := by
  induction matches' with
  | nil => rfl
  | cons m rest ih =>
      cases lost : m.loser with
      | none =>
          rw [List.filterMap_cons_none lost, ← ih, List.filter_cons]
          split_ifs
          · simp [lost]
          · rfl
      | some loser =>
          have played := Match.isPlayed_of_loser lost
          rw [List.filterMap_cons_some lost, List.filter_cons, if_pos played, List.countP_cons, ih,
            List.count_cons]
          simp [lost]

/-- With a champion, every other entrant lost exactly one played match and the champion none. -/
theorem Coherent.lost_count (coherent : Coherent seeded bracket) (distinct : seeded.Nodup)
    {champion : EntrantId} (crowned : bracket.champion = some champion) {entrant : EntrantId}
    (entered : entrant ∈ seeded) :
    (bracket.flat.filter Match.isPlayed).countP (fun m => m.loser = some entrant) =
      if entrant = champion then 0 else 1 := by
  have whole := (coherent.losers_perm crowned).count_eq entrant
  rw [List.count_eq_one_of_mem distinct entered, List.count_append, List.count_singleton] at whole
  rw [countP_loser]
  change bracket.losers.count entrant = _
  split_ifs with is_champion
  · subst is_champion
    simpa using whole
  · have other : ¬champion = entrant := fun equality => is_champion equality.symm
    simpa [other] using whole

end Losers

/-! ## Whole tournaments -/

section Playout

variable {seeded : List EntrantId} {bracket : Bracket}

/-- Reports, each on a match that can be played then, in any order and with any winners. -/
inductive PlaysTo : Bracket → List (MatchId × EntrantId) → Bracket → Prop where
  | nil (bracket : Bracket) : PlaysTo bracket [] bracket
  | cons {bracket after : Bracket} {id : MatchId} {winner : EntrantId}
      {reports : List (MatchId × EntrantId)} (playable : bracket.Playable id winner)
      (rest : PlaysTo (bracket.report id winner).2 reports after) :
      PlaysTo bracket ((id, winner) :: reports) after

/-- A report on a match that can be played is accepted. -/
theorem Playable.report (ids : bracket.DistinctIds) {id : MatchId} {winner : EntrantId}
    (playable : bracket.Playable id winner) :
    ∃ round slot m changed, bracket.Enterable round slot m ∧ m.winner = none ∧
      (m.entrantA = some winner ∨ m.entrantB = some winner) ∧
      bracket.report id winner = (.ok changed, bracket.enter round slot (some winner)) := by
  obtain ⟨round, slot, m, enterable, rfl, undecided, side⟩ := playable
  exact ⟨round, slot, m, _, enterable, undecided, side,
    report_eq (ids.locate_eq enterable.found) enterable side⟩

/-- Every report of a playout is one more played match. -/
theorem PlaysTo.playedCount {reports : List (MatchId × EntrantId)} {after : Bracket}
    (plays : PlaysTo bracket reports after) (coherent : Coherent seeded bracket)
    (ids : bracket.DistinctIds) :
    Coherent seeded after ∧ after.playedCount = bracket.playedCount + reports.length := by
  induction plays with
  | nil bracket => exact ⟨coherent, rfl⟩
  | @cons bracket after id winner reports playable rest ih =>
      obtain ⟨round, slot, m, changed, enterable, undecided, side, accepted⟩ := playable.report ids
      have next_ids := ids.play (.report id winner)
      obtain ⟨after_coherent, count⟩ := ih (coherent.report id winner) next_ids
      refine ⟨after_coherent, ?_⟩
      rw [count, accepted, playedCount_enter enterable undecided, List.length_cons]
      omega

/-- Single elimination: from the draw of a field, as long as there is no champion some match can
be played and takes either side as its winner; playing such matches in any order crowns a champion
after exactly one result less than the field has entrants; and a champion means that every match
is decided, that exactly so many matches were played, that the others are byes of round one, and
that everybody but the champion lost exactly once. -/
theorem single_elimination (draw : Nat → MatchId) (seeded : List EntrantId)
    (distinct : seeded.Nodup) (two_le : 2 ≤ seeded.length) (fits : seeded.length ≤ maxEntrants) :
    ∃ drawn, generate draw seeded = .ok drawn ∧ (drawn.DistinctIds →
      (∀ calls, (drawn.playAll calls).champion = none →
        ∃ round slot m, (drawn.playAll calls).Enterable round slot m ∧ m.winner = none ∧
          ∀ side, m.entrantA = some side ∨ m.entrantB = some side →
            ∃ changed after, (drawn.playAll calls).report m.id side = (.ok changed, after)) ∧
      (∀ reports after, PlaysTo drawn reports after →
        reports.length ≤ seeded.length - 1 ∧
          (after.champion.isSome ↔ reports.length = seeded.length - 1)) ∧
      ∀ calls champion, (drawn.playAll calls).champion = some champion →
        (∀ m ∈ (drawn.playAll calls).flat, m.winner.isSome) ∧
        ((drawn.playAll calls).flat.countP Match.isPlayed = seeded.length - 1) ∧
        (∀ m ∈ (drawn.playAll calls).flat, m.isPlayed = false →
          m.round = 1 ∧ m.entrantB = none ∧ m.entrantA.isSome ∧ m.winner = m.entrantA) ∧
        ∀ entrant ∈ seeded, ((drawn.playAll calls).flat.filter Match.isPlayed).countP
          (fun m => m.loser = some entrant) = if entrant = champion then 0 else 1) := by
  obtain ⟨drawn, generated⟩ := generate_isOk draw two_le fits
  have drawn_coherent := coherent_generate generated
  refine ⟨drawn, generated, fun ids => ⟨?_, ?_, ?_⟩⟩
  · intro calls uncrowned
    obtain ⟨round, slot, m, enterable, undecided⟩ :=
      (drawn_coherent.playAll calls).exists_enterable uncrowned
    refine ⟨round, slot, m, enterable, undecided, fun side stands => ?_⟩
    exact ⟨_, _, report_eq ((ids.playAll calls).locate_eq enterable.found) enterable stands⟩
  · intro reports after plays
    obtain ⟨coherent, count⟩ := plays.playedCount drawn_coherent ids
    have unplayed : drawn.playedCount = 0 := by
      rw [playedCount, List.countP_eq_zero]
      intro m member
      simp [generate_unplayed generated m member]
    cases crowned : after.champion with
    | none =>
        have more := coherent.playedCount_lt crowned
        refine ⟨by omega, by simp, fun length_eq => ?_⟩
        omega
    | some champion =>
        have all := coherent.playedCount_of_champion crowned
        exact ⟨by omega, fun _ => by omega, fun _ => rfl⟩
  · intro calls champion crowned
    have coherent := drawn_coherent.playAll calls
    have count := coherent.playedCount_of_champion crowned
    refine ⟨coherent.decided crowned, ?_, ?_, ?_⟩
    · rw [playedCount] at count
      omega
    · intro m member unplayed
      exact coherent.bye_of_unplayed crowned member unplayed
    · intro entrant entered
      exact coherent.lost_count distinct crowned entered

/-- A field of three is played out by two results. -/
theorem single_elimination_three :
    ∃ drawn, generate (fun index => ⟨index⟩) [⟨10⟩, ⟨11⟩, ⟨12⟩] = .ok drawn ∧
      ∀ reports after, PlaysTo drawn reports after →
        (after.champion.isSome ↔ reports.length = 2) := by
  obtain ⟨drawn, generated, all⟩ := single_elimination (fun index => ⟨index⟩)
    [⟨10⟩, ⟨11⟩, ⟨12⟩] (by decide) (by decide) (by decide)
  refine ⟨drawn, generated, fun reports after plays => ?_⟩
  have ids : drawn.DistinctIds := by
    have drawn_eq : drawn = { rounds :=
        [[⟨⟨0⟩, 1, 0, some ⟨10⟩, none, some ⟨10⟩⟩, ⟨⟨1⟩, 1, 1, some ⟨11⟩, some ⟨12⟩, none⟩],
          [⟨⟨2⟩, 2, 0, some ⟨10⟩, none, none⟩]] } :=
      Except.ok.inj (generated.symm.trans (by decide))
    subst drawn_eq
    simp [DistinctIds, flat]
  exact ((all ids).2.1 reports after plays).2

end Playout
end Bracket
end LanBunker
