import LanBunker.Brackets.Generate

/-!
# What a bracket always looks like

Every bracket that calls on a draw can leave behind satisfies the representation invariant, and
two such brackets with the same winners are the same bracket: the order in which results were
entered, changed and cleared leaves no trace.
-/

namespace LanBunker

open Knockout

namespace Bracket

section Coherent

variable {seeded : List EntrantId} {bracket : Bracket} (coherent : Coherent seeded bracket)

include coherent

/-- A coherent bracket is a knockout. -/
theorem Coherent.isKnockout : IsKnockout bracket.knockout where
  sound round member pairing pairing_mem := by
    obtain ⟨slots, slots_mem, rfl⟩ := List.mem_map.mp member
    obtain ⟨m, m_mem, rfl⟩ := List.mem_map.mp pairing_mem
    obtain ⟨index, slot, found⟩ :=
      mem_flat_iff.mp (List.mem_flatten.mpr ⟨slots, slots_mem, m_mem⟩)
    exact coherent.sound index slot m found
  feeds := by
    rw [List.isChain_iff_getElem]
    intro index index_lt
    simp only [knockout, List.length_map] at index_lt
    simp only [knockout, List.getElem_map]
    exact coherent.feeds index _ _ (List.getElem?_eq_getElem (by omega))
      (List.getElem?_eq_getElem index_lt)

/-- The rounds of a coherent bracket, with round one in front. -/
theorem Coherent.rounds_eq : ∃ first rest, bracket.rounds = first :: rest ∧
    competitors (pairings first) = seeded := by
  obtain ⟨first, first_eq, seats⟩ := coherent.opening
  cases rounds : bracket.rounds with
  | nil => simp [rounds] at first_eq
  | cons head rest =>
      rw [rounds, List.getElem?_cons_zero, Option.some.injEq] at first_eq
      exact ⟨head, rest, rfl, first_eq ▸ seats⟩

/-- The competitors of every round are distinct. -/
theorem Coherent.competitors_nodup (distinct : seeded.Nodup) {round : Nat} {slots : List Match}
    (found : bracket.rounds[round]? = some slots) : (competitors (pairings slots)).Nodup := by
  obtain ⟨first, rest, rounds_eq, seats⟩ := coherent.rounds_eq
  have knockout := coherent.isKnockout
  have member : pairings slots ∈ bracket.knockout :=
    List.mem_map_of_mem (List.mem_of_getElem? found)
  rw [Bracket.knockout, rounds_eq, List.map_cons] at knockout member
  exact knockout.competitors_nodup (seats.symm ▸ distinct) _ member

/-- Both feeders of a later match exist, and their winners are its sides. -/
theorem Coherent.feeders {round slot : Nat} {next : Match}
    (found : bracket.get (round + 1) slot = some next) :
    ∃ a b, bracket.get round (2 * slot) = some a ∧ bracket.get round (2 * slot + 1) = some b ∧
      next.entrantA = a.winner ∧ next.entrantB = b.winner := by
  obtain ⟨nextSlots, nextSlots_eq, next_found⟩ := get_eq_some_iff.mp found
  have round_lt : round < bracket.rounds.length := by
    have := (List.getElem?_eq_some_iff.mp nextSlots_eq).1
    omega
  have slots_eq := List.getElem?_eq_getElem round_lt
  have feeds := coherent.feeds round _ nextSlots slots_eq nextSlots_eq
  have left := feeds.left_eq slot
  have right := feeds.right_eq slot
  simp only [pairings, List.getElem?_map, next_found, Option.map_some, Match.pairing_left,
    Match.pairing_right] at left right
  obtain ⟨pairingA, pairingA_found, a_winner⟩ := Option.map_eq_some_iff.mp left.symm
  obtain ⟨pairingB, pairingB_found, b_winner⟩ := Option.map_eq_some_iff.mp right.symm
  obtain ⟨a, a_found, rfl⟩ := Option.map_eq_some_iff.mp pairingA_found
  obtain ⟨b, b_found, rfl⟩ := Option.map_eq_some_iff.mp pairingB_found
  exact ⟨a, b, get_eq_some_iff.mpr ⟨_, slots_eq, a_found⟩,
    get_eq_some_iff.mpr ⟨_, slots_eq, b_found⟩, a_winner.symm, b_winner.symm⟩

/-- Whoever stands in a match is an entrant. -/
theorem Coherent.side_mem {round slot : Nat} {m : Match}
    (found : bracket.get round slot = some m) {entrant : EntrantId}
    (side : m.entrantA = some entrant ∨ m.entrantB = some entrant) : entrant ∈ seeded := by
  induction round generalizing slot m with
  | zero =>
      obtain ⟨slots, slots_eq, m_found⟩ := get_eq_some_iff.mp found
      obtain ⟨first, first_eq, seats⟩ := coherent.opening
      obtain rfl := Option.some.inj (slots_eq.symm.trans first_eq)
      rw [← seats, competitors, List.mem_flatMap]
      refine ⟨m.pairing, List.mem_map_of_mem (List.mem_of_getElem? m_found), ?_⟩
      exact mem_competitors_iff.mpr side
  | succ round ih =>
      obtain ⟨a, b, a_found, b_found, a_winner, b_winner⟩ := coherent.feeders found
      rcases side with side | side
      · exact ih a_found (coherent.sound round _ a a_found entrant (a_winner.symm.trans side))
      · exact ih b_found (coherent.sound round _ b b_found entrant (b_winner.symm.trans side))

/-- A decided later match has both sides, so both its feeders are decided. -/
theorem Coherent.feeders_decided {round slot : Nat} {next : Match}
    (found : bracket.get (round + 1) slot = some next) (decided : next.winner.isSome) :
    next.isReady ∧ ∃ a b, bracket.get round (2 * slot) = some a ∧
      bracket.get round (2 * slot + 1) = some b ∧ a.winner.isSome ∧ b.winner.isSome := by
  have ready := coherent.ready round slot next found decided
  obtain ⟨a, b, a_found, b_found, a_winner, b_winner⟩ := coherent.feeders found
  have sides := ready
  rw [Match.isReady, Bool.and_eq_true, a_winner, b_winner] at sides
  exact ⟨ready, a, b, a_found, b_found, sides⟩

/-- No entrant stands in two matches of one round. -/
theorem Coherent.slot_eq (distinct : seeded.Nodup) {round slot otherSlot : Nat}
    {m other : Match} {entrant : EntrantId} (found : bracket.get round slot = some m)
    (other_found : bracket.get round otherSlot = some other)
    (stands : m.entrantA = some entrant ∨ m.entrantB = some entrant)
    (other_stands : other.entrantA = some entrant ∨ other.entrantB = some entrant) :
    slot = otherSlot := by
  obtain ⟨slots, slots_eq, m_found⟩ := get_eq_some_iff.mp found
  obtain ⟨otherSlots, otherSlots_eq, m_other⟩ := get_eq_some_iff.mp other_found
  obtain rfl : slots = otherSlots := Option.some.inj (slots_eq.symm.trans otherSlots_eq)
  have nodup := coherent.competitors_nodup distinct slots_eq
  apply slot_eq_of_mem_competitors nodup
  · rw [pairings, List.getElem?_map, m_found]
    rfl
  · rw [pairings, List.getElem?_map, m_other]
    rfl
  · exact mem_competitors_iff.mpr stands
  · exact mem_competitors_iff.mpr other_stands

end Coherent

/-! ## What calls never touch -/

/-- What a position keeps under every call: the row itself, and in round one its two sides. -/
def frame (round : Nat) (m : Match) :
    MatchId × Nat × Nat × Option (Option EntrantId × Option EntrantId) :=
  (m.id, m.round, m.slot, if round = 0 then some (m.entrantA, m.entrantB) else none)

theorem frame_entered (round slot : Nat) (winner : Option EntrantId) (otherRound otherSlot : Nat)
    (m : Match) :
    frame otherRound (entered round slot winner otherRound otherSlot m) = frame otherRound m := by
  cases otherRound with
  | zero =>
      have not_next : ¬(0 = round + 1 ∧ otherSlot = slot / 2) := by omega
      simp only [frame, entered_id, entered_round, entered_slot, if_true]
      simp only [entered, if_neg not_next]
      split_ifs <;> rfl
  | succ otherRound => simp [frame]

theorem frame_enter (bracket : Bracket) (round slot : Nat) (winner : Option EntrantId)
    (otherRound otherSlot : Nat) :
    ((bracket.enter round slot winner).get otherRound otherSlot).map (frame otherRound) =
      (bracket.get otherRound otherSlot).map (frame otherRound) := by
  rw [get_enter, Option.map_map]
  congr 1
  funext m
  exact frame_entered round slot winner otherRound otherSlot m

@[simp]
theorem rounds_enter_length (bracket : Bracket) (round slot : Nat) (winner : Option EntrantId) :
    (bracket.enter round slot winner).rounds.length = bracket.rounds.length := by
  simp [enter, feed, modify]

/-- A call keeps the frame of every position and the number of rounds. -/
theorem play_frame (bracket : Bracket) (call : Call) :
    (bracket.play call).rounds.length = bracket.rounds.length ∧
      ∀ round slot, ((bracket.play call).get round slot).map (frame round) =
        (bracket.get round slot).map (frame round) := by
  cases call with
  | report id winner =>
      rcases report_cases bracket id winner with
        ⟨error, refused⟩ | ⟨round, slot, m, -, -, -, -, entered⟩
      · simp [play, refused]
      · simp only [play, entered, rounds_enter_length]
        exact ⟨trivial, frame_enter bracket round slot (some winner)⟩
  | clear id =>
      rcases clear_cases bracket id with
        ⟨error, refused⟩ | untouched | ⟨round, slot, m, -, -, -, -, entered⟩
      · simp [play, refused]
      · simp [play, untouched]
      · simp only [play, entered, rounds_enter_length]
        exact ⟨trivial, frame_enter bracket round slot none⟩

theorem playAll_frame (bracket : Bracket) (calls : List Call) :
    (bracket.playAll calls).rounds.length = bracket.rounds.length ∧
      ∀ round slot, ((bracket.playAll calls).get round slot).map (frame round) =
        (bracket.get round slot).map (frame round) := by
  induction calls generalizing bracket with
  | nil => exact ⟨rfl, fun _ _ => rfl⟩
  | cons call calls ih =>
      obtain ⟨lengths, frames⟩ := ih (bracket.play call)
      obtain ⟨call_length, call_frame⟩ := play_frame bracket call
      exact ⟨lengths.trans call_length,
        fun round slot => (frames round slot).trans (call_frame round slot)⟩

/-! ## The representation invariant -/

/-- Coherent brackets with the same frames and the same winners are equal. -/
theorem Coherent.ext {seeded : List EntrantId} {left right : Bracket}
    (left_coherent : Coherent seeded left) (right_coherent : Coherent seeded right)
    (lengths : left.rounds.length = right.rounds.length)
    (frames : ∀ round slot, (left.get round slot).map (frame round) =
      (right.get round slot).map (frame round))
    (winners : ∀ round slot, (left.get round slot).map Match.winner =
      (right.get round slot).map Match.winner) : left = right := by
  apply ext_get lengths
  intro round slot
  have frame_eq := frames round slot
  have winner_eq := winners round slot
  cases left_found : left.get round slot with
  | none =>
      rw [left_found, Option.map_none] at winner_eq
      exact (Option.map_eq_none_iff.mp winner_eq.symm).symm
  | some l =>
      rw [left_found, Option.map_some] at frame_eq winner_eq
      obtain ⟨r, right_found, r_frame⟩ := Option.map_eq_some_iff.mp frame_eq.symm
      rw [right_found, Option.map_some, Option.some.injEq] at winner_eq
      simp only [frame, Prod.mk.injEq] at r_frame
      obtain ⟨id_eq, round_eq, slot_eq, sides_eq⟩ := r_frame
      have sides : l.entrantA = r.entrantA ∧ l.entrantB = r.entrantB := by
        cases round with
        | zero =>
            simp only [if_true, Option.some.injEq, Prod.mk.injEq] at sides_eq
            exact ⟨sides_eq.1.symm, sides_eq.2.symm⟩
        | succ round =>
            obtain ⟨a, b, a_found, b_found, l_a, l_b⟩ := left_coherent.feeders left_found
            obtain ⟨a', b', a'_found, b'_found, r_a, r_b⟩ := right_coherent.feeders right_found
            have a_winner := winners round (2 * slot)
            have b_winner := winners round (2 * slot + 1)
            rw [a_found, a'_found, Option.map_some, Option.map_some, Option.some.injEq] at a_winner
            rw [b_found, b'_found, Option.map_some, Option.map_some, Option.some.injEq] at b_winner
            exact ⟨l_a.trans (a_winner.trans r_a.symm), l_b.trans (b_winner.trans r_b.symm)⟩
      rw [right_found]
      obtain ⟨lId, lRound, lSlot, lA, lB, lWinner⟩ := l
      obtain ⟨rId, rRound, rSlot, rA, rB, rWinner⟩ := r
      simp only at id_eq round_eq slot_eq sides winner_eq
      rw [id_eq, round_eq, slot_eq, sides.1, sides.2, winner_eq]

/-- The representation invariant: whatever calls are made on a draw of 2 to `maxEntrants` distinct
entrants, accepted or refused, every match sits at its position, every winner is a side, the sides
of a later match are the winners of its two feeders, a decided later match has both, nobody plays
twice in one round, and the winners alone tell the bracket from any other the draw can become. -/
theorem playAll_representation (draw : Nat → MatchId) (seeded : List EntrantId)
    (distinct : seeded.Nodup) (two_le : 2 ≤ seeded.length) (fits : seeded.length ≤ maxEntrants)
    (calls : List Call) :
    ∃ drawn, generate draw seeded = .ok drawn ∧
      (∀ round slot m, (drawn.playAll calls).get round slot = some m →
        m.round = round + 1 ∧ m.slot = slot) ∧
      (∀ round slot m winner, (drawn.playAll calls).get round slot = some m →
        m.winner = some winner → m.entrantA = some winner ∨ m.entrantB = some winner) ∧
      (∀ round slot next, (drawn.playAll calls).get (round + 1) slot = some next →
        ∃ a b, (drawn.playAll calls).get round (2 * slot) = some a ∧
          (drawn.playAll calls).get round (2 * slot + 1) = some b ∧
          next.entrantA = a.winner ∧ next.entrantB = b.winner) ∧
      (∀ round slot next, (drawn.playAll calls).get (round + 1) slot = some next →
        next.winner.isSome → next.isReady ∧
          ∃ a b, (drawn.playAll calls).get round (2 * slot) = some a ∧
            (drawn.playAll calls).get round (2 * slot + 1) = some b ∧
            a.winner.isSome ∧ b.winner.isSome) ∧
      (∀ round slot otherSlot m other entrant,
        (drawn.playAll calls).get round slot = some m →
        (drawn.playAll calls).get round otherSlot = some other →
        m.entrantA = some entrant ∨ m.entrantB = some entrant →
        other.entrantA = some entrant ∨ other.entrantB = some entrant → slot = otherSlot) ∧
      ∀ otherCalls, (∀ round slot,
          ((drawn.playAll calls).get round slot).map Match.winner =
            ((drawn.playAll otherCalls).get round slot).map Match.winner) →
        drawn.playAll calls = drawn.playAll otherCalls := by
  obtain ⟨drawn, generated⟩ := generate_isOk draw two_le fits
  have drawn_coherent := coherent_generate generated
  have coherent := drawn_coherent.playAll calls
  refine ⟨drawn, generated, coherent.placed, ?_, ?_, ?_, ?_, ?_⟩
  · intro round slot m winner found decided
    exact coherent.sound round slot m found winner decided
  · intro round slot next found
    exact coherent.feeders found
  · intro round slot next found decided
    exact coherent.feeders_decided found decided
  · intro round slot otherSlot m other entrant found other_found stands other_stands
    exact coherent.slot_eq distinct found other_found stands other_stands
  · intro otherCalls winners
    obtain ⟨lengths, frames⟩ := playAll_frame drawn calls
    obtain ⟨otherLengths, otherFrames⟩ := playAll_frame drawn otherCalls
    exact coherent.ext (drawn_coherent.playAll otherCalls) (lengths.trans otherLengths.symm)
      (fun round slot => (frames round slot).trans (otherFrames round slot).symm) winners

/-- A field of three, with the only bye in the first slot, after a result and a refusal. -/
theorem playAll_representation_three :
    ∃ drawn, generate (fun index => ⟨index⟩) [⟨10⟩, ⟨11⟩, ⟨12⟩] = .ok drawn ∧
      (drawn.playAll [.report ⟨1⟩ ⟨12⟩, .clear ⟨0⟩]).get 1 0 =
        some ⟨⟨2⟩, 2, 0, some ⟨10⟩, some ⟨12⟩, none⟩ := by
  obtain ⟨drawn, generated, -⟩ := playAll_representation (fun index => ⟨index⟩)
    [⟨10⟩, ⟨11⟩, ⟨12⟩] (by decide) (by decide) (by decide) [.report ⟨1⟩ ⟨12⟩, .clear ⟨0⟩]
  refine ⟨drawn, generated, ?_⟩
  have drawn_eq : drawn = { rounds :=
      [[⟨⟨0⟩, 1, 0, some ⟨10⟩, none, some ⟨10⟩⟩, ⟨⟨1⟩, 1, 1, some ⟨11⟩, some ⟨12⟩, none⟩],
        [⟨⟨2⟩, 2, 0, some ⟨10⟩, none, none⟩]] } :=
    Except.ok.inj (generated.symm.trans (by decide))
  subst drawn_eq
  decide

end Bracket
end LanBunker
