import LanBunker.Brackets.Grouping
import LanBunker.Brackets.Rows

/-!
# The seeded draw

What the bracket of a field looks like before anything is played: the top seeds stand alone in
the first matches of round one and in round two, and behind them neighbours in seed order meet.
-/

namespace LanBunker
namespace Bracket

open Knockout

/-- The draw of a seed order over `roundCount` rounds, the first `byes` seeds without an
opponent. -/
structure SeededDraw (seeded : List EntrantId) (roundCount byes : Nat) (bracket : Bracket) :
    Prop where
  /-- Each round is half as long as the one before it, down to the final. -/
  sizes : bracket.rounds.map List.length =
    (List.range roundCount).map fun round => 2 ^ (roundCount - 1 - round)
  placed : ∀ round slot m, bracket.get round slot = some m → m.round = round + 1 ∧ m.slot = slot
  /-- The top seeds have won their bye. -/
  bye : ∀ slot < byes, ∃ seed m, seeded[slot]? = some seed ∧ bracket.get 0 slot = some m ∧
    m.entrantA = some seed ∧ m.entrantB = none ∧ m.winner = some seed
  /-- The seeds behind them meet their neighbours. -/
  pair : ∀ index, byes + index < 2 ^ (roundCount - 1) → ∃ seedA seedB m,
    seeded[byes + 2 * index]? = some seedA ∧ seeded[byes + 2 * index + 1]? = some seedB ∧
    bracket.get 0 (byes + index) = some m ∧
    m.entrantA = some seedA ∧ m.entrantB = some seedB ∧ m.winner = none
  /-- Round one seats every entrant once, and nobody else. -/
  once : ∀ first, bracket.rounds[0]? = some first → ∀ entrant,
    (first.flatMap fun m => m.entrantA.toList ++ m.entrantB.toList).count entrant =
      if entrant ∈ seeded then 1 else 0
  occupied : ∀ slot m, bracket.get 0 slot = some m → m.entrantA.isSome
  /-- Round two holds the bye winners, on the side that their slot feeds. -/
  second : ∀ slot m, bracket.get 1 slot = some m →
    m.entrantA = (if 2 * slot < byes then seeded[2 * slot]? else none) ∧
      m.entrantB = (if 2 * slot + 1 < byes then seeded[2 * slot + 1]? else none) ∧
      m.winner = none
  later : ∀ round slot m, bracket.get (round + 2) slot = some m →
    m.entrantA = none ∧ m.entrantB = none ∧ m.winner = none

/-! ## Round one by position -/

/-- The match of round one at a position: the seeds before it are one for each bye and two for
every other match. -/
theorem firstRound_getElem? (draw : Nat → MatchId) (byes slots slot : Nat)
    (seeds : List EntrantId) (index seed : Nat) (entrantB : Option EntrantId)
    (index_lt : index < slots) (seed_eq : seed = index + (index - (byes - slot)))
    (b_eq : entrantB = if slot + index < byes then none else seeds[seed + 1]?) :
    (firstRound draw byes slots slot seeds)[index]? = some
      { id := draw (slot + index), round := 1, slot := slot + index
        entrantA := seeds[seed]?, entrantB
        winner := if entrantB.isNone then seeds[seed]? else none } := by
  induction slots generalizing slot seeds index seed with
  | zero => cases index_lt
  | succ slots ih =>
      cases index with
      | zero =>
          obtain rfl : seed = 0 := by omega
          simp [firstRound, b_eq, List.head?_eq_getElem?]
      | succ index =>
          have slot_eq : slot + 1 + index = slot + (index + 1) := by omega
          rw [firstRound, List.getElem?_cons_succ]
          by_cases bye : slot < byes
          · obtain ⟨before, rfl⟩ : ∃ before, seed = before + 1 := ⟨seed - 1, by omega⟩
            have later := ih (slot + 1) seeds.tail index before (by omega) (by omega)
              (by rw [b_eq, slot_eq, List.getElem?_tail])
            rw [slot_eq, List.getElem?_tail] at later
            simpa only [if_pos bye] using later
          · obtain ⟨before, rfl⟩ : ∃ before, seed = before + 2 := ⟨seed - 2, by omega⟩
            have later := ih (slot + 1) seeds.tail.tail index before (by omega) (by omega)
              (by rw [b_eq, slot_eq, List.getElem?_tail, List.getElem?_tail])
            rw [slot_eq, List.getElem?_tail, List.getElem?_tail] at later
            simpa only [if_neg bye] using later

namespace SeededDraw

variable {draw : Nat → MatchId} {seeded : List EntrantId} {bracket : Bracket}

section Opening

variable {half byes : Nat}

theorem get_opening (opening : bracket.rounds[0]? = some (firstRound draw byes half 0 seeded))
    (slot : Nat) : bracket.get 0 slot = (firstRound draw byes half 0 seeded)[slot]? := by
  rw [get, opening, Option.bind_some]

/-- A first seed without a neighbour has a bye. -/
theorem bye_of_opening (opening : bracket.rounds[0]? = some (firstRound draw byes half 0 seeded))
    (byes_le : byes ≤ half) (byes_lt : byes < seeded.length) : ∀ slot < byes, ∃ seed m,
      seeded[slot]? = some seed ∧ bracket.get 0 slot = some m ∧
      m.entrantA = some seed ∧ m.entrantB = none ∧ m.winner = some seed := by
  intro slot slot_lt
  have seed_eq := List.getElem?_eq_getElem (show slot < seeded.length by omega)
  have here := firstRound_getElem? draw byes half 0 seeded slot slot none (by omega) (by omega)
    (by simp [slot_lt])
  exact ⟨_, _, seed_eq, (get_opening opening slot).trans here, seed_eq, rfl, seed_eq⟩

/-- Behind the byes the seeds meet their neighbours. -/
theorem pair_of_opening (opening : bracket.rounds[0]? = some (firstRound draw byes half 0 seeded))
    (size : byes + seeded.length = 2 * half) : ∀ index, byes + index < half →
      ∃ seedA seedB m, seeded[byes + 2 * index]? = some seedA ∧
        seeded[byes + 2 * index + 1]? = some seedB ∧ bracket.get 0 (byes + index) = some m ∧
        m.entrantA = some seedA ∧ m.entrantB = some seedB ∧ m.winner = none := by
  intro index index_lt
  have seedA_eq := List.getElem?_eq_getElem (show byes + 2 * index < seeded.length by omega)
  have seedB_eq := List.getElem?_eq_getElem (show byes + 2 * index + 1 < seeded.length by omega)
  have here := firstRound_getElem? draw byes half 0 seeded (byes + index) (byes + 2 * index) _
    index_lt (by omega) (by rw [if_neg (by omega), seedB_eq])
  exact ⟨_, _, _, seedA_eq, seedB_eq, (get_opening opening _).trans here, seedA_eq, rfl, rfl⟩

/-- The winners of round one are the byes. -/
theorem winner_of_opening
    (opening : bracket.rounds[0]? = some (firstRound draw byes half 0 seeded))
    (byes_le : byes ≤ half) (byes_lt : byes < seeded.length)
    (size : byes + seeded.length = 2 * half) {slot : Nat} {m : Match}
    (found : bracket.get 0 slot = some m) :
    m.winner = if slot < byes then seeded[slot]? else none := by
  by_cases bye : slot < byes
  · obtain ⟨seed, other, seed_eq, other_found, -, -, winner_eq⟩ :=
      bye_of_opening opening byes_le byes_lt slot bye
    obtain rfl := Option.some.inj (found.symm.trans other_found)
    rw [if_pos bye, winner_eq, seed_eq]
  · have slot_lt : slot < half := by
      rw [get_opening opening] at found
      have inside := (List.getElem?_eq_some_iff.mp found).1
      rwa [firstRound_length] at inside
    obtain ⟨seedA, seedB, other, -, -, other_found, -, -, winner_eq⟩ :=
      pair_of_opening opening size (slot - byes) (by omega)
    rw [Nat.add_sub_cancel' (by omega)] at other_found
    obtain rfl := Option.some.inj (found.symm.trans other_found)
    rw [if_neg bye, winner_eq]

end Opening

/-- The bracket `generate` builds is the seeded draw over the smallest size that takes the field. -/
theorem of_generate (distinct : seeded.Nodup) (generated : generate draw seeded = .ok bracket) :
    ∃ roundCount, 0 < roundCount ∧ 2 ^ (roundCount - 1) < seeded.length ∧
      seeded.length ≤ 2 ^ roundCount ∧
      SeededDraw seeded roundCount (2 ^ roundCount - seeded.length) bracket := by
  have coherent := coherent_generate generated
  obtain ⟨roundCount, positive, count_eq, lower, upper, opening⟩ := generate_opening generated
  have size_half : 2 ^ roundCount = 2 * 2 ^ (roundCount - 1) := two_pow_eq positive
  have half_eq : 2 ^ roundCount / 2 = 2 ^ (roundCount - 1) := by omega
  rw [half_eq] at opening
  have byes_le : 2 ^ roundCount - seeded.length ≤ 2 ^ (roundCount - 1) := by omega
  have byes_lt : 2 ^ roundCount - seeded.length < seeded.length := by omega
  have size : 2 ^ roundCount - seeded.length + seeded.length = 2 * 2 ^ (roundCount - 1) := by omega
  refine ⟨roundCount, positive, lower, upper, ?_⟩
  refine
    { sizes := ?_, placed := coherent.placed, bye := bye_of_opening opening byes_le byes_lt
      pair := pair_of_opening opening size, once := ?_
      occupied := fun slot m found => (coherent.byes slot m found).1, second := ?_, later := ?_ }
  · refine List.ext_getElem (by simp [count_eq]) fun round round_lt _ => ?_
    rw [List.length_map] at round_lt
    simp [coherent.sizes (List.getElem?_eq_getElem round_lt), count_eq]
  · intro first first_eq entrant
    obtain ⟨head, rest, rounds_eq, seats⟩ := coherent.rounds_eq
    rw [rounds_eq, List.getElem?_cons_zero, Option.some.injEq] at first_eq
    have seats_eq : (first.flatMap fun m => m.entrantA.toList ++ m.entrantB.toList) = seeded := by
      rw [← seats, ← first_eq]
      simp [competitors, pairings, List.flatMap_map, Pairing.competitors]
    rw [seats_eq, distinct.count]
  · intro slot m found
    obtain ⟨a, b, a_found, b_found, a_winner, b_winner⟩ := coherent.feeders found
    rw [a_winner, b_winner, winner_of_opening opening byes_le byes_lt size a_found,
      winner_of_opening opening byes_le byes_lt size b_found]
    exact ⟨rfl, rfl, generate_undecided generated found⟩
  · intro round slot m found
    obtain ⟨a, b, a_found, b_found, a_winner, b_winner⟩ := coherent.feeders found
    rw [a_winner, b_winner, generate_undecided generated a_found,
      generate_undecided generated b_found]
    exact ⟨rfl, rfl, generate_undecided generated found⟩

/-- A match of round one is a bye of the seed at its slot, or a pair of neighbours behind the
byes. -/
theorem opening_cases {roundCount byes slot : Nat} {m : Match}
    (drawn : SeededDraw seeded roundCount byes bracket) (found : bracket.get 0 slot = some m) :
    (slot < byes ∧ ∃ seed, seeded[slot]? = some seed ∧
        m.entrantA = some seed ∧ m.entrantB = none ∧ m.winner = some seed) ∨
      ∃ index seedA seedB, slot = byes + index ∧ seeded[byes + 2 * index]? = some seedA ∧
        seeded[byes + 2 * index + 1]? = some seedB ∧
        m.entrantA = some seedA ∧ m.entrantB = some seedB ∧ m.winner = none := by
  by_cases bye : slot < byes
  · obtain ⟨seed, other, seed_eq, other_found, sides⟩ := drawn.bye slot bye
    obtain rfl := Option.some.inj (found.symm.trans other_found)
    exact Or.inl ⟨bye, seed, seed_eq, sides⟩
  · obtain ⟨index, rfl⟩ := Nat.exists_eq_add_of_le (Nat.le_of_not_lt bye)
    have index_lt : byes + index < 2 ^ (roundCount - 1) := by
      obtain ⟨slots, slots_eq, m_found⟩ := get_eq_some_iff.mp found
      have size := congrArg (fun sizes => sizes[0]?) drawn.sizes
      simp only [List.getElem?_map, slots_eq, Option.map_some] at size
      obtain ⟨position, position_eq, size_eq⟩ := Option.map_eq_some_iff.mp size.symm
      obtain ⟨_, rfl⟩ := List.getElem?_eq_some_iff.mp position_eq
      rw [List.getElem_range, Nat.sub_zero] at size_eq
      exact size_eq ▸ (List.getElem?_eq_some_iff.mp m_found).1
    obtain ⟨seedA, seedB, other, seedA_eq, seedB_eq, other_found, sides⟩ :=
      drawn.pair index index_lt
    obtain rfl := Option.some.inj (found.symm.trans other_found)
    exact Or.inr ⟨index, seedA, seedB, rfl, seedA_eq, seedB_eq, sides⟩

end SeededDraw

/-- Every field of 2 to `maxEntrants` distinct entrants is drawn as documented, over the least
power of two that takes it, and the rows of the draw are read back as the draw. -/
theorem generate_draws (draw : Nat → MatchId) (seeded : List EntrantId) (distinct : seeded.Nodup)
    (two_le : 2 ≤ seeded.length) (fits : seeded.length ≤ maxEntrants) :
    ∃ roundCount bracket, generate draw seeded = .ok bracket ∧
      seeded.length ≤ 2 ^ roundCount ∧
      (∀ exponent, seeded.length ≤ 2 ^ exponent → 2 ^ roundCount ≤ 2 ^ exponent) ∧
      SeededDraw seeded roundCount (2 ^ roundCount - seeded.length) bracket ∧
      fromMatches bracket.flat = .ok bracket := by
  obtain ⟨bracket, generated⟩ := generate_isOk draw two_le fits
  obtain ⟨roundCount, positive, lower, upper, drawn⟩ := SeededDraw.of_generate distinct generated
  refine ⟨roundCount, bracket, generated, upper, ?_, drawn,
    (coherent_generate generated).fromMatches_flat⟩
  intro exponent takes
  apply Nat.pow_le_pow_right (by omega)
  by_contra smaller
  have half : 2 ^ exponent ≤ 2 ^ (roundCount - 1) := Nat.pow_le_pow_right (by omega) (by omega)
  omega

/-- A field of three: the first seed has the bye. -/
theorem generate_draws_three :
    ∃ roundCount bracket, generate (fun index => ⟨index⟩) [⟨10⟩, ⟨11⟩, ⟨12⟩] = .ok bracket ∧
      SeededDraw [⟨10⟩, ⟨11⟩, ⟨12⟩] roundCount (2 ^ roundCount - 3) bracket := by
  obtain ⟨roundCount, bracket, generated, -, -, drawn, -⟩ := generate_draws (fun index => ⟨index⟩)
    [⟨10⟩, ⟨11⟩, ⟨12⟩] (by decide) (by decide) (by decide)
  exact ⟨roundCount, bracket, generated, drawn⟩

end Bracket
end LanBunker
