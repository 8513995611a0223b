import LanBunker.Brackets.Draw
import LanBunker.Services.Provenance

/-!
# Seeding by level

The draw of a shuffled and sorted field: the strongest entrants have the byes, and in round one
neighbours in strength meet.
-/

namespace LanBunker

open Service TournamentService

/-- An entrant without an opponent in round one. -/
def Bracket.HasBye (bracket : Bracket) (entrant : EntrantId) : Prop :=
  ∃ slot m, bracket.get 0 slot = some m ∧
    (m.entrantA = some entrant ∧ m.entrantB = none ∨
      m.entrantA = none ∧ m.entrantB = some entrant)

/-- What seeding by level is for. -/
structure SeededByLevel (entrants : List Entrant) (order : List EntrantId) (bracket : Bracket) :
    Prop where
  /-- The seed order is the entrants, the strongest first. -/
  seeds : ∃ seeded : List Entrant, seeded.Perm entrants ∧ order = seeded.map Entrant.id ∧
    (seeded.map seedingLevel).Pairwise (· ≥ ·)
  /-- Nobody with a bye is weaker than somebody without. -/
  byes : ∀ alone ∈ entrants, ∀ other ∈ entrants, bracket.HasBye alone.id →
    ¬bracket.HasBye other.id → seedingLevel other ≤ seedingLevel alone
  /-- Nobody stands strictly between the two sides of a match of round one. -/
  pairs : ∀ slot m, bracket.get 0 slot = some m → ∀ sideA ∈ entrants, ∀ sideB ∈ entrants,
    m.entrantA = some sideA.id → m.entrantB = some sideB.id →
    ∀ other ∈ entrants, other ≠ sideA → other ≠ sideB →
      seedingLevel other ≤ min (seedingLevel sideA) (seedingLevel sideB) ∨
        max (seedingLevel sideA) (seedingLevel sideB) ≤ seedingLevel other

/-- The entrants in seed order. -/
private def seedSort (shuffled : List Entrant) : List Entrant :=
  shuffled.insertionSort fun left right => seedingLevel right ≤ seedingLevel left

private theorem seedSort_sorted (shuffled : List Entrant) :
    (seedSort shuffled).Pairwise fun left right => seedingLevel right ≤ seedingLevel left := by
  have : IsTrans Entrant fun left right => seedingLevel right ≤ seedingLevel left :=
    ⟨fun _ _ _ first second => second.trans first⟩
  have : Std.Total fun left right : Entrant => seedingLevel right ≤ seedingLevel left :=
    ⟨fun left right => Nat.le_total _ _⟩
  exact List.pairwise_insertionSort _ shuffled

section SeedOrder

variable {entrants seeded : List Entrant}

/-- An earlier seed is at least as strong as a later one. -/
private theorem seedingLevel_le
    (sorted : seeded.Pairwise fun left right => seedingLevel right ≤ seedingLevel left)
    {early late : Nat} {strong weak : Entrant} (strong_eq : seeded[early]? = some strong)
    (weak_eq : seeded[late]? = some weak) (le : early ≤ late) :
    seedingLevel weak ≤ seedingLevel strong := by
  obtain ⟨early_lt, rfl⟩ := List.getElem?_eq_some_iff.mp strong_eq
  obtain ⟨late_lt, rfl⟩ := List.getElem?_eq_some_iff.mp weak_eq
  rcases Nat.eq_or_lt_of_le le with rfl | lt
  · exact Nat.le_refl _
  · exact List.pairwise_iff_getElem.mp sorted early late early_lt late_lt lt

/-- Who stands at a seed, by the id. -/
private theorem getElem?_of_seed (seeded_perm : seeded.Perm entrants)
    (order_nodup : (seeded.map Entrant.id).Nodup) {index : Nat} {entrant : Entrant}
    (member : entrant ∈ entrants) (found : (seeded.map Entrant.id)[index]? = some entrant.id) :
    seeded[index]? = some entrant := by
  rw [List.getElem?_map] at found
  obtain ⟨other, other_eq, id_eq⟩ := Option.map_eq_some_iff.mp found
  have other_mem := List.mem_of_getElem? other_eq
  obtain rfl := List.inj_on_of_nodup_map order_nodup other_mem
    (seeded_perm.mem_iff.mpr member) id_eq
  exact other_eq

end SeedOrder

/-- The draw over a seed order seeds by level, whatever the shuffle. -/
theorem SeededByLevel.of_generate {draw : Nat → MatchId} {entrants shuffled : List Entrant}
    {bracket : Bracket} (shuffle : shuffled.Perm entrants)
    (distinct : (entrants.map Entrant.id).Nodup)
    (generated : Bracket.generate draw (seedOrder shuffled) = .ok bracket) :
    SeededByLevel entrants (seedOrder shuffled) bracket := by
  have seeded_perm : (seedSort shuffled).Perm entrants :=
    (List.perm_insertionSort _ shuffled).trans shuffle
  have order_eq : seedOrder shuffled = (seedSort shuffled).map Entrant.id := rfl
  have sorted := seedSort_sorted shuffled
  generalize seedSort shuffled = seeded at seeded_perm order_eq sorted
  rw [order_eq] at generated ⊢
  have order_nodup : (seeded.map Entrant.id).Nodup :=
    ((seeded_perm.map Entrant.id).nodup_iff).mpr distinct
  obtain ⟨roundCount, -, -, -, drawn⟩ := Bracket.SeededDraw.of_generate order_nodup generated
  generalize 2 ^ roundCount - (seeded.map Entrant.id).length = byes at drawn
  have seat : ∀ {entrant : Entrant}, entrant ∈ entrants →
      ∃ index : Nat, seeded[index]? = some entrant := fun member =>
    List.getElem?_of_mem (seeded_perm.mem_iff.mpr member)
  refine ⟨⟨seeded, seeded_perm, rfl, List.pairwise_map.mpr sorted⟩, ?_, ?_⟩
  · rintro alone alone_mem other other_mem ⟨slot, m, found, sides⟩ other_plays
    obtain ⟨place, place_eq⟩ := seat other_mem
    have place_ge : byes ≤ place := by
      by_contra small
      obtain ⟨seed, m, seed_eq, found, a_eq, b_eq, -⟩ := drawn.bye place (by omega)
      rw [List.getElem?_map, place_eq, Option.map_some, Option.some.injEq] at seed_eq
      exact other_plays ⟨place, m, found, Or.inl ⟨seed_eq ▸ a_eq, b_eq⟩⟩
    rcases drawn.opening_cases found with
      ⟨slot_lt, seed, seed_eq, a_eq, -, -⟩ | ⟨_, seedA, seedB, -, -, -, a_eq, b_eq, -⟩
    · have alone_seed : seed = alone.id := by
        rcases sides with ⟨side_eq, -⟩ | ⟨side_eq, -⟩
        · exact Option.some.inj (a_eq.symm.trans side_eq)
        · rw [a_eq] at side_eq
          cases side_eq
      exact seedingLevel_le sorted
        (getElem?_of_seed seeded_perm order_nodup alone_mem (alone_seed ▸ seed_eq)) place_eq
        (by omega)
    · rw [a_eq, b_eq] at sides
      simp at sides
  · intro slot m found sideA a_mem sideB b_mem a_side b_side other other_mem not_a not_b
    rcases drawn.opening_cases found with
      ⟨-, seed, -, -, b_eq, -⟩ | ⟨index, seedA, seedB, -, seedA_eq, seedB_eq, a_eq, b_eq, -⟩
    · rw [b_eq] at b_side
      cases b_side
    · obtain rfl : seedA = sideA.id := Option.some.inj (a_eq.symm.trans a_side)
      obtain rfl : seedB = sideB.id := Option.some.inj (b_eq.symm.trans b_side)
      have a_place := getElem?_of_seed seeded_perm order_nodup a_mem seedA_eq
      have b_place := getElem?_of_seed seeded_perm order_nodup b_mem seedB_eq
      obtain ⟨place, place_eq⟩ := seat other_mem
      have b_le := seedingLevel_le sorted a_place b_place (Nat.le_succ _)
      have place_ne_a : place ≠ byes + 2 * index := by
        rintro rfl
        exact not_a (Option.some.inj (place_eq.symm.trans a_place))
      have place_ne_b : place ≠ byes + 2 * index + 1 := by
        rintro rfl
        exact not_b (Option.some.inj (place_eq.symm.trans b_place))
      rw [min_eq_right b_le, max_eq_left b_le]
      rcases Nat.lt_or_gt_of_ne place_ne_a with before | after
      · exact Or.inr (seedingLevel_le sorted place_eq a_place (by omega))
      · exact Or.inl (seedingLevel_le sorted b_place place_eq (by omega))

/-- Whatever `generate_bracket` reads and however it shuffles, the bracket it builds is seeded by
level, and there is one for every field of 2 to `maxEntrants` entrants. -/
theorem generateBracket_byLevel (id : TournamentId) :
    Yields (May (.generateBracket id)) [] (generateBracket id) (fun bracket past =>
      ∃ entrants shuffled draw, past.Read (.tournaments (.entrants id)) entrants ∧
        ⟨.shuffle entrants, shuffled⟩ ∈ past ∧
        Bracket.generate draw (seedOrder shuffled) = .ok bracket ∧
        (shuffled.Perm entrants → (entrants.map Entrant.id).Nodup →
          SeededByLevel entrants (seedOrder shuffled) bracket)) ∧
    ∀ (draw : Nat → MatchId) (entrants shuffled : List Entrant), shuffled.Perm entrants →
      (entrants.map Entrant.id).Nodup → 2 ≤ entrants.length → entrants.length ≤ maxEntrants →
      ∃ bracket, Bracket.generate draw (seedOrder shuffled) = .ok bracket ∧
        SeededByLevel entrants (seedOrder shuffled) bracket := by
  constructor
  · refine yields_generateBracket.mono ?_
    rintro bracket past ⟨entrants, shuffled, draw, read, drawn, generated⟩
    exact ⟨entrants, shuffled, draw, read, drawn, generated, fun shuffle distinct =>
      SeededByLevel.of_generate shuffle distinct generated⟩
  · intro draw entrants shuffled shuffle distinct two_le fits
    have count : (seedOrder shuffled).length = entrants.length := by
      rw [(seedOrder_perm shuffled).length_eq, List.length_map, shuffle.length_eq]
    obtain ⟨bracket, generated⟩ :=
      Bracket.generate_isOk draw (count.symm ▸ two_le) (count.symm ▸ fits)
    exact ⟨bracket, generated, SeededByLevel.of_generate shuffle distinct generated⟩

/-- Two entrants without a level and a strong one, shuffled to the front. -/
theorem generateBracket_byLevel_three :
    ∃ bracket, Bracket.generate (fun index => ⟨index⟩) [⟨2⟩, ⟨3⟩, ⟨1⟩] = .ok bracket ∧
      SeededByLevel
        [⟨⟨1⟩, none, none, none, 0⟩, ⟨⟨2⟩, none, none, some ⟨5, by decide, by decide⟩, 0⟩,
          ⟨⟨3⟩, none, none, none, 0⟩] [⟨2⟩, ⟨3⟩, ⟨1⟩] bracket := by
  obtain ⟨bracket, generated, seeded⟩ := (generateBracket_byLevel ⟨0⟩).2 (fun index => ⟨index⟩)
    [⟨⟨1⟩, none, none, none, 0⟩, ⟨⟨2⟩, none, none, some ⟨5, by decide, by decide⟩, 0⟩,
      ⟨⟨3⟩, none, none, none, 0⟩]
    [⟨⟨3⟩, none, none, none, 0⟩, ⟨⟨1⟩, none, none, none, 0⟩,
      ⟨⟨2⟩, none, none, some ⟨5, by decide, by decide⟩, 0⟩]
    (by decide) (by decide) (by decide) (by decide)
  exact ⟨bracket, generated, seeded⟩

end LanBunker
