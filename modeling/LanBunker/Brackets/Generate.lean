import LanBunker.Brackets.Invariant

/-!
# The drawn bracket

`generate` accepts every field of 2 to `maxEntrants` entrants, and the bracket it builds is
coherent over the seed order: round one seats the seeds in order, byes first, and the only later
sides that are set are those the byes feed.
-/

namespace LanBunker

open Knockout

/-! ## The size of a bracket -/

/-- A field of at least two sits between two consecutive powers of two. -/
theorem nextPowerOfTwo_bounds {count : Nat} (two_le : 2 ≤ count) :
    ∃ roundCount, 0 < roundCount ∧ nextPowerOfTwo count = 2 ^ roundCount ∧
      2 ^ (roundCount - 1) < count ∧ count ≤ 2 ^ roundCount := by
  have not_le : ¬count ≤ 1 := by omega
  have pred_ne : count - 1 ≠ 0 := by omega
  refine ⟨Nat.log2 (count - 1) + 1, by omega, by simp [nextPowerOfTwo, not_le], ?_, ?_⟩
  · have lower := Nat.log2_self_le pred_ne
    simp only [Nat.add_sub_cancel]
    omega
  · have upper := Nat.lt_log2_self (n := count - 1)
    omega

theorem trailingZeros_two_pow {exponent : Nat} (fits : exponent < 64) :
    trailingZeros (2 ^ exponent) = exponent := by
  unfold trailingZeros
  rw [List.findIdx_eq (by simpa using fits)]
  constructor
  · simp
  · intro bit bit_lt
    simp only [List.getElem_range, Nat.testBit_two_pow]
    simpa using fun equality : exponent = bit => absurd bit_lt (by omega)

namespace Bracket

/-! ## Round one -/

section FirstRound

variable (draw : Nat → MatchId) (byes : Nat)

@[simp]
theorem firstRound_length (slots slot : Nat) (seeds : List EntrantId) :
    (firstRound draw byes slots slot seeds).length = slots := by
  induction slots generalizing slot seeds with
  | zero => rfl
  | succ slots ih => simp [firstRound, ih]

theorem firstRound_placed (slots slot : Nat) (seeds : List EntrantId) (index : Nat) (m : Match)
    (found : (firstRound draw byes slots slot seeds)[index]? = some m) :
    m.round = 1 ∧ m.slot = slot + index := by
  induction slots generalizing slot seeds index with
  | zero => simp [firstRound] at found
  | succ slots ih =>
      cases index with
      | zero =>
          simp only [firstRound, List.getElem?_cons_zero, Option.some.injEq] at found
          subst found
          simp
      | succ index =>
          simp only [firstRound, List.getElem?_cons_succ] at found
          obtain ⟨round_eq, slot_eq⟩ := ih (slot + 1) _ index found
          exact ⟨round_eq, by omega⟩

/-- A match of round one without a side b is won by its side a, and every other is undecided. -/
theorem firstRound_winner (slots slot : Nat) (seeds : List EntrantId) :
    ∀ m ∈ firstRound draw byes slots slot seeds,
      m.winner = if m.entrantB.isNone then m.entrantA else none := by
  induction slots generalizing slot seeds with
  | zero => simp [firstRound]
  | succ slots ih =>
      intro m member
      rw [firstRound, List.mem_cons] at member
      rcases member with rfl | later
      · rfl
      · exact ih _ _ m later

/-- The seeds left for `slots` matches fill them exactly: one for each bye still to give, two for
every other match. -/
theorem competitors_firstRound (slots slot : Nat) (seeds : List EntrantId)
    (fill : seeds.length + (byes - slot) = 2 * slots) (few : byes - slot ≤ slots) :
    competitors (pairings (firstRound draw byes slots slot seeds)) = seeds ∧
      ∀ m ∈ firstRound draw byes slots slot seeds, m.entrantA.isSome := by
  induction slots generalizing slot seeds with
  | zero =>
      obtain rfl : seeds = [] := List.length_eq_zero_iff.mp (by omega)
      simp [firstRound, pairings, competitors]
  | succ slots ih =>
      cases seeds with
      | nil =>
          simp only [List.length_nil] at fill
          omega
      | cons seedA seeds =>
          by_cases bye : slot < byes
          · obtain ⟨seats, sides⟩ := ih (slot + 1) seeds
              (by simp only [List.length_cons] at fill; omega) (by omega)
            simp only [firstRound, List.head?_cons, List.tail_cons, bye, if_true]
            constructor
            · simpa [pairings, competitors, Match.pairing, Pairing.competitors] using seats
            · intro m member
              rcases List.mem_cons.mp member with rfl | later
              · rfl
              · exact sides m later
          · cases seeds with
            | nil =>
                simp only [List.length_cons, List.length_nil] at fill
                omega
            | cons seedB seeds =>
                obtain ⟨seats, sides⟩ := ih (slot + 1) seeds
                  (by simp only [List.length_cons] at fill; omega) (by omega)
                simp only [firstRound, List.head?_cons, List.tail_cons, bye, if_false]
                constructor
                · simpa [pairings, competitors, Match.pairing, Pairing.competitors] using seats
                · intro m member
                  rcases List.mem_cons.mp member with rfl | later
                  · rfl
                  · exact sides m later

end FirstRound

/-! ## Feeding the byes -/

/-- Everything the byes write into the next round. -/
private def seatByes (next : List Match) (byes : List (Nat × EntrantId)) : List Match :=
  byes.foldl (fun next (slot, winner) => next.modify (slot / 2) (Match.fed slot (some winner))) next

private theorem rounds_feedByes (bracket : Bracket) (byes : List (Nat × EntrantId)) :
    (byes.foldl (fun bracket (slot, winner) => bracket.feed 0 slot (some winner)) bracket).rounds =
      bracket.rounds.modify 1 fun next => seatByes next byes := by
  induction byes generalizing bracket with
  | nil => exact (List.modify_id 1 bracket.rounds).symm
  | cons bye byes ih =>
      rw [List.foldl_cons, ih]
      simp only [feed, modify, seatByes, List.foldl_cons, List.modify_modify_eq]
      rfl

private theorem entries_seatByes (next : List Match) (byes : List (Nat × EntrantId)) :
    entries (pairings (seatByes next byes)) =
      byes.foldl (fun entries (slot, winner) => entries.set slot (some winner))
        (entries (pairings next)) := by
  induction byes generalizing next with
  | nil => rfl
  | cons bye byes ih =>
      have later := ih (next.modify (bye.1 / 2) (Match.fed bye.1 (some bye.2)))
      rw [entries_modify_fed] at later
      exact later

private theorem map_seatByes {β : Type*} (view : Match → β)
    (keeps : ∀ slot entrant next, view (Match.fed slot entrant next) = view next)
    (next : List Match) (byes : List (Nat × EntrantId)) :
    (seatByes next byes).map view = next.map view := by
  induction byes generalizing next with
  | nil => rfl
  | cons bye byes ih =>
      have later := ih (next.modify (bye.1 / 2) (Match.fed bye.1 (some bye.2)))
      refine later.trans ?_
      apply List.ext_getElem?
      intro index
      rw [List.getElem?_map, List.getElem?_map, List.getElem?_modify]
      cases next[index]? with
      | none => rfl
      | some m =>
          by_cases here : bye.1 / 2 = index
          · simp [here, keeps]
          · simp [here]

/-- Writing every known entry of a list over blanks rebuilds the list. -/
private theorem foldl_set_known {α : Type*} (done rest : List (Option α)) :
    ((rest.zipIdx done.length).filterMap fun (known, slot) =>
        known.map fun item => (slot, item)).foldl
        (fun entries (slot, item) => entries.set slot (some item))
        (done ++ List.replicate rest.length none) =
      done ++ rest := by
  induction rest generalizing done with
  | nil => simp
  | cons entry rest ih =>
      have later := ih (done ++ [entry])
      rw [List.length_append, List.length_singleton] at later
      cases entry with
      | none =>
          simpa [List.replicate_succ, List.append_assoc] using later
      | some item =>
          simpa [List.replicate_succ, List.append_assoc, List.set_append_right] using later

theorem byeWinners_eq (first : List Match) :
    byeWinners first =
      ((first.map Match.winner).zipIdx).filterMap
        fun (known, slot) => known.map fun item => (slot, item) := by
  rw [byeWinners, List.zipIdx_map, List.filterMap_map]
  rfl

/-! ## The later rounds -/

section LaterRounds

variable (draw : Nat → MatchId)

theorem two_pow_eq {exponent : Nat} (positive : 0 < exponent) :
    2 ^ exponent = 2 * 2 ^ (exponent - 1) := by
  obtain ⟨rest, rfl⟩ := Nat.exists_eq_succ_of_ne_zero (Nat.ne_of_gt positive)
  rw [Nat.pow_succ, Nat.mul_comm]
  rfl

theorem two_pow_shiftRight {exponent round : Nat} (fits : round ≤ exponent) :
    2 ^ exponent >>> round = 2 ^ (exponent - round) := by
  rw [Nat.shiftRight_eq_div_pow, Nat.pow_div fits (by omega)]

@[simp]
theorem emptyRound_length (size round : Nat) :
    (emptyRound draw size round).length = size >>> round := by
  simp [emptyRound]

theorem entries_emptyRound (size round : Nat) :
    entries (pairings (emptyRound draw size round)) =
      List.replicate (2 * (size >>> round)) none := by
  apply List.eq_replicate_iff.mpr
  constructor
  · simp [pairings]
  · intro entry member
    simp only [entries, pairings, emptyRound, List.map_map, List.flatMap_map,
      List.mem_flatMap] at member
    obtain ⟨slot, -, entry_mem⟩ := member
    simpa [Pairing.entries, Match.pairing] using entry_mem

theorem laterRounds_getElem? {size roundCount index : Nat} {slots : List Match}
    (found : (laterRounds draw size roundCount)[index]? = some slots) :
    index < roundCount - 1 ∧ slots = emptyRound draw size (index + 2) := by
  rw [laterRounds, List.getElem?_map] at found
  obtain ⟨round, round_eq, rfl⟩ := Option.map_eq_some_iff.mp found
  obtain ⟨index_lt, rfl⟩ := List.getElem?_eq_some_iff.mp round_eq
  rw [List.length_range'] at index_lt
  refine ⟨index_lt, ?_⟩
  rw [List.getElem_range', Nat.one_mul, Nat.add_comm]

end LaterRounds

/-! ## The whole draw -/

section Draw

variable {draw : Nat → MatchId} {seeded : List EntrantId} {bracket : Bracket}

/-- The rounds `generate` returns, with the size written as a power of two. -/
private theorem generate_rounds (generated : generate draw seeded = .ok bracket) :
    ∃ roundCount first, 0 < roundCount ∧ roundCount < 64 ∧
      2 ^ (roundCount - 1) < seeded.length ∧ seeded.length ≤ 2 ^ roundCount ∧
      first = firstRound draw (2 ^ roundCount - seeded.length) (2 ^ roundCount / 2) 0 seeded ∧
      bracket.rounds = first :: (laterRounds draw (2 ^ roundCount) roundCount).modify 0
        fun next => seatByes next (byeWinners first) := by
  simp only [generate] at generated
  split_ifs at generated with few many
  obtain ⟨roundCount, positive, size_eq, lower, upper⟩ :=
    nextPowerOfTwo_bounds (Nat.le_of_not_lt few)
  have small : roundCount < 64 := by
    by_contra large
    have huge : 2 ^ 63 ≤ 2 ^ (roundCount - 1) := Nat.pow_le_pow_right (by omega) (by omega)
    simp only [maxEntrants] at many
    omega
  refine ⟨roundCount, _, positive, small, lower, upper, rfl, ?_⟩
  simp only [Except.ok.injEq] at generated
  rw [← generated, rounds_feedByes, size_eq, trailingZeros_two_pow small, List.modify_succ_cons]

/-- A later round of the draw is an empty round, but for the sides the byes feed. -/
private theorem seated_view {size roundCount index : Nat} {byes : List (Nat × EntrantId)}
    {slots : List Match}
    (found : ((laterRounds draw size roundCount).modify 0
      fun next => seatByes next byes)[index]? = some slots) :
    index < roundCount - 1 ∧
      slots.map (fun m => (m.round, m.slot, m.winner)) =
        (List.range (size >>> (index + 2))).map fun slot => (index + 2, slot, none) := by
  rw [List.getElem?_modify] at found
  obtain ⟨empty, empty_eq, rfl⟩ := Option.map_eq_some_iff.mp found
  obtain ⟨index_lt, rfl⟩ := laterRounds_getElem? draw empty_eq
  refine ⟨index_lt, ?_⟩
  have view_empty : (emptyRound draw size (index + 2)).map (fun m => (m.round, m.slot, m.winner)) =
      (List.range (size >>> (index + 2))).map fun slot => (index + 2, slot, none) := by
    simp [emptyRound]
  rw [← view_empty]
  split_ifs with first
  · exact map_seatByes _ (fun slot entrant next => by simp) _ _
  · rfl

private theorem seated_get {size roundCount index slot : Nat} {byes : List (Nat × EntrantId)}
    {slots : List Match} {m : Match}
    (found : ((laterRounds draw size roundCount).modify 0
      fun next => seatByes next byes)[index]? = some slots) (m_found : slots[slot]? = some m) :
    m.round = index + 2 ∧ m.slot = slot ∧ m.winner = none := by
  have view := congrArg (fun views => views[slot]?) (seated_view found).2
  rw [List.getElem?_map, List.getElem?_map, m_found, Option.map_some] at view
  obtain ⟨position, position_eq, view_eq⟩ := Option.map_eq_some_iff.mp view.symm
  obtain ⟨position_lt, position_val⟩ := List.getElem?_eq_some_iff.mp position_eq
  rw [List.getElem_range] at position_val
  subst position_val
  obtain ⟨round_eq, slot_eq, winner_eq⟩ :
      index + 2 = m.round ∧ slot = m.slot ∧ none = m.winner := by
    simpa using view_eq
  exact ⟨round_eq.symm, slot_eq.symm, winner_eq.symm⟩

private theorem seated_winners {size roundCount index : Nat} {byes : List (Nat × EntrantId)}
    {slots : List Match}
    (found : ((laterRounds draw size roundCount).modify 0
      fun next => seatByes next byes)[index]? = some slots) :
    (pairings slots).map Pairing.winner = List.replicate (size >>> (index + 2)) none := by
  have view := congrArg (List.map fun triple => triple.2.2) (seated_view found).2
  simpa [pairings, Function.comp_def, List.map_const'] using view

/-- The byes of round one fill exactly the entries they feed. -/
private theorem entries_byes {first : List Match} {empty : List Match}
    (blank : entries (pairings empty) = List.replicate first.length none) :
    Feeds (pairings first) (pairings (seatByes empty (byeWinners first))) := by
  rw [Feeds, entries_seatByes, blank, byeWinners_eq]
  have rebuilt := foldl_set_known [] (first.map Match.winner)
  simpa [pairings, Function.comp_def] using rebuilt

/-- Every round of a draw feeds the next: the byes feed round two, and later rounds hold nobody. -/
private theorem draw_feeds {roundCount round : Nat} {first slots next : List Match}
    (first_length : first.length = 2 ^ (roundCount - 1))
    (slots_eq : (first :: (laterRounds draw (2 ^ roundCount) roundCount).modify 0
      fun next => seatByes next (byeWinners first))[round]? = some slots)
    (next_eq : ((laterRounds draw (2 ^ roundCount) roundCount).modify 0
      fun next => seatByes next (byeWinners first))[round]? = some next) :
    Feeds (pairings slots) (pairings next) := by
  have next_lt := (seated_view next_eq).1
  rw [List.getElem?_modify] at next_eq
  obtain ⟨empty, empty_eq, rfl⟩ := Option.map_eq_some_iff.mp next_eq
  obtain ⟨-, rfl⟩ := laterRounds_getElem? draw empty_eq
  cases round with
  | zero =>
      rw [List.getElem?_cons_zero, Option.some.injEq] at slots_eq
      subst slots_eq
      rw [if_pos rfl]
      apply entries_byes
      have half : 2 ^ (roundCount - 1) = 2 * 2 ^ (roundCount - 1 - 1) := two_pow_eq (by omega)
      rw [entries_emptyRound, first_length, two_pow_shiftRight (by omega), half]
      rfl
  | succ round =>
      rw [List.getElem?_cons_succ] at slots_eq
      have half : 2 ^ (roundCount - (round + 2)) = 2 * 2 ^ (roundCount - (round + 1 + 2)) :=
        two_pow_eq (by omega)
      rw [if_neg (by omega), Feeds, entries_emptyRound, seated_winners slots_eq,
        two_pow_shiftRight (by omega), two_pow_shiftRight (by omega), half]

/-- The last round of a draw is one match. -/
private theorem draw_final {roundCount : Nat} {first : List Match} {rounds : List (List Match)}
    (positive : 0 < roundCount) (first_length : first.length = 2 ^ (roundCount - 1))
    (rounds_eq : rounds = first :: (laterRounds draw (2 ^ roundCount) roundCount).modify 0
      fun next => seatByes next (byeWinners first)) :
    rounds.getLast?.map List.length = some 1 := by
  have count : rounds.length = roundCount := by
    rw [rounds_eq, List.length_cons, List.length_modify, laterRounds, List.length_map,
      List.length_range', Nat.sub_add_cancel positive]
  rw [List.getLast?_eq_getElem?, count, rounds_eq]
  obtain ⟨rest, rfl⟩ : ∃ rest, roundCount = rest + 1 := ⟨roundCount - 1, by omega⟩
  cases rest with
  | zero => simpa using first_length
  | succ rest =>
      rw [Nat.add_sub_cancel, List.getElem?_cons_succ]
      have rest_lt : rest < ((laterRounds draw (2 ^ (rest + 1 + 1)) (rest + 1 + 1)).modify 0
          fun next => seatByes next (byeWinners first)).length := by
        simp [laterRounds]
      have found := List.getElem?_eq_getElem rest_lt
      have lengths := congrArg List.length (seated_view found).2
      rw [List.length_map, List.length_map, List.length_range, two_pow_shiftRight (by omega),
        Nat.sub_self, Nat.pow_zero] at lengths
      rw [found, Option.map_some, lengths]

/-- Every draw is coherent over its seed order. -/
theorem coherent_generate (generated : generate draw seeded = .ok bracket) :
    Coherent seeded bracket := by
  obtain ⟨roundCount, first, positive, small, lower, upper, first_eq, rounds_eq⟩ :=
    generate_rounds generated
  have size_half : 2 ^ roundCount = 2 * 2 ^ (roundCount - 1) := two_pow_eq positive
  have first_length : first.length = 2 ^ (roundCount - 1) := by
    rw [first_eq, firstRound_length]
    omega
  obtain ⟨seats, sides⟩ := competitors_firstRound draw (2 ^ roundCount - seeded.length)
    (2 ^ roundCount / 2) 0 seeded (by omega) (by omega)
  rw [← first_eq] at seats sides
  have first_winner := firstRound_winner draw (2 ^ roundCount - seeded.length)
    (2 ^ roundCount / 2) 0 seeded
  rw [← first_eq] at first_winner
  have get_first : ∀ slot m, bracket.get 0 slot = some m → first[slot]? = some m := by
    intro slot m found
    simpa [get, rounds_eq] using found
  have get_later : ∀ round slot m, bracket.get (round + 1) slot = some m →
      m.round = round + 2 ∧ m.slot = slot ∧ m.winner = none := by
    intro round slot m found
    obtain ⟨slots, slots_eq, m_found⟩ := get_eq_some_iff.mp found
    rw [rounds_eq, List.getElem?_cons_succ] at slots_eq
    exact seated_get slots_eq m_found
  refine
    { placed := ?_, sound := ?_, feeds := ?_, ready := ?_, byes := ?_
      opening := ⟨first, by rw [rounds_eq]; rfl, seats⟩
      final := draw_final positive first_length rounds_eq }
  · intro round slot m found
    cases round with
    | zero =>
        have m_found := get_first slot m found
        rw [first_eq] at m_found
        simpa using firstRound_placed draw _ _ 0 seeded slot m m_found
    | succ round =>
        obtain ⟨round_eq, slot_eq, -⟩ := get_later round slot m found
        exact ⟨round_eq, slot_eq⟩
  · intro round slot m found entrant decided
    cases round with
    | zero =>
        have winner_eq := first_winner m (List.mem_of_getElem? (get_first slot m found))
        rw [Match.pairing_winner, winner_eq] at decided
        split_ifs at decided with alone
        exact Or.inl decided
    | succ round =>
        obtain ⟨-, -, undecided⟩ := get_later round slot m found
        rw [Match.pairing_winner, undecided] at decided
        cases decided
  · intro round slots next slots_eq next_eq
    rw [rounds_eq] at slots_eq next_eq
    exact draw_feeds first_length slots_eq next_eq
  · intro round slot m found decided
    obtain ⟨-, -, undecided⟩ := get_later round slot m found
    rw [undecided] at decided
    cases decided
  · intro slot m found
    have member := List.mem_of_getElem? (get_first slot m found)
    refine ⟨sides m member, fun alone => ?_⟩
    rw [first_winner m member, alone]
    rfl

/-- Round one is at most half of the largest field. -/
theorem generate_first_length (generated : generate draw seeded = .ok bracket)
    {first : List Match} (first_eq : bracket.rounds[0]? = some first) :
    2 * first.length ≤ maxEntrants := by
  have fits : seeded.length ≤ maxEntrants := by
    simp only [generate] at generated
    split_ifs at generated with few many
    exact Nat.le_of_not_lt many
  obtain ⟨roundCount, drawn, positive, -, lower, -, drawn_eq, rounds_eq⟩ :=
    generate_rounds generated
  rw [rounds_eq, List.getElem?_cons_zero, Option.some.injEq] at first_eq
  have size_half : 2 ^ roundCount = 2 * 2 ^ (roundCount - 1) := two_pow_eq positive
  have few_rounds : roundCount - 1 < 8 := by
    by_contra many
    have huge : 2 ^ 8 ≤ 2 ^ (roundCount - 1) := Nat.pow_le_pow_right (by omega) (by omega)
    simp only [maxEntrants] at fits
    omega
  have half_le : 2 ^ (roundCount - 1) ≤ 2 ^ 7 := Nat.pow_le_pow_right (by omega) (by omega)
  rw [← first_eq, drawn_eq, firstRound_length, size_half, maxEntrants]
  omega

/-- Round one of a draw seats the seeds over the smallest bracket that takes them all. -/
theorem generate_opening (generated : generate draw seeded = .ok bracket) :
    ∃ roundCount, 0 < roundCount ∧ bracket.rounds.length = roundCount ∧
      2 ^ (roundCount - 1) < seeded.length ∧ seeded.length ≤ 2 ^ roundCount ∧
      bracket.rounds[0]? =
        some (firstRound draw (2 ^ roundCount - seeded.length) (2 ^ roundCount / 2) 0 seeded) := by
  obtain ⟨roundCount, first, positive, -, lower, upper, first_eq, rounds_eq⟩ :=
    generate_rounds generated
  refine ⟨roundCount, positive, ?_, lower, upper, ?_⟩
  · simp only [rounds_eq, laterRounds, List.length_cons, List.length_modify, List.length_map,
      List.length_range']
    omega
  · rw [rounds_eq, List.getElem?_cons_zero, first_eq]

/-- No match after round one of a draw is decided. -/
theorem generate_undecided (generated : generate draw seeded = .ok bracket) {round slot : Nat}
    {m : Match} (found : bracket.get (round + 1) slot = some m) : m.winner = none := by
  obtain ⟨roundCount, first, -, -, -, -, -, rounds_eq⟩ := generate_rounds generated
  obtain ⟨slots, slots_eq, m_found⟩ := get_eq_some_iff.mp found
  rw [rounds_eq, List.getElem?_cons_succ] at slots_eq
  exact (seated_get slots_eq m_found).2.2

/-- A draw holds no result: its only winners are the byes. -/
theorem generate_unplayed (generated : generate draw seeded = .ok bracket) :
    ∀ m ∈ bracket.flat, m.isPlayed = false := by
  obtain ⟨roundCount, first, -, -, -, -, first_eq, rounds_eq⟩ := generate_rounds generated
  intro m member
  obtain ⟨round, slot, found⟩ := mem_flat_iff.mp member
  obtain ⟨slots, slots_eq, m_found⟩ := get_eq_some_iff.mp found
  rw [rounds_eq] at slots_eq
  cases round with
  | zero =>
      rw [List.getElem?_cons_zero, Option.some.injEq] at slots_eq
      subst slots_eq
      have m_mem := List.mem_of_getElem? m_found
      rw [first_eq] at m_mem
      have winner_eq := firstRound_winner _ _ _ _ _ m m_mem
      cases alone : m.entrantB with
      | none => simp [Match.isPlayed, Match.isReady, alone]
      | some entrant => simp [Match.isPlayed, winner_eq, alone]
  | succ round =>
      rw [List.getElem?_cons_succ] at slots_eq
      obtain ⟨-, -, undecided⟩ := seated_get slots_eq m_found
      simp [Match.isPlayed, undecided]

/-- Every field of 2 to `maxEntrants` entrants has a draw. -/
theorem generate_isOk (draw : Nat → MatchId) (two_le : 2 ≤ seeded.length)
    (fits : seeded.length ≤ maxEntrants) : ∃ bracket, generate draw seeded = .ok bracket := by
  have not_few : ¬seeded.length < 2 := by omega
  have not_many : ¬seeded.length > maxEntrants := by omega
  simp [generate, not_few, not_many]

end Draw

/-! ## Everything a draw can become -/

/-- What calls can make of a draw over a seed order, the match ids of the draw being distinct. -/
def Drawn (seeded : List EntrantId) (bracket : Bracket) : Prop :=
  ∃ draw drawn calls, generate draw seeded = .ok drawn ∧ drawn.DistinctIds ∧
    bracket = drawn.playAll calls

namespace Drawn

variable {seeded : List EntrantId} {bracket : Bracket}

theorem of_generate {draw : Nat → MatchId} (generated : generate draw seeded = .ok bracket)
    (ids : bracket.DistinctIds) : Drawn seeded bracket :=
  ⟨draw, bracket, [], generated, ids, rfl⟩

theorem coherent (drawn : Drawn seeded bracket) : Coherent seeded bracket := by
  obtain ⟨draw, start, calls, generated, -, rfl⟩ := drawn
  exact (coherent_generate generated).playAll calls

theorem distinctIds (drawn : Drawn seeded bracket) : bracket.DistinctIds := by
  obtain ⟨draw, start, calls, -, ids, rfl⟩ := drawn
  exact ids.playAll calls

theorem play (drawn : Drawn seeded bracket) (call : Call) : Drawn seeded (bracket.play call) := by
  obtain ⟨draw, start, calls, generated, ids, rfl⟩ := drawn
  refine ⟨draw, start, calls ++ [call], generated, ids, ?_⟩
  rw [playAll, playAll, List.foldl_append]
  rfl

end Drawn

end Bracket
end LanBunker
