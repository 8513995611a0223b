import Mathlib.Data.List.Perm.Basic
import LanBunker.Ordered.Groups
import LanBunker.Brackets.Position

/-!
# Whole brackets

`fromMatches` accepts the rows of a whole bracket, one for each position, in any order, and
nothing else.
-/

namespace LanBunker
namespace Bracket

/-- The rows hold one match for each slot of the rounds 1 to `roundCount`, and no other. -/
def IsWhole (roundCount : Nat) (rows : List Match) : Prop :=
  ∀ round slot, (rows.countP fun m => m.round = round ∧ m.slot = slot) =
    if 1 ≤ round ∧ round ≤ roundCount ∧ slot < 2 ^ (roundCount - round) then 1 else 0

/-- The rows of one round, by slot. -/
def roundOf (rows : List Match) (round : Nat) : List Match :=
  (rows.filter fun m => m.round = round).insertionSort fun left right => left.slot ≤ right.slot

/-- The rounds that the rows of a whole bracket fall into. -/
def roundsOf (roundCount : Nat) (rows : List Match) : List (List Match) :=
  (List.range' 1 roundCount).map (roundOf rows)

/-! ## One round -/

theorem mem_roundOf {rows : List Match} {round : Nat} {m : Match} :
    m ∈ roundOf rows round ↔ m ∈ rows ∧ m.round = round := by
  rw [roundOf, List.mem_insertionSort, List.mem_filter, decide_eq_true_eq]

private theorem sorted_eq_range_iff {slots : List Match} {count : Nat} :
    (slots.insertionSort fun left right => left.slot ≤ right.slot).map Match.slot =
        List.range count ↔
      (slots.map Match.slot).Perm (List.range count) := by
  rw [List.map_insertionSort (s := (· ≤ ·)) _ Match.slot slots fun _ _ _ _ => Iff.rfl]
  have sorted_perm := List.perm_insertionSort (· ≤ ·) (slots.map Match.slot)
  constructor
  · intro sorted
    rw [← sorted]
    exact sorted_perm.symm
  · intro perm
    exact (sorted_perm.trans perm).eq_of_pairwise' (List.pairwise_insertionSort _ _)
      List.pairwise_le_range

private theorem slots_counted_iff {slots : List Match} :
    (slots.zipIdx.all fun (m, slot) => m.slot == slot) = true ↔
      slots.map Match.slot = List.range slots.length := by
  rw [List.all_eq_true]
  constructor
  · intro counted
    refine List.ext_getElem (by simp) fun slot slot_lt _ => ?_
    rw [List.length_map] at slot_lt
    have here := counted (slots[slot], slot)
      (List.mem_zipIdx_iff_getElem?.mpr (List.getElem?_eq_getElem slot_lt))
    simpa using here
  · rintro positions ⟨m, slot⟩ member
    have found := List.mem_zipIdx_iff_getElem?.mp member
    have view := congrArg (fun slots => slots[slot]?) positions
    simp only [List.getElem?_map, found, Option.map_some] at view
    obtain ⟨_, slot_eq⟩ := List.getElem?_eq_some_iff.mp view.symm
    rw [List.getElem_range] at slot_eq
    exact beq_iff_eq.mpr slot_eq.symm

/-- A round is accepted when it is the next one and its slots count from 0. -/
theorem groupRound_ok_iff {index round : Nat} {slots sorted : List Match} :
    groupRound index round slots = .ok sorted ↔
      round = index + 1 ∧
        sorted = (slots.insertionSort fun left right => left.slot ≤ right.slot) ∧
        sorted.map Match.slot = List.range sorted.length := by
  rw [groupRound]
  by_cases next : round = index + 1
  · rw [if_neg (not_not_intro next)]
    constructor
    · intro accepted
      simp only at accepted
      split_ifs at accepted with counted
      obtain rfl := Except.ok.inj accepted
      exact ⟨next, rfl, slots_counted_iff.mp counted⟩
    · rintro ⟨-, rfl, counted⟩
      exact if_pos (slots_counted_iff.mpr counted)
  · rw [if_pos next]
    constructor
    · intro refused
      cases refused
    · intro accepted
      exact absurd accepted.1 next

/-! ## The sizes of the rounds -/

/-- Rounds that halve down to one match have the sizes of a bracket. -/
theorem sizesHalve_iff (rounds : List (List Match)) :
    (rounds.getLast?.map List.length = some 1 ∧ sizesHalve rounds = true) ↔
      rounds ≠ [] ∧ ∀ (index : Nat) (slots : List Match), rounds[index]? = some slots →
        slots.length = 2 ^ (rounds.length - 1 - index) := by
  induction rounds with
  | nil => simp
  | cons head rest ih =>
      cases rest with
      | nil =>
          constructor
          · rintro ⟨final, -⟩
            refine ⟨by simp, fun index slots found => ?_⟩
            obtain ⟨index_lt, rfl⟩ := List.getElem?_eq_some_iff.mp found
            obtain rfl : index = 0 := by simpa using index_lt
            simpa using final
          · rintro ⟨-, sizes⟩
            have final := sizes 0 head rfl
            simpa [sizesHalve] using final
      | cons next rest =>
          have halves : sizesHalve (head :: next :: rest) =
              (head.length == next.length * 2 && sizesHalve (next :: rest)) := rfl
          rw [List.getLast?_cons_cons, halves, Bool.and_eq_true, beq_iff_eq, and_left_comm, ih]
          constructor
          · rintro ⟨half, -, sizes⟩
            refine ⟨by simp, fun index slots found => ?_⟩
            cases index with
            | zero =>
                obtain rfl := Option.some.inj found
                have next_size := sizes 0 next rfl
                simp only [List.length_cons, Nat.add_sub_cancel, Nat.sub_zero] at next_size ⊢
                rw [half, next_size, Nat.pow_succ]
            | succ index =>
                rw [sizes index slots found]
                simp only [List.length_cons]
                congr 1
                omega
          · rintro ⟨-, sizes⟩
            have later : ∀ (index : Nat) (slots : List Match),
                (next :: rest)[index]? = some slots →
                slots.length = 2 ^ ((next :: rest).length - 1 - index) := by
              intro index slots found
              rw [sizes (index + 1) slots found]
              simp only [List.length_cons]
              congr 1
              omega
            refine ⟨?_, by simp, later⟩
            have head_size := sizes 0 head rfl
            have next_size := later 0 next rfl
            simp only [List.length_cons, Nat.add_sub_cancel, Nat.sub_zero] at head_size next_size
            rw [head_size, next_size, Nat.pow_succ]

/-! ## Whole brackets round by round -/

private theorem countP_place (rows : List Match) (round slot : Nat) :
    (rows.countP fun m => m.round = round ∧ m.slot = slot) =
      ((rows.filter fun m => m.round = round).map Match.slot).count slot := by
  rw [List.count, List.countP_map, List.countP_filter]
  refine List.countP_congr fun m _ => ?_
  simp [and_comm]

/-- A whole bracket is whole round by round. -/
theorem isWhole_iff {roundCount : Nat} {rows : List Match} :
    IsWhole roundCount rows ↔
      (∀ m ∈ rows, 1 ≤ m.round ∧ m.round ≤ roundCount) ∧
        ∀ round, 1 ≤ round → round ≤ roundCount →
          (roundOf rows round).map Match.slot = List.range (2 ^ (roundCount - round)) := by
  constructor
  · intro whole
    constructor
    · intro m member
      by_contra outside
      have counted := whole m.round m.slot
      rw [if_neg (by omega), List.countP_eq_zero] at counted
      exact counted m member (by simp)
    · intro round one_le le
      refine sorted_eq_range_iff.mpr (List.perm_iff_count.mpr fun slot => ?_)
      rw [← countP_place, whole, List.count_range]
      simp [one_le, le]
  · rintro ⟨inside, slots⟩ round slot
    rw [countP_place]
    by_cases here : 1 ≤ round ∧ round ≤ roundCount
    · have perm := sorted_eq_range_iff.mp (slots round here.1 here.2)
      rw [perm.count_eq, List.count_range]
      simp [here]
    · rw [if_neg (by omega)]
      have none_here : (rows.filter fun m => m.round = round) = [] := by
        rw [List.filter_eq_nil_iff]
        intro m member same
        rw [decide_eq_true_eq] at same
        exact here (same ▸ inside m member)
      rw [none_here]
      rfl

/-! ## Accepted rows -/

private theorem pushByRound_eq : pushByRound = Ordered.push Match.round := by
  funext entries m
  induction entries with
  | nil => rfl
  | cons entry rest ih =>
      obtain ⟨round, slots⟩ := entry
      rw [pushByRound, Ordered.push, ih]

/-- The entries of a grouping are accepted when their keys count from 1 and each round holds every
slot from 0. -/
private theorem groupRounds_ok_iff {rows : List Match} {entries : List (Nat × List Match)}
    (grouping : Ordered.IsGrouping Match.round rows entries) (rounds : List (List Match)) :
    (entries.zipIdx.mapM fun ((round, slots), index) => groupRound index round slots) =
        .ok rounds ↔
      entries.map Prod.fst = List.range' 1 rounds.length ∧
        rounds = roundsOf rounds.length rows ∧
        ∀ slots ∈ rounds, slots.map Match.slot = List.range slots.length := by
  rw [Ordered.mapM_eq_ok_iff, List.forall₂_iff_get]
  simp only [List.length_zipIdx, List.get_eq_getElem, List.getElem_zipIdx, groupRound_ok_iff]
  constructor
  · rintro ⟨lengths, accepted⟩
    have key_eq : ∀ (index : Nat) (index_lt : index < entries.length),
        entries[index].1 = 1 + index := by
      intro index index_lt
      have round_eq := (accepted index index_lt (lengths ▸ index_lt)).1
      omega
    refine ⟨?_, ?_, ?_⟩
    · refine List.ext_getElem (by simp [lengths]) fun index index_lt _ => ?_
      rw [List.length_map] at index_lt
      rw [List.getElem_map, List.getElem_range', Nat.one_mul, key_eq index index_lt]
    · refine List.ext_getElem (by simp [roundsOf]) fun index index_lt _ => ?_
      have here : index < entries.length := lengths ▸ index_lt
      have held := grouping.entry_eq (List.getElem_mem here)
      rw [(accepted index here index_lt).2.1, held, key_eq index here]
      simp [roundsOf, roundOf]
    · intro slots member
      obtain ⟨index, index_lt, rfl⟩ := List.getElem_of_mem member
      exact (accepted index (lengths ▸ index_lt) index_lt).2.2
  · rintro ⟨keys, rounds_eq, counted⟩
    have lengths : entries.length = rounds.length := by
      simpa using congrArg List.length keys
    refine ⟨lengths, fun index index_lt round_lt => ?_⟩
    have key_eq : entries[index].1 = 1 + index := by
      have view := List.getElem_of_eq keys (i := index) (by simpa using index_lt)
      simpa using view
    have held := grouping.entry_eq (List.getElem_mem index_lt)
    refine ⟨by omega, ?_, counted _ (List.getElem_mem round_lt)⟩
    have view := List.getElem_of_eq rounds_eq round_lt
    rw [view, held, key_eq]
    simp [roundsOf, roundOf]

/-- The rounds of rows have the sizes of a bracket exactly when the rows are whole. -/
private theorem isWhole_iff_rounds {rows : List Match} {entries : List (Nat × List Match)}
    (grouping : Ordered.IsGrouping Match.round rows entries) {roundCount : Nat} :
    IsWhole roundCount rows ↔
      entries.map Prod.fst = List.range' 1 roundCount ∧
        ∀ round, 1 ≤ round → round ≤ roundCount →
          (roundOf rows round).map Match.slot = List.range (2 ^ (roundCount - round)) := by
  rw [isWhole_iff]
  refine and_congr_left fun slots => ?_
  constructor
  · intro inside
    refine grouping.sorted.eq_of_mem_iff (List.pairwise_lt_range' ) fun round => ?_
    rw [grouping.mem_keys, List.mem_range'_1]
    constructor
    · rintro ⟨m, member, rfl⟩
      have here := inside m member
      omega
    · intro here
      have positions := congrArg List.length (slots round here.1 (by omega))
      rw [List.length_map, List.length_range] at positions
      obtain ⟨m, member⟩ := List.exists_mem_of_length_pos
        (positions ▸ Nat.two_pow_pos (roundCount - round))
      exact ⟨m, mem_roundOf.mp member⟩
  · intro keys m member
    have key_mem := grouping.mem_keys.mpr ⟨m, member, rfl⟩
    rw [keys, List.mem_range'_1] at key_mem
    omega

theorem roundsOf_length (roundCount : Nat) (rows : List Match) :
    (roundsOf roundCount rows).length = roundCount := by
  simp [roundsOf]

theorem roundsOf_getElem? {roundCount : Nat} {rows : List Match} {index : Nat}
    {slots : List Match} :
    (roundsOf roundCount rows)[index]? = some slots ↔
      index < roundCount ∧ slots = roundOf rows (index + 1) := by
  rw [roundsOf, List.getElem?_eq_some_iff]
  simp [Nat.add_comm 1, eq_comm]

/-- Rows are accepted when they are whole, and then their rounds are the bracket. -/
theorem fromMatches_ok_iff {rows : List Match} {bracket : Bracket} :
    fromMatches rows = .ok bracket ↔
      ∃ roundCount, 1 ≤ roundCount ∧ IsWhole roundCount rows ∧
        bracket.rounds = roundsOf roundCount rows := by
  have grouping : Ordered.IsGrouping Match.round rows (rows.foldl pushByRound []) := by
    rw [pushByRound_eq]
    exact Ordered.isGrouping_foldl rows
  have sizes_iff := sizesHalve_iff bracket.rounds
  constructor
  · intro accepted
    simp only [fromMatches] at accepted
    cases grouped : (rows.foldl pushByRound []).zipIdx.mapM
        fun ((round, slots), index) => groupRound index round slots with
    | error error => rw [grouped] at accepted; cases accepted
    | ok rounds =>
        obtain ⟨keys, rounds_eq, counted⟩ := (groupRounds_ok_iff grouping rounds).mp grouped
        simp only [grouped, bind, Except.bind] at accepted
        split_ifs at accepted with sizes
        obtain rfl := Except.ok.inj accepted
        rw [not_or, not_ne_iff, Bool.not_eq_false, sizes_iff] at sizes
        refine ⟨rounds.length, List.length_pos_iff.mpr sizes.1, ?_, rounds_eq⟩
        refine (isWhole_iff_rounds grouping).mpr ⟨keys, fun round one_le le => ?_⟩
        have here : rounds[round - 1]? = some (roundOf rows round) := by
          rw [rounds_eq, roundsOf_getElem?]
          exact ⟨by omega, by rw [Nat.sub_add_cancel one_le]⟩
        rw [counted _ (List.mem_of_getElem? here), sizes.2 _ _ here]
        have exponent_eq : rounds.length - 1 - (round - 1) = rounds.length - round := by omega
        exact congrArg (fun exponent => List.range (2 ^ exponent)) exponent_eq
  · rintro ⟨roundCount, positive, whole, rounds_eq⟩
    obtain ⟨keys, slots⟩ := (isWhole_iff_rounds grouping).mp whole
    have length_eq : bracket.rounds.length = roundCount := by rw [rounds_eq, roundsOf_length]
    have size_eq : ∀ (index : Nat) (slots : List Match), bracket.rounds[index]? = some slots →
        slots.map Match.slot = List.range (2 ^ (bracket.rounds.length - 1 - index)) := by
      intro index round found
      rw [rounds_eq, roundsOf_getElem?] at found
      obtain ⟨index_lt, rfl⟩ := found
      rw [slots (index + 1) (by omega) index_lt, length_eq]
      congr 2
      omega
    have sizes := sizes_iff.mpr ⟨List.ne_nil_of_length_pos (length_eq ▸ positive),
      fun index slots found => by simpa using congrArg List.length (size_eq index slots found)⟩
    have grouped := (groupRounds_ok_iff grouping bracket.rounds).mpr
      ⟨length_eq ▸ keys, length_eq ▸ rounds_eq, fun slots member => by
        obtain ⟨index, found⟩ := List.getElem?_of_mem member
        have positions := size_eq index slots found
        have count := congrArg List.length positions
        rw [List.length_map, List.length_range] at count
        rw [positions, count]⟩
    simp only [fromMatches, grouped, bind, Except.bind]
    rw [if_neg]
    rintro (final | halve)
    · exact final sizes.1
    · exact absurd (halve.symm.trans sizes.2) Bool.false_ne_true

/-! ## Whole rows and their bracket -/

namespace IsWhole

variable {roundCount : Nat} {rows others : List Match} {bracket : Bracket}

theorem perm (whole : IsWhole roundCount rows) (perm : others.Perm rows) :
    IsWhole roundCount others := by
  intro round slot
  rw [perm.countP_eq]
  exact whole round slot

/-- The bracket holds each row at its own position, and nothing else. -/
theorem get_iff (whole : IsWhole roundCount rows)
    (rounds_eq : bracket.rounds = roundsOf roundCount rows) {round slot : Nat} {m : Match} :
    bracket.get round slot = some m ↔ m ∈ rows ∧ m.round = round + 1 ∧ m.slot = slot := by
  obtain ⟨inside, positions⟩ := isWhole_iff.mp whole
  have slot_eq : round < roundCount → ∀ (index : Nat) (m : Match),
      (roundOf rows (round + 1))[index]? = some m → m.slot = index := by
    intro round_lt index m found
    have view := congrArg (fun slots => slots[index]?) (positions (round + 1) (by omega) round_lt)
    simp only [List.getElem?_map, found, Option.map_some] at view
    obtain ⟨_, index_eq⟩ := List.getElem?_eq_some_iff.mp view.symm
    rw [List.getElem_range] at index_eq
    exact index_eq.symm
  simp only [get_eq_some_iff, rounds_eq, roundsOf_getElem?]
  constructor
  · rintro ⟨_, ⟨round_lt, rfl⟩, found⟩
    obtain ⟨member, round_eq⟩ := mem_roundOf.mp (List.mem_of_getElem? found)
    exact ⟨member, round_eq, slot_eq round_lt slot m found⟩
  · rintro ⟨member, round_eq, rfl⟩
    have round_lt : round < roundCount := by
      have here := inside m member
      omega
    obtain ⟨index, found⟩ := List.getElem?_of_mem (mem_roundOf.mpr ⟨member, round_eq⟩)
    obtain rfl := slot_eq round_lt index m found
    exact ⟨_, ⟨round_lt, rfl⟩, found⟩

/-- The bracket of whole rows holds every row once. -/
theorem flat_perm (whole : IsWhole roundCount rows)
    (rounds_eq : bracket.rounds = roundsOf roundCount rows) : bracket.flat.Perm rows := by
  have sorted : ((List.range' 1 roundCount).flatMap (roundOf rows)).Perm
      ((List.range' 1 roundCount).flatMap fun round => rows.filter fun m => m.round = round) :=
    List.Perm.flatMap_left _ fun round _ => List.perm_insertionSort _ _
  rw [flat, rounds_eq, roundsOf, ← List.flatMap_def]
  refine sorted.trans (Ordered.flatMap_filter_perm Match.round _ rows (List.nodup_range' 1)
    fun m member => ?_)
  have here := (isWhole_iff.mp whole).1 m member
  rw [List.mem_range'_1]
  omega

/-- Rows in another order are accepted as the same bracket. -/
theorem fromMatches_perm (whole : IsWhole roundCount rows) (positive : 1 ≤ roundCount)
    (rounds_eq : bracket.rounds = roundsOf roundCount rows) (perm : others.Perm rows) :
    fromMatches others = .ok bracket := by
  have others_whole := whole.perm perm
  refine fromMatches_ok_iff.mpr ⟨roundCount, positive, others_whole, ?_⟩
  have same : ∀ other : Bracket, other.rounds = roundsOf roundCount others → bracket = other := by
    intro other other_eq
    refine ext_get (by simp [rounds_eq, other_eq, roundsOf_length]) fun round slot => ?_
    apply Option.ext
    intro m
    rw [whole.get_iff rounds_eq, others_whole.get_iff other_eq, perm.mem_iff]
  exact congrArg rounds (same { rounds := roundsOf roundCount others } rfl)

end IsWhole

/-- `fromMatches` accepts exactly the whole brackets.  On success every match is at its own round
and slot, the bracket holds the rows and nothing else, and neither another order of the rows nor
reading the bracket's own rows back makes a difference. -/
theorem fromMatches_whole (rows : List Match) :
    ((∃ bracket, fromMatches rows = .ok bracket) ↔
        ∃ roundCount, 1 ≤ roundCount ∧ IsWhole roundCount rows) ∧
      ∀ bracket, fromMatches rows = .ok bracket →
        (∀ round slot m, bracket.get round slot = some m ↔
          m ∈ rows ∧ m.round = round + 1 ∧ m.slot = slot) ∧
        bracket.flat.Perm rows ∧
        (∀ others : List Match, others.Perm rows → fromMatches others = .ok bracket) ∧
        fromMatches bracket.flat = .ok bracket := by
  constructor
  · constructor
    · rintro ⟨bracket, accepted⟩
      obtain ⟨roundCount, positive, whole, -⟩ := fromMatches_ok_iff.mp accepted
      exact ⟨roundCount, positive, whole⟩
    · rintro ⟨roundCount, positive, whole⟩
      exact ⟨_, whole.fromMatches_perm positive rfl (.refl rows)⟩
  · intro bracket accepted
    obtain ⟨roundCount, positive, whole, rounds_eq⟩ := fromMatches_ok_iff.mp accepted
    have flat_perm := whole.flat_perm rounds_eq
    refine ⟨fun round slot m => whole.get_iff rounds_eq, flat_perm, fun others perm => ?_, ?_⟩
    · exact whole.fromMatches_perm positive rounds_eq perm
    · exact whole.fromMatches_perm positive rounds_eq flat_perm

/-- Three rows, the final first. -/
theorem fromMatches_whole_three :
    ∃ bracket, fromMatches [⟨⟨2⟩, 2, 0, some ⟨10⟩, none, none⟩,
        ⟨⟨1⟩, 1, 1, some ⟨11⟩, some ⟨12⟩, none⟩, ⟨⟨0⟩, 1, 0, some ⟨10⟩, none, some ⟨10⟩⟩] =
        .ok bracket ∧ fromMatches bracket.flat = .ok bracket := by
  have accepted : fromMatches [⟨⟨2⟩, 2, 0, some ⟨10⟩, none, none⟩,
      ⟨⟨1⟩, 1, 1, some ⟨11⟩, some ⟨12⟩, none⟩, ⟨⟨0⟩, 1, 0, some ⟨10⟩, none, some ⟨10⟩⟩] =
      .ok { rounds := [[⟨⟨0⟩, 1, 0, some ⟨10⟩, none, some ⟨10⟩⟩,
        ⟨⟨1⟩, 1, 1, some ⟨11⟩, some ⟨12⟩, none⟩], [⟨⟨2⟩, 2, 0, some ⟨10⟩, none, none⟩]] } := by
    decide
  exact ⟨_, accepted, ((fromMatches_whole _).2 _ accepted).2.2.2⟩

end Bracket
end LanBunker
