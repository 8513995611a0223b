import Mathlib.Algebra.BigOperators.Group.List.Basic
import LanBunker.Brackets.Grouping
import LanBunker.Brackets.Representation

/-!
# Brackets as rows

Storage keeps the matches of a bracket as flat rows.  Reading the rows of a coherent bracket back
gives the bracket, and the rows a result changed are enough to redo the result on the bracket that
is stored then.
-/

namespace LanBunker
namespace Bracket

open Knockout

variable {seeded : List EntrantId} {bracket : Bracket}

/-! ## The size of a bracket -/

section Size

variable (coherent : Coherent seeded bracket)

include coherent

/-- A coherent bracket as a chain of rounds that ends in one pairing. -/
private theorem Coherent.chain : ∃ first rest, bracket.rounds = first :: rest ∧
    (pairings first :: rest.map pairings).IsChain Feeds ∧
    ((pairings first :: rest.map pairings).getLast (by simp)).length = 1 := by
  obtain ⟨first, rest, rounds_eq, -⟩ := coherent.rounds_eq
  have feeds := coherent.isKnockout.feeds
  have final := coherent.final
  rw [knockout, rounds_eq, List.map_cons] at feeds
  rw [rounds_eq, List.getLast?_eq_some_getLast (by simp), Option.map_some,
    Option.some.injEq] at final
  refine ⟨first, rest, rounds_eq, feeds, ?_⟩
  have last := List.getLast_map (f := pairings) (l := first :: rest) (by simp)
  simp only [List.map_cons] at last
  rw [last, pairings, List.length_map, final]

theorem Coherent.round_ne_nil {slots : List Match} (member : slots ∈ bracket.rounds) :
    slots ≠ [] := by
  obtain ⟨first, rest, rounds_eq, feeds, last⟩ := coherent.chain
  have nonempty := ne_nil_of_last feeds last (pairings slots)
    (by rw [← List.map_cons, ← rounds_eq]; exact List.mem_map_of_mem member)
  rintro rfl
  exact nonempty rfl

theorem Coherent.flat_ne_nil : bracket.flat ≠ [] := by
  obtain ⟨first, rest, rounds_eq, -⟩ := coherent.rounds_eq
  have first_ne := coherent.round_ne_nil (rounds_eq ▸ List.mem_cons_self)
  rw [flat, rounds_eq, List.flatten_cons]
  simpa using fun empty => absurd empty first_ne

/-- No match stands in a later round than there are matches. -/
theorem Coherent.round_le {m : Match} (member : m ∈ bracket.flat) :
    m.round ≤ bracket.flat.length := by
  obtain ⟨round, slot, found⟩ := mem_flat_iff.mp member
  obtain ⟨slots, slots_eq, -⟩ := get_eq_some_iff.mp found
  have short : bracket.rounds.length ≤ bracket.flat.length := by
    rw [flat, List.length_flatten, ← List.length_map List.length]
    refine List.length_le_sum_of_one_le _ fun size size_mem => ?_
    obtain ⟨slots, slots_mem, rfl⟩ := List.mem_map.mp size_mem
    exact List.length_pos_of_ne_nil (coherent.round_ne_nil slots_mem)
  have there := (List.getElem?_eq_some_iff.mp slots_eq).1
  have placed := (coherent.placed round slot m found).1
  omega

/-- A bracket has twice as many matches as round one, less one. -/
theorem Coherent.flat_length {first : List Match} (first_eq : bracket.rounds[0]? = some first) :
    bracket.flat.length + 1 = 2 * first.length := by
  obtain ⟨head, rest, rounds_eq, feeds, last⟩ := coherent.chain
  rw [rounds_eq, List.getElem?_cons_zero, Option.some.injEq] at first_eq
  have total := flatten_length feeds last
  rw [← List.map_cons, ← rounds_eq] at total
  have flat_eq : (bracket.rounds.map pairings).flatten.length = bracket.flat.length := by
    simp [flat, pairings, List.length_flatten, Function.comp_def]
  rw [← flat_eq, total, pairings, List.length_map, first_eq]

end Size

/-- A bracket is read whole: it has fewer matches than one read returns. -/
theorem Drawn.flat_length (drawn : Drawn seeded bracket) : bracket.flat.length < maxEntrants := by
  obtain ⟨draw, start, calls, generated, -, rfl⟩ := drawn
  have coherent := coherent_generate generated
  obtain ⟨first, first_eq, -⟩ := coherent.opening
  have half := generate_first_length generated first_eq
  have size := coherent.flat_length first_eq
  have same := congrArg List.length (playAll_flat_ids start calls)
  rw [List.length_map, List.length_map] at same
  omega

/-! ## Reading the rows back -/

section Reading

/-- The rows of one round, taken out of all rounds. -/
private theorem filter_flatten {rounds : List (List Match)} {start : Nat}
    (placed : ∀ index slots, rounds[index]? = some slots → ∀ m ∈ slots, m.round = start + index)
    {index : Nat} {slots : List Match} (found : rounds[index]? = some slots) :
    (rounds.flatten.filter fun m => m.round = start + index) = slots := by
  induction rounds generalizing start index with
  | nil => cases found
  | cons head rest ih =>
      have later : ∀ index slots, rest[index]? = some slots →
          ∀ m ∈ slots, m.round = start + 1 + index := by
        intro index slots found m member
        have round_eq := placed (index + 1) slots found m member
        omega
      rw [List.flatten_cons, List.filter_append]
      cases index with
      | zero =>
          obtain rfl := Option.some.inj found
          have own : (head.filter fun m => m.round = start + 0) = head :=
            List.filter_eq_self.mpr fun m member => decide_eq_true (placed 0 head rfl m member)
          have others : (rest.flatten.filter fun m => m.round = start + 0) = [] := by
            rw [List.filter_eq_nil_iff]
            intro m member here
            obtain ⟨slots, slots_mem, m_mem⟩ := List.mem_flatten.mp member
            obtain ⟨index, slots_eq⟩ := List.getElem?_of_mem slots_mem
            have round_eq := later index slots slots_eq m m_mem
            have same := of_decide_eq_true here
            omega
          rw [own, others, List.append_nil]
      | succ index =>
          have others : (head.filter fun m => m.round = start + (index + 1)) = [] := by
            rw [List.filter_eq_nil_iff]
            intro m member here
            have round_eq := placed 0 head rfl m member
            have same := of_decide_eq_true here
            omega
          have next : start + (index + 1) = start + 1 + index := by omega
          rw [others, List.nil_append, next]
          exact ih later found

/-- The rows of one round of a coherent bracket. -/
theorem Coherent.filter_flat (coherent : Coherent seeded bracket) {round : Nat}
    {slots : List Match} (found : bracket.rounds[round]? = some slots) :
    (bracket.flat.filter fun m => m.round = round + 1) = slots := by
  rw [Nat.add_comm round 1]
  refine filter_flatten (fun index slots found m member => ?_) found
  obtain ⟨slot, m_found⟩ := List.getElem?_of_mem member
  have placed := coherent.placed index slot m (get_eq_some_iff.mpr ⟨slots, found, m_found⟩)
  omega

/-- The slots of a round are its positions. -/
theorem Coherent.slots_eq (coherent : Coherent seeded bracket) {round : Nat}
    {slots : List Match} (found : bracket.rounds[round]? = some slots) :
    slots.map Match.slot = List.range slots.length := by
  refine List.ext_getElem (by simp) fun slot slot_lt _ => ?_
  rw [List.length_map] at slot_lt
  have here := get_eq_some_iff.mpr ⟨slots, found, List.getElem?_eq_getElem slot_lt⟩
  rw [List.getElem_map, List.getElem_range, (coherent.placed round slot _ here).2]

/-- A round is sorted by slot. -/
theorem Coherent.roundOf_flat (coherent : Coherent seeded bracket) {round : Nat}
    {slots : List Match} (found : bracket.rounds[round]? = some slots) :
    roundOf bracket.flat (round + 1) = slots := by
  rw [roundOf, coherent.filter_flat found]
  have sorted : (slots.map Match.slot).Pairwise (· ≤ ·) := by
    rw [coherent.slots_eq found]
    exact List.pairwise_le_range
  exact List.Pairwise.insertionSort_eq (List.pairwise_map.mp sorted)

theorem Coherent.sizesHalve (coherent : Coherent seeded bracket) :
    sizesHalve bracket.rounds = true := by
  rw [Bracket.sizesHalve, List.all_eq_true]
  rintro ⟨slots, next⟩ member
  obtain ⟨index, found⟩ := List.getElem?_of_mem member
  rw [List.getElem?_zip_eq_some, List.getElem?_tail] at found
  have lengths := (coherent.feeds index slots next found.1 found.2).length
  simp only [pairings, List.length_map] at lengths
  simp only [lengths, beq_iff_eq]
  omega

/-- The rounds of a coherent bracket have the sizes of a bracket. -/
theorem Coherent.sizes (coherent : Coherent seeded bracket) {round : Nat} {slots : List Match}
    (found : bracket.rounds[round]? = some slots) :
    slots.length = 2 ^ (bracket.rounds.length - 1 - round) :=
  ((sizesHalve_iff bracket.rounds).mp ⟨coherent.final, coherent.sizesHalve⟩).2 round slots found

/-- The rows of a coherent bracket are read back as that bracket. -/
theorem Coherent.fromMatches_flat (coherent : Coherent seeded bracket) :
    fromMatches bracket.flat = .ok bracket := by
  refine fromMatches_ok_iff.mpr ⟨bracket.rounds.length, ?_, isWhole_iff.mpr ⟨?_, ?_⟩, ?_⟩
  · obtain ⟨first, rest, rounds_eq, -⟩ := coherent.rounds_eq
    simp [rounds_eq]
  · intro m member
    obtain ⟨round, slot, found⟩ := mem_flat_iff.mp member
    obtain ⟨slots, slots_eq, -⟩ := get_eq_some_iff.mp found
    have there := (List.getElem?_eq_some_iff.mp slots_eq).1
    have placed := (coherent.placed round slot m found).1
    omega
  · intro round one_le le
    obtain ⟨index, rfl⟩ := Nat.exists_eq_add_of_le' one_le
    have found := List.getElem?_eq_getElem (l := bracket.rounds) (i := index) (by omega)
    rw [coherent.roundOf_flat found, coherent.slots_eq found, coherent.sizes found]
    congr 2
    omega
  · refine List.ext_getElem? fun index => Option.ext fun slots => ?_
    rw [roundsOf_getElem?]
    constructor
    · intro found
      exact ⟨(List.getElem?_eq_some_iff.mp found).1, (coherent.roundOf_flat found).symm⟩
    · rintro ⟨index_lt, rfl⟩
      have found := List.getElem?_eq_getElem index_lt
      rw [coherent.roundOf_flat found, found]

/-- A row order by round and slot. -/
def RowBefore (left right : Match) : Prop :=
  left.round < right.round ∨ left.round = right.round ∧ left.slot < right.slot

/-- The rows of a coherent bracket are in round and slot order. -/
theorem Coherent.flat_ordered (coherent : Coherent seeded bracket) :
    bracket.flat.Pairwise RowBefore := by
  rw [flat, List.pairwise_flatten]
  constructor
  · intro slots member
    obtain ⟨index, found⟩ := List.getElem?_of_mem member
    rw [List.pairwise_iff_getElem]
    intro left right left_lt right_lt lt
    have left_placed := coherent.placed index left _
      (get_eq_some_iff.mpr ⟨slots, found, List.getElem?_eq_getElem left_lt⟩)
    have right_placed := coherent.placed index right _
      (get_eq_some_iff.mpr ⟨slots, found, List.getElem?_eq_getElem right_lt⟩)
    exact Or.inr (by omega)
  · rw [List.pairwise_iff_getElem]
    intro left right left_lt right_lt lt m m_mem other other_mem
    obtain ⟨slot, m_found⟩ := List.getElem?_of_mem m_mem
    obtain ⟨otherSlot, other_found⟩ := List.getElem?_of_mem other_mem
    have left_placed := coherent.placed left slot m
      (get_eq_some_iff.mpr ⟨_, List.getElem?_eq_getElem left_lt, m_found⟩)
    have right_placed := coherent.placed right otherSlot other
      (get_eq_some_iff.mpr ⟨_, List.getElem?_eq_getElem right_lt, other_found⟩)
    exact Or.inl (by omega)

/-- Round one of the rows seats the seed order. -/
theorem Coherent.opening_flat (coherent : Coherent seeded bracket) :
    ((bracket.flat.filter fun m => m.round = 1).flatMap fun m =>
      m.entrantA.toList ++ m.entrantB.toList) = seeded := by
  obtain ⟨first, rest, rounds_eq, seats⟩ := coherent.rounds_eq
  have first_eq : bracket.rounds[0]? = some first := by simp [rounds_eq]
  rw [coherent.filter_flat first_eq, ← seats]
  simp [competitors, pairings, List.flatMap_map, Pairing.competitors]

end Reading

/-! ## Calls on the rows -/

/-- What a call answers, and the bracket it leaves behind. -/
def result (bracket : Bracket) : Call → Except BracketError (List Match) × Bracket
  | .report id winner => bracket.report id winner
  | .clear id => bracket.clear id

theorem play_eq (bracket : Bracket) (call : Call) :
    bracket.play call = (bracket.result call).2 := by
  cases call <;> rfl

/-- The match a call is about. -/
def Call.matchId : Call → MatchId
  | .report id _ => id
  | .clear id => id

/-- The result a call enters in a match: a side of it, or nothing where there was a winner. -/
def Call.Enters (m : Match) (winner : Option EntrantId) : Call → Prop
  | .report _ side => (m.entrantA = some side ∨ m.entrantB = some side) ∧ winner = some side
  | .clear _ => m.winner.isSome ∧ winner = none

section Result

/-- Every outcome of a call: a refusal, nothing to do, or one result entered. -/
theorem result_cases (bracket : Bracket) (call : Call) :
    (∃ error, bracket.result call = (.error error, bracket)) ∨
      bracket.result call = (.ok [], bracket) ∨
      ∃ round slot m winner, m.id = call.matchId ∧ bracket.Enterable round slot m ∧
        call.Enters m winner ∧
        bracket.result call =
          (.ok ((bracket.enter round slot winner).changed round slot),
            bracket.enter round slot winner) := by
  cases call with
  | report id side =>
      rcases report_cases bracket id side with
        refused | ⟨round, slot, m, -, id_eq, enterable, known, entered⟩
      · exact Or.inl refused
      · exact Or.inr (Or.inr ⟨round, slot, m, some side, id_eq, enterable, ⟨known, rfl⟩, entered⟩)
  | clear id =>
      rcases clear_cases bracket id with
        refused | untouched | ⟨round, slot, m, -, id_eq, enterable, decided, entered⟩
      · exact Or.inl refused
      · exact Or.inr (Or.inl untouched)
      · exact Or.inr (Or.inr ⟨round, slot, m, none, id_eq, enterable, ⟨decided, rfl⟩, entered⟩)

/-- A call that may enter its result does. -/
theorem result_of_enters (ids : bracket.DistinctIds) {call : Call} {round slot : Nat} {m : Match}
    {winner : Option EntrantId} (id_eq : m.id = call.matchId)
    (enterable : bracket.Enterable round slot m) (enters : call.Enters m winner) :
    bracket.result call =
      (.ok ((bracket.enter round slot winner).changed round slot),
        bracket.enter round slot winner) := by
  have located := ids.locate_eq enterable.found
  have guarded : bracket.guardNextUndecided round slot m.id = .ok () :=
    guardNextUndecided_ok_iff.mpr enterable.next
  have ready := enterable.ready
  cases call with
  | report id side =>
      obtain rfl : m.id = id := id_eq
      obtain ⟨known, rfl⟩ := enters
      have a_side : ¬(m.entrantA ≠ some side ∧ m.entrantB ≠ some side) := by
        rintro ⟨not_a, not_b⟩
        exact known.elim not_a not_b
      simp only [result, report, located, enterable.found, ready, Bool.true_eq_false, if_false,
        if_neg a_side, guarded]
  | clear id =>
      obtain rfl : m.id = id := id_eq
      obtain ⟨decided, rfl⟩ := enters
      have not_open : ¬m.winner.isNone := by
        rw [Option.isNone_iff_eq_none]
        intro undecided
        simp [undecided] at decided
      simp only [result, clear, located, enterable.found, ready, Bool.true_eq_false, if_false,
        if_neg not_open, guarded]

end Result

/-- Two brackets whose rows agree in all that a call cannot change. -/
def SameRows (left right : Bracket) : Prop :=
  left.flat.map (fun m => (m.id, m.round, m.slot)) =
    right.flat.map fun m => (m.id, m.round, m.slot)

section Redo

variable {otherSeeded : List EntrantId} {read stored : Bracket}

theorem SameRows.play (bracket : Bracket) (call : Call) : SameRows (bracket.play call) bracket :=
  play_flat_map (fun _ _ => rfl) (fun m slot entrant => by simp) bracket call

theorem SameRows.symm (same : SameRows read stored) : SameRows stored read := Eq.symm same

/-- The same position of both brackets holds the same match id. -/
theorem SameRows.get (same : SameRows read stored) (read_coherent : Coherent seeded read)
    (stored_coherent : Coherent otherSeeded stored) {round slot : Nat} {m : Match}
    (found : read.get round slot = some m) :
    ∃ other, stored.get round slot = some other ∧ other.id = m.id := by
  have member : (m.id, m.round, m.slot) ∈ read.flat.map fun m => (m.id, m.round, m.slot) :=
    List.mem_map_of_mem (f := fun m : Match => (m.id, m.round, m.slot))
      (mem_flat_iff.mpr ⟨round, slot, found⟩)
  rw [same] at member
  obtain ⟨other, other_mem, view⟩ := List.mem_map.mp member
  obtain ⟨otherRound, otherSlot, other_found⟩ := mem_flat_iff.mp other_mem
  obtain ⟨id_eq, round_eq, slot_eq⟩ : other.id = m.id ∧ other.round = m.round ∧
      other.slot = m.slot := by simpa using view
  have placed := read_coherent.placed round slot m found
  have other_placed := stored_coherent.placed otherRound otherSlot other other_found
  obtain rfl : otherRound = round := by omega
  obtain rfl : otherSlot = slot := by omega
  exact ⟨other, other_found, id_eq⟩

/-- The rows with one match written over the row of its id. -/
def overwrite (rows : List Match) (after : Match) : List Match :=
  rows.map fun row => if row.id = after.id then after else row

theorem overwrite_ids (rows : List Match) (after : Match) :
    (overwrite rows after).map Match.id = rows.map Match.id := by
  rw [overwrite, List.map_map]
  refine List.map_congr_left fun row _ => ?_
  simp only [Function.comp_apply]
  split_ifs with same
  · exact same.symm
  · rfl

theorem mem_overwrite_of_ne {rows : List Match} {after m : Match} (member : m ∈ rows)
    (other : m.id ≠ after.id) : m ∈ overwrite rows after :=
  List.mem_map.mpr ⟨m, member, if_neg other⟩

private theorem overwrite_of_absent {rows : List Match} {after : Match}
    (absent : after.id ∉ rows.map Match.id) : overwrite rows after = rows := by
  refine (List.map_congr_left fun row member => ?_).trans (List.map_id' rows)
  rw [if_neg]
  intro same
  exact absent (same ▸ List.mem_map_of_mem member)

private theorem modify_eq_overwrite {rows : List Match} (ids : (rows.map Match.id).Nodup)
    {slot : Nat} {m : Match} (found : rows[slot]? = some m) {write : Match → Match}
    (keeps : (write m).id = m.id) : rows.modify slot write = overwrite rows (write m) := by
  induction rows generalizing slot with
  | nil => simp [overwrite]
  | cons row rows ih =>
      obtain ⟨not_later, ids⟩ := List.nodup_cons.mp ids
      cases slot with
      | zero =>
          rw [List.getElem?_cons_zero, Option.some.injEq] at found
          subst found
          have rest : overwrite rows (write row) = rows := overwrite_of_absent (keeps ▸ not_later)
          rw [overwrite] at rest
          rw [List.modify_zero_cons, overwrite, List.map_cons, if_pos keeps.symm, rest]
      | succ slot =>
          rw [List.getElem?_cons_succ] at found
          have later : m.id ∈ rows.map Match.id :=
            List.mem_map_of_mem (List.mem_of_getElem? found)
          rw [List.modify_succ_cons, ih ids found, overwrite, overwrite, List.map_cons, if_neg]
          intro same
          exact not_later (same ▸ keeps ▸ later)

private theorem flatten_modify_eq_overwrite {rounds : List (List Match)}
    (ids : (rounds.flatten.map Match.id).Nodup) {round slot : Nat} {slots : List Match} {m : Match}
    (slots_eq : rounds[round]? = some slots) (found : slots[slot]? = some m)
    {write : Match → Match} (keeps : (write m).id = m.id) :
    (rounds.modify round fun slots => slots.modify slot write).flatten =
      overwrite rounds.flatten (write m) := by
  induction rounds generalizing round with
  | nil => simp [overwrite]
  | cons head rounds ih =>
      rw [List.flatten_cons, List.map_append] at ids
      obtain ⟨head_ids, rest_ids, disjoint⟩ := List.nodup_append'.mp ids
      have split : overwrite (head :: rounds).flatten (write m) =
          overwrite head (write m) ++ overwrite rounds.flatten (write m) := by
        rw [List.flatten_cons, overwrite, List.map_append, overwrite, overwrite]
      cases round with
      | zero =>
          rw [List.getElem?_cons_zero, Option.some.injEq] at slots_eq
          subst slots_eq
          have here : m.id ∈ head.map Match.id :=
            List.mem_map_of_mem (List.mem_of_getElem? found)
          have rest : overwrite rounds.flatten (write m) = rounds.flatten :=
            overwrite_of_absent (keeps ▸ disjoint here)
          rw [split, rest, List.modify_zero_cons, List.flatten_cons,
            modify_eq_overwrite head_ids found keeps]
      | succ round =>
          rw [List.getElem?_cons_succ] at slots_eq
          have in_slots : m ∈ slots := List.mem_of_getElem? found
          have later : m.id ∈ rounds.flatten.map Match.id := List.mem_map_of_mem
            (List.mem_flatten.mpr ⟨slots, List.mem_of_getElem? slots_eq, in_slots⟩)
          have first : overwrite head (write m) = head :=
            overwrite_of_absent fun here => disjoint (keeps ▸ here) later
          rw [split, first, List.modify_succ_cons, List.flatten_cons, ih rest_ids slots_eq]

/-- A write at one position, on the rows. -/
theorem flat_modify (ids : bracket.DistinctIds) {round slot : Nat} {m : Match}
    (found : bracket.get round slot = some m) {write : Match → Match}
    (keeps : (write m).id = m.id) :
    (bracket.modify round slot write).flat = overwrite bracket.flat (write m) := by
  obtain ⟨slots, slots_eq, m_found⟩ := get_eq_some_iff.mp found
  exact flatten_modify_eq_overwrite ids slots_eq m_found keeps

/-- The two matches a result can change: the match itself, and the one it feeds. -/
theorem changed_enter {round slot : Nat} {m : Match} (found : bracket.get round slot = some m)
    (winner : Option EntrantId) :
    (bracket.enter round slot winner).changed round slot =
      { m with winner } ::
        ((bracket.get (round + 1) (slot / 2)).map (Match.fed slot winner)).toList := by
  rw [changed, get_enter, get_enter, found, Option.map_some, entered_self]
  cases bracket.get (round + 1) (slot / 2) with
  | none => rfl
  | some next => rw [Option.map_some, Option.map_some, entered_next]; rfl

/-- The rows after a result are the rows before it, with the changed matches written over. -/
theorem flat_enter (ids : bracket.DistinctIds) {round slot : Nat} {m : Match}
    (found : bracket.get round slot = some m) (winner : Option EntrantId) :
    (bracket.enter round slot winner).flat =
      ((bracket.enter round slot winner).changed round slot).foldl overwrite bracket.flat := by
  have here : (bracket.modify round slot fun m => { m with winner }).flat =
      overwrite bracket.flat { m with winner } := flat_modify ids found rfl
  have still_ids : (bracket.modify round slot fun m => { m with winner }).DistinctIds := by
    rw [DistinctIds, here, overwrite_ids]
    exact ids
  have next_eq : (bracket.modify round slot fun m => { m with winner }).get (round + 1) (slot / 2) =
      bracket.get (round + 1) (slot / 2) := by
    rw [get_modify]
    cases bracket.get (round + 1) (slot / 2) with
    | none => rfl
    | some next => simp
  rw [changed_enter found, enter, feed]
  cases next_found : bracket.get (round + 1) (slot / 2) with
  | none => rw [modify_of_get_eq_none (next_eq.trans next_found), here]; rfl
  | some next =>
      rw [flat_modify still_ids (next_eq.trans next_found) (next.fed_id slot winner), here]
      rfl

/-- Brackets of the same rows agree on a position when the match of one is the match of the
other. -/
theorem SameRows.get_eq (same : SameRows read stored) (read_coherent : Coherent seeded read)
    (stored_coherent : Coherent otherSeeded stored) {round slot : Nat}
    (agree : ∀ m, read.get round slot = some m → stored.get round slot = some m) :
    read.get round slot = stored.get round slot := by
  cases found : read.get round slot with
  | some m => exact (agree m found).symm
  | none =>
      cases stored_found : stored.get round slot with
      | none => rfl
      | some m =>
          obtain ⟨other, other_found, -⟩ :=
            same.symm.get stored_coherent read_coherent stored_found
          rw [found] at other_found
          cases other_found

/-- A result that was read off one bracket is accepted by another, and changes the same matches,
when the two agree on the match and on the one it feeds. -/
theorem redo (ids : stored.DistinctIds) {call : Call} {round slot : Nat} {m : Match}
    {winner : Option EntrantId} (id_eq : m.id = call.matchId)
    (enterable : read.Enterable round slot m) (enters : call.Enters m winner)
    (here : stored.get round slot = some m)
    (next_eq : read.get (round + 1) (slot / 2) = stored.get (round + 1) (slot / 2)) :
    stored.result call =
      (.ok ((read.enter round slot winner).changed round slot),
        stored.enter round slot winner) := by
  have changed_eq : (read.enter round slot winner).changed round slot =
      (stored.enter round slot winner).changed round slot := by
    rw [changed_enter enterable.found, changed_enter here, next_eq]
  rw [changed_eq]
  refine result_of_enters ids id_eq ⟨here, enterable.ready, fun next found => ?_⟩ enters
  exact enterable.next next (next_eq.trans found)

/-- A result entered in two brackets makes them one only if they were one, where they agree on the
match and on the one it feeds. -/
theorem enter_inj {left right : Bracket} {round slot : Nat} {winner : Option EntrantId}
    (here : left.get round slot = right.get round slot)
    (next : left.get (round + 1) (slot / 2) = right.get (round + 1) (slot / 2))
    (same : left.enter round slot winner = right.enter round slot winner) : left = right := by
  have lengths : ∀ bracket : Bracket,
      (bracket.enter round slot winner).rounds.length = bracket.rounds.length := by
    intro bracket
    simp [enter, feed, modify]
  refine ext_get ?_ fun otherRound otherSlot => ?_
  · rw [← lengths left, ← lengths right, same]
  · by_cases is_here : otherRound = round ∧ otherSlot = slot
    · obtain ⟨rfl, rfl⟩ := is_here
      exact here
    by_cases is_next : otherRound = round + 1 ∧ otherSlot = slot / 2
    · obtain ⟨rfl, rfl⟩ := is_next
      exact next
    have untouched : entered round slot winner otherRound otherSlot = id := by
      funext m
      rw [entered, if_neg is_here, if_neg is_next, id]
    have there := congrArg (fun bracket => bracket.get otherRound otherSlot) same
    simpa only [get_enter, untouched, Option.map_id, id] using there

end Redo
end Bracket
end LanBunker
