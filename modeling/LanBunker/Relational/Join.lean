import Mathlib.Algebra.BigOperators.Group.List.Basic
import Mathlib.Algebra.Order.Ring.Int
import LanBunker.Ordered.Groups
import LanBunker.Relational.Lookup

/-!
# Joins, counts and sums on a key

The joins of two tables as nested loops.  On a key that no two rows share a join is a lookup.
Counts and sums by key add up to the whole when every key of a row is listed once.
-/

namespace Relational

variable {α β κ : Type*}

/-- `join others on matching`, row by row. -/
def innerJoin (rows : List α) (others : List β) (matching : α → β → Bool) : List (α × β) :=
  rows.flatMap fun row => (others.filter (matching row)).map fun other => (row, other)

theorem mem_innerJoin {rows : List α} {others : List β} {matching : α → β → Bool} {row : α}
    {other : β} :
    (row, other) ∈ innerJoin rows others matching ↔
      row ∈ rows ∧ other ∈ others ∧ matching row other := by
  simp only [innerJoin, List.mem_flatMap, List.mem_map, List.mem_filter, Prod.mk.injEq]
  constructor
  · rintro ⟨_, row_mem, _, ⟨other_mem, matches_row⟩, rfl, rfl⟩
    exact ⟨row_mem, other_mem, matches_row⟩
  · rintro ⟨row_mem, other_mem, matches_row⟩
    exact ⟨row, row_mem, other, ⟨other_mem, matches_row⟩, rfl, rfl⟩

/-- A join that finds at most one partner for a row. -/
theorem innerJoin_eq_filterMap {rows : List α} {others : List β} {matching : α → β → Bool}
    {partner : α → Option β}
    (found : ∀ row ∈ rows, others.filter (matching row) = (partner row).toList) :
    innerJoin rows others matching =
      rows.filterMap fun row => (partner row).map fun other => (row, other) := by
  induction rows with
  | nil => rfl
  | cons row rows ih =>
      have rest := ih fun row member => found row (List.mem_cons_of_mem _ member)
      rw [innerJoin, List.flatMap_cons, found row List.mem_cons_self, ← innerJoin, rest,
        List.filterMap_cons]
      cases partner row with
      | none => rfl
      | some other => rfl

/-- The rows that a join on a key found for one partner. -/
theorem filter_innerJoin [DecidableEq κ] {rows : List α} {others : List β} {key : α → Option κ}
    {id : β → κ} (ids : (others.map id).Nodup) {other : β} (member : other ∈ others) :
    (innerJoin rows others fun row other => key row = some (id other)).filter
        (fun pair => key pair.1 = some (id other)) =
      (rows.filter fun row => key row = some (id other)).map fun row => (row, other) := by
  induction rows with
  | nil => rfl
  | cons row rows ih =>
      rw [innerJoin, List.flatMap_cons, ← innerJoin, List.filter_append, ih, List.filter_cons,
        List.filter_map]
      by_cases here : key row = some (id other)
      · have found : (others.filter fun other => decide (key row = some (id other))) = [other] := by
          refine filter_eq_singleton ids member (decide_eq_true here)
            fun found other_mem named => ?_
          exact Option.some.inj ((of_decide_eq_true named).symm.trans here)
        rw [found, if_pos (decide_eq_true here)]
        simp [here]
      · rw [if_neg (by simpa using here)]
        simp [here]

/-- `left join others on matching`: a row without a partner stays, with none. -/
def leftJoin (rows : List α) (others : List β) (matching : α → β → Bool) : List (α × Option β) :=
  rows.flatMap fun row =>
    let found := others.filter (matching row)
    if found.isEmpty then [(row, none)] else found.map fun other => (row, some other)

/-- On a key that no two rows share there is at most one partner. -/
theorem filter_key_length_le [DecidableEq κ] {others : List β} {id : β → κ}
    (ids : (others.map id).Nodup) (wanted : Option κ) :
    (others.filter fun other => wanted = some (id other)).length ≤ 1 := by
  cases found : others.filter fun other => wanted = some (id other) with
  | nil => exact Nat.zero_le 1
  | cons other rest =>
      have member : other ∈ others.filter fun other => wanted = some (id other) := by
        rw [found]
        exact List.mem_cons_self
      obtain ⟨other_mem, named⟩ := List.mem_filter.mp member
      have single : (others.filter fun other => wanted = some (id other)) = [other] := by
        refine filter_eq_singleton ids other_mem named fun found found_mem same => ?_
        exact Option.some.inj ((of_decide_eq_true same).symm.trans (of_decide_eq_true named))
      rw [← found, single]
      exact Nat.le_refl 1

/-- A left join on a key of the other table keeps every row once. -/
theorem map_fst_leftJoin [DecidableEq κ] {rows : List α} {others : List β} {id : β → κ}
    (ids : (others.map id).Nodup) (key : α → Option κ) :
    (leftJoin rows others fun row other => key row = some (id other)).map Prod.fst = rows := by
  induction rows with
  | nil => rfl
  | cons row rows ih =>
      have at_most_one := filter_key_length_le ids (key row)
      rw [leftJoin, List.flatMap_cons, ← leftJoin, List.map_append, ih]
      cases partners : others.filter fun other => key row = some (id other) with
      | nil => rfl
      | cons other partners =>
          rw [partners, List.length_cons] at at_most_one
          obtain rfl := List.length_eq_zero_iff.mp
            (Nat.le_zero.mp (Nat.le_of_succ_le_succ at_most_one))
          rfl

/-- Only the rows that are kept have something. -/
theorem flatMap_filter_of_nil {rows : List α} {kept : α → Bool} {parts : α → List β}
    (nothing : ∀ row ∈ rows, ¬kept row → parts row = []) :
    rows.flatMap parts = (rows.filter kept).flatMap parts := by
  induction rows with
  | nil => rfl
  | cons row rows ih =>
      have rest := ih fun other member => nothing other (List.mem_cons_of_mem row member)
      rw [List.flatMap_cons, rest, List.filter_cons]
      split_ifs with keep
      · rw [List.flatMap_cons]
      · rw [nothing row List.mem_cons_self keep, List.nil_append]

/-! ## Counts and sums by key -/

section Counts

variable [DecidableEq κ]

private theorem sum_indicator {keys : List κ} (distinct : keys.Nodup) {key : κ}
    (listed : key ∈ keys) : (keys.map fun other => if key = other then 1 else 0).sum = 1 := by
  induction keys with
  | nil => cases listed
  | cons first keys ih =>
      obtain ⟨new, rest⟩ := List.nodup_cons.mp distinct
      rcases List.mem_cons.mp listed with rfl | later
      · have nowhere : (keys.map fun other => if key = other then 1 else 0).sum = 0 := by
          refine List.sum_eq_zero fun count member => ?_
          obtain ⟨other, other_mem, rfl⟩ := List.mem_map.mp member
          have apart : key ≠ other := fun same => new (same ▸ other_mem)
          exact if_neg apart
        rw [List.map_cons, List.sum_cons, nowhere, if_pos rfl]
      · have apart : key ≠ first := fun same => new (same ▸ later)
        rw [List.map_cons, List.sum_cons, if_neg apart, ih rest later, Nat.zero_add]

/-- The counts of the listed keys add up. -/
theorem sum_countP_by_key {keys : List κ} (distinct : keys.Nodup) (key : α → κ)
    (counted : α → Bool) {rows : List α} (listed : ∀ row ∈ rows, key row ∈ keys) :
    (keys.map fun other => rows.countP fun row => key row = other ∧ counted row).sum =
      rows.countP counted := by
  induction rows with
  | nil => simp
  | cons row rows ih =>
      have rest := ih fun other member => listed other (List.mem_cons_of_mem row member)
      have own := sum_indicator distinct (listed row List.mem_cons_self)
      simp only [List.countP_cons]
      rw [List.sum_map_add, rest]
      cases counted row with
      | false => simp
      | true => simpa using own

/-- The sums of the listed keys add up. -/
theorem sum_by_key {M : Type*} [AddCommMonoid M] {keys : List κ} (distinct : keys.Nodup)
    (key : α → κ) (amount : α → M) {rows : List α} (listed : ∀ row ∈ rows, key row ∈ keys) :
    (keys.map fun other => ((rows.filter fun row => key row = other).map amount).sum).sum =
      (rows.map amount).sum := by
  have perm := (Ordered.flatMap_filter_perm key keys rows distinct listed).map amount
  rw [← perm.sum_eq, List.map_flatMap, List.flatMap_def, List.sum_flatten, List.map_map]
  rfl

end Counts

end Relational
