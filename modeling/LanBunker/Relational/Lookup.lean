import Mathlib.Data.List.Nodup
import Mathlib.Data.List.Pairwise

/-!
# Rows with a key

A row is found by its key.  Where no two rows share a key, every row is the one that is found.
-/

namespace Relational

variable {α κ : Type*} {rows : List α} {key : α → κ}

section Find

variable [DecidableEq κ]

/-- The row that is found has the key. -/
theorem find?_key_eq_some {wanted : κ} {row : α}
    (found : (rows.find? fun other => key other = wanted) = some row) :
    row ∈ rows ∧ key row = wanted := by
  have named := List.find?_some found
  exact ⟨List.mem_of_find?_eq_some found, of_decide_eq_true named⟩

/-- Some row is found exactly if some row has the key. -/
theorem find?_key_isSome {wanted : κ} :
    (rows.find? fun other => key other = wanted).isSome ↔ ∃ row ∈ rows, key row = wanted := by
  simp

/-- Every row is found by its own key. -/
theorem find?_key_of_mem (keys : (rows.map key).Nodup) {row : α} (member : row ∈ rows) :
    (rows.find? fun other => key other = key row) = some row := by
  have some_row : (rows.find? fun other => key other = key row).isSome :=
    find?_key_isSome.mpr ⟨row, member, rfl⟩
  obtain ⟨other, found⟩ := Option.isSome_iff_exists.mp some_row
  obtain ⟨other_mem, same⟩ := find?_key_eq_some found
  rw [found, List.inj_on_of_nodup_map keys other_mem member same]

end Find

/-! ## Keys that stay apart -/

/-- A new row with a new key. -/
theorem nodup_keys_concat (keys : (rows.map key).Nodup) {row : α}
    (new : ∀ other ∈ rows, key other ≠ key row) : ((rows ++ [row]).map key).Nodup := by
  rw [List.map_append, List.map_singleton]
  refine List.Nodup.append keys (List.nodup_singleton _) ?_
  rw [List.disjoint_singleton]
  intro taken
  obtain ⟨other, member, same⟩ := List.mem_map.mp taken
  exact new other member same

/-- A write that leaves every key. -/
theorem nodup_keys_map (keys : (rows.map key).Nodup) {write : α → α}
    (same : ∀ row, key (write row) = key row) : ((rows.map write).map key).Nodup := by
  have unwritten : (rows.map write).map key = rows.map key := by
    rw [List.map_map]
    exact List.map_congr_left fun row _ => same row
  rw [unwritten]
  exact keys

theorem nodup_keys_filter (keys : (rows.map key).Nodup) (kept : α → Bool) :
    ((rows.filter kept).map key).Nodup :=
  keys.sublist (List.filter_sublist.map key)

/-- Where no two rows share a key, rows that match one key are one row. -/
theorem filter_eq_singleton (keys : (rows.map key).Nodup) {matching : α → Bool} {row : α}
    (member : row ∈ rows) (matched : matching row)
    (only : ∀ other ∈ rows, matching other → key other = key row) :
    rows.filter matching = [row] := by
  have distinct : (rows.filter matching).Nodup := keys.of_map.sublist List.filter_sublist
  refine List.perm_singleton.mp ?_
  rw [List.perm_ext_iff_of_nodup distinct (List.nodup_singleton row)]
  intro other
  rw [List.mem_filter, List.mem_singleton]
  constructor
  · rintro ⟨other_mem, other_matched⟩
    exact List.inj_on_of_nodup_map keys other_mem member (only other other_mem other_matched)
  · rintro rfl
    exact ⟨member, matched⟩

/-- Where no two rows share the value of a nullable column, a value names one row. -/
theorem eq_of_filterMap_nodup {column : α → Option κ} (distinct : (rows.filterMap column).Nodup)
    {left right : α} (left_mem : left ∈ rows) (right_mem : right ∈ rows) {value : κ}
    (left_value : column left = some value) (right_value : column right = some value) :
    left = right := by
  by_contra apart
  rw [List.Nodup, List.pairwise_filterMap] at distinct
  have symmetric : Std.Symm fun a b : α => ∀ c, column a = some c → ∀ d,
      column b = some d → c ≠ d :=
    ⟨fun a b differ c b_value d a_value equality => differ d a_value c b_value equality.symm⟩
  exact distinct.forall left_mem right_mem apart value left_value value right_value rfl

end Relational
