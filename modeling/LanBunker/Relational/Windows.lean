import LanBunker.Ordered.Sorting

/-!
# Windows

The rows of `limit .. offset ..`, which follow each other without a gap, and the rank of a row
among the sorted rows of its partition.
-/

namespace Relational

open Ordered

variable {α : Type*}

/-! ## Limit and offset -/

/-- `limit .. offset ..`. -/
def window (limit offset : Nat) (rows : List α) : List α := (rows.drop offset).take limit

/-- One more window after the first rows. -/
theorem take_append_window (limit offset : Nat) (rows : List α) :
    rows.take offset ++ window limit offset rows = rows.take (offset + limit) :=
  List.take_add.symm

/-- The windows of all pages, one after the other, are the first rows. -/
theorem flatMap_window (limit pages : Nat) (rows : List α) :
    ((List.range pages).flatMap fun page => window limit (page * limit) rows) =
      rows.take (pages * limit) := by
  induction pages with
  | zero => simp
  | succ pages ih =>
      rw [List.range_succ, List.flatMap_append, ih, List.flatMap_singleton, take_append_window,
        Nat.succ_mul]

/-! ## Ranks -/

/-- `rank() over (order by ..)` among the rows of one partition: the number of the first peer. -/
def rankOver (cmp : α → α → Ordering) (rows : List α) (row : α) : Nat :=
  1 + (sortBy cmp rows).findIdx fun other => cmp other row = .eq

variable {cmp : α → α → Ordering} [Std.TransCmp cmp]

/-- In sorted rows those before a row come before its first peer. -/
private theorem findIdx_peer {rows : List α} {row : α}
    (sorted : rows.Pairwise fun left right => (cmp left right).isLE)
    (peer : ∃ other ∈ rows, cmp other row = .eq) :
    rows.findIdx (fun other => cmp other row = .eq) =
      rows.countP fun other => cmp other row = .lt := by
  induction rows with
  | nil =>
      obtain ⟨other, member, -⟩ := peer
      cases member
  | cons first rows ih =>
      obtain ⟨le_rest, sorted⟩ := List.pairwise_cons.mp sorted
      cases compared : cmp first row with
      | eq =>
          -- Nobody after a peer is before the row.
          have later : ∀ other ∈ first :: rows, ¬decide (cmp other row = .lt) := by
            intro other member less
            have less := of_decide_eq_true less
            rcases List.mem_cons.mp member with rfl | member
            · rw [compared] at less
              cases less
            · have ordered := Std.TransCmp.lt_of_isLE_of_lt (le_rest other member) less
              rw [compared] at ordered
              cases ordered
          rw [List.countP_eq_zero.mpr later, List.findIdx_cons, compared]
          rfl
      | lt =>
          have peer_later : ∃ other ∈ rows, cmp other row = .eq := by
            obtain ⟨other, member, equal⟩ := peer
            rcases List.mem_cons.mp member with rfl | member
            · rw [compared] at equal
              cases equal
            · exact ⟨other, member, equal⟩
          rw [List.findIdx_cons, List.countP_cons, ih sorted peer_later, compared]
          rfl
      | gt =>
          obtain ⟨other, member, equal⟩ := peer
          rcases List.mem_cons.mp member with rfl | member
          · rw [compared] at equal
            cases equal
          · have ordered := Std.TransCmp.isLE_trans (le_rest other member)
              (Ordering.isLE_of_eq_eq equal)
            rw [compared] at ordered
            cases ordered

/-- The rank of a row is one more than the number of rows before it: a competition ranking. -/
theorem rankOver_eq {rows : List α} {row : α} (member : row ∈ rows) :
    rankOver cmp rows row = 1 + rows.countP fun other => cmp other row = .lt := by
  have peer : ∃ other ∈ sortBy cmp rows, cmp other row = .eq :=
    ⟨row, (sortBy_perm cmp rows).mem_iff.mpr member, Std.ReflCmp.compare_self⟩
  rw [rankOver, findIdx_peer (pairwise_sortBy rows) peer, (sortBy_perm cmp rows).countP_eq]

end Relational
