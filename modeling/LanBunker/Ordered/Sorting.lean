import Mathlib.Data.List.Sort

/-!
# Sorting by a comparison

The rows of an `order by`: sorted by a comparison that is transitive and oriented.  The first row
comes before every other one.
-/

namespace Ordered

variable {α : Type*}

/-- The items, sorted. -/
def sortBy (cmp : α → α → Ordering) (items : List α) : List α :=
  items.insertionSort fun left right => (cmp left right).isLE

theorem sortBy_perm (cmp : α → α → Ordering) (items : List α) : (sortBy cmp items).Perm items :=
  List.perm_insertionSort _ items

section Sorted

variable {cmp : α → α → Ordering} [Std.TransCmp cmp]

theorem pairwise_sortBy (items : List α) :
    (sortBy cmp items).Pairwise fun left right => (cmp left right).isLE := by
  have total : Std.Total fun left right => (cmp left right).isLE = true := by
    refine ⟨fun left right => ?_⟩
    have swapped : cmp right left = (cmp left right).swap := Std.OrientedCmp.eq_swap
    rw [swapped]
    cases cmp left right <;> simp [Ordering.swap]
  have trans : IsTrans α fun left right => (cmp left right).isLE = true :=
    ⟨fun _ _ _ first second => Std.TransCmp.isLE_trans first second⟩
  exact List.pairwise_insertionSort _ items

/-- Items no two of which compare equal are sorted strictly. -/
theorem pairwise_lt_sortBy {items : List α}
    (distinct : items.Pairwise fun left right => cmp left right ≠ .eq) :
    (sortBy cmp items).Pairwise fun left right => cmp left right = .lt := by
  have symmetric : ∀ {left right : α}, cmp left right ≠ .eq → cmp right left ≠ .eq :=
    fun different same => different (Std.OrientedCmp.eq_symm same)
  have apart := ((sortBy_perm cmp items).pairwise_iff symmetric).mpr distinct
  refine ((pairwise_sortBy items).and apart).imp fun {left right} both => ?_
  obtain ⟨before, different⟩ := both
  cases compared : cmp left right with
  | lt => rfl
  | eq => exact absurd compared different
  | gt =>
      rw [compared] at before
      cases before

/-- The first of the sorted items comes before every item. -/
theorem head?_sortBy {items : List α} {first : α} (head : (sortBy cmp items).head? = some first) :
    first ∈ items ∧ ∀ other ∈ items, (cmp first other).isLE := by
  obtain ⟨rest, sorted_eq⟩ := List.head?_eq_some_iff.mp head
  have perm := sortBy_perm cmp items
  have sorted : (sortBy cmp items).Pairwise fun left right => (cmp left right).isLE :=
    pairwise_sortBy items
  rw [sorted_eq] at perm sorted
  refine ⟨perm.subset List.mem_cons_self, fun other member => ?_⟩
  rcases List.mem_cons.mp (perm.symm.subset member) with rfl | later
  · have self : cmp other other = .eq := Std.ReflCmp.compare_self
    rw [self]
    rfl
  · exact (List.pairwise_cons.mp sorted).1 other later

end Sorted

/-- Items no two of which compare equal have one sorted order. -/
theorem eq_of_sorted {cmp : α → α → Ordering} [Std.OrientedCmp cmp] {left right : List α}
    (distinct : ∀ first ∈ left, ∀ second ∈ left, cmp first second = .eq → first = second)
    (left_sorted : left.Pairwise fun first second => (cmp first second).isLE)
    (right_sorted : right.Pairwise fun first second => (cmp first second).isLE)
    (perm : left.Perm right) : left = right := by
  refine perm.eq_of_pairwise (fun first second first_mem second_mem le ge => ?_) left_sorted
    right_sorted
  exact distinct first first_mem second (perm.mem_iff.mpr second_mem)
    (Std.OrientedCmp.isLE_antisymm le ge)

/-- There is a first item where there is an item. -/
theorem head?_sortBy_eq_none {cmp : α → α → Ordering} {items : List α} :
    (sortBy cmp items).head? = none ↔ items = [] := by
  rw [List.head?_eq_none_iff]
  constructor
  · intro nothing
    have perm := sortBy_perm cmp items
    rw [nothing] at perm
    exact perm.symm.eq_nil
  · rintro rfl
    rfl

/-! ## Comparisons of columns -/

/-- Rows compared on a column. -/
theorem transCmp_on {β : Type*} (column : α → β) (cmp : β → β → Ordering) [Std.TransCmp cmp] :
    Std.TransCmp fun left right : α => cmp (column left) (column right) where
  eq_swap := Std.OrientedCmp.eq_swap
  isLE_trans := Std.TransCmp.isLE_trans

/-- The order of a nullable column: null comes first. -/
def nullsFirst (cmp : α → α → Ordering) : Option α → Option α → Ordering
  | none, none => .eq
  | none, some _ => .lt
  | some _, none => .gt
  | some left, some right => cmp left right

instance {cmp : α → α → Ordering} [Std.TransCmp cmp] : Std.TransCmp (nullsFirst cmp) where
  eq_swap {left right} := by
    cases left with
    | none => cases right <;> rfl
    | some left =>
        cases right with
        | none => rfl
        | some right =>
            have swapped : cmp left right = (cmp right left).swap := Std.OrientedCmp.eq_swap
            exact swapped
  isLE_trans {first second third} first_le second_le := by
    cases first with
    | none => cases third <;> rfl
    | some first =>
        cases second with
        | none => cases first_le
        | some second =>
            cases third with
            | none => cases second_le
            | some third =>
                have whole : (cmp first second).isLE → (cmp second third).isLE →
                    (cmp first third).isLE := Std.TransCmp.isLE_trans
                exact whole first_le second_le

end Ordered
