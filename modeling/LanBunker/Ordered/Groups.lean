import Mathlib.Data.List.Forall2
import Mathlib.Data.List.Sort

/-!
# Groups in key order

Items pushed one by one into an ordered map of lists, each under its key.  Whatever the order of
the items, the map ends with one entry for each key that occurs, in key order, and an entry holds
the items of its key in the order they came.
-/

namespace Ordered

/-- The groups together are the items. -/
theorem flatMap_filter_perm {κ α : Type*} [DecidableEq κ] (key : α → κ) (keys : List κ)
    (items : List α) (nodup : keys.Nodup)
    (named : ∀ item ∈ items, key item ∈ keys) :
    (keys.flatMap fun k => items.filter fun item => key item = k).Perm items := by
  induction keys generalizing items with
  | nil =>
      have none_named : items = [] := List.eq_nil_iff_forall_not_mem.mpr fun item member =>
        List.not_mem_nil (named item member)
      simp [none_named]
  | cons first keys ih =>
      obtain ⟨not_later, nodup⟩ := List.nodup_cons.mp nodup
      have others_eq : (keys.flatMap fun k => items.filter fun item => key item = k) =
          keys.flatMap fun k => (items.filter fun item => !decide (key item = first)).filter
            fun item => key item = k := by
        refine List.flatMap_congr fun k member => ?_
        have other : k ≠ first := fun same => not_later (same ▸ member)
        rw [List.filter_filter]
        refine List.filter_congr fun item _ => ?_
        by_cases same : key item = k
        · simp [same, other]
        · simp [same]
      rw [List.flatMap_cons, others_eq]
      refine ((ih _ nodup ?_).append_left _).trans
        (List.filter_append_perm (fun item => decide (key item = first)) items)
      intro item member
      obtain ⟨item_mem, other⟩ := List.mem_filter.mp member
      have other : key item ≠ first := by simpa using other
      exact (List.mem_cons.mp (named item item_mem)).resolve_left other

section Groups

variable {κ α : Type*} [LinearOrder κ] (key : α → κ)

/-- Pushes an item onto the entry of its key, which is opened where there is none. -/
def push : List (κ × List α) → α → List (κ × List α)
  | [], item => [(key item, [item])]
  | (entry, items) :: rest, item =>
      if key item < entry then (key item, [item]) :: (entry, items) :: rest
      else if key item = entry then (entry, items ++ [item]) :: rest
      else (entry, items) :: push rest item

/-- The entries are the items grouped: in key order, and under each key its items. -/
structure IsGrouping (items : List α) (entries : List (κ × List α)) : Prop where
  sorted : (entries.map Prod.fst).Pairwise (· < ·)
  opened : ∀ entry ∈ entries, entry.2 ≠ []
  held : ∀ k, (entries.lookup k).getD [] = items.filter fun item => key item = k

variable {key} {items : List α} {entries : List (κ × List α)}

/-- The items an ordered map holds under a key. -/
private theorem held_cons (first k : κ) (others : List α) (rest : List (κ × List α)) :
    (List.lookup k ((first, others) :: rest)).getD [] =
      if first = k then others else (rest.lookup k).getD [] := by
  by_cases same : first = k
  · subst same
    simp
  · rw [List.lookup_cons, beq_eq_false_iff_ne.mpr (Ne.symm same), if_neg same]

private theorem held_of_lt {k : κ} (later : ∀ entry ∈ entries.map Prod.fst, k < entry) :
    (entries.lookup k).getD [] = [] := by
  have absent : entries.lookup k = none := by
    rw [List.lookup_eq_none_iff]
    intro entry member
    simpa using ne_of_lt (later entry.1 (List.mem_map_of_mem member))
  rw [absent, Option.getD_none]

/-- A push adds the item under its key, and leaves what other keys hold. -/
theorem held_push (sorted : (entries.map Prod.fst).Pairwise (· < ·)) (item : α) (k : κ) :
    ((push key entries item).lookup k).getD [] =
      (entries.lookup k).getD [] ++ if key item = k then [item] else [] := by
  induction entries with
  | nil => exact held_cons (key item) k [item] []
  | cons head rest ih =>
      obtain ⟨first, others⟩ := head
      obtain ⟨first_lt, rest_sorted⟩ := List.pairwise_cons.mp sorted
      rw [push]
      rcases lt_trichotomy (key item) first with before | here | after
      · rw [if_pos before, held_cons]
        by_cases same : key item = k
        · have none_held : (List.lookup k ((first, others) :: rest)).getD [] = [] := by
            apply held_of_lt
            rintro entry (_ | ⟨_, member⟩)
            · exact same ▸ before
            · exact same ▸ before.trans (first_lt entry member)
          rw [if_pos same, if_pos same, none_held, List.nil_append]
        · rw [if_neg same, if_neg same, List.append_nil]
      · rw [if_neg (by simp [here]), if_pos here, held_cons, held_cons]
        by_cases same : first = k
        · rw [if_pos same, if_pos same, if_pos (here.trans same)]
        · rw [if_neg same, if_neg same, if_neg (here ▸ same), List.append_nil]
      · rw [if_neg (not_lt_of_gt after), if_neg (ne_of_gt after), held_cons, held_cons]
        by_cases same : first = k
        · rw [if_pos same, if_pos same, if_neg (same ▸ ne_of_gt after), List.append_nil]
        · rw [if_neg same, if_neg same, ih rest_sorted]

theorem mem_push_keys {item : α} {k : κ} :
    k ∈ (push key entries item).map Prod.fst ↔ k = key item ∨ k ∈ entries.map Prod.fst := by
  induction entries with
  | nil => simp [push]
  | cons head rest ih =>
      obtain ⟨first, others⟩ := head
      rw [push]
      split_ifs with before here
      · simp
      · simp [here]
      · rw [List.map_cons, List.mem_cons, ih, List.map_cons, List.mem_cons]
        exact or_left_comm

theorem push_sorted (sorted : (entries.map Prod.fst).Pairwise (· < ·)) (item : α) :
    ((push key entries item).map Prod.fst).Pairwise (· < ·) := by
  induction entries with
  | nil => simp [push]
  | cons head rest ih =>
      obtain ⟨first, others⟩ := head
      rw [push]
      split_ifs with before here
      · refine List.pairwise_cons.mpr ⟨?_, sorted⟩
        rintro entry (_ | ⟨_, member⟩)
        · exact before
        · exact before.trans ((List.pairwise_cons.mp sorted).1 entry member)
      · exact sorted
      · obtain ⟨first_lt, rest_sorted⟩ := List.pairwise_cons.mp sorted
        refine List.pairwise_cons.mpr ⟨?_, ih rest_sorted⟩
        intro entry member
        rcases mem_push_keys.mp member with rfl | old
        · exact lt_of_le_of_ne (not_lt.mp before) (Ne.symm here)
        · exact first_lt entry old

theorem push_opened (opened : ∀ entry ∈ entries, entry.2 ≠ []) (item : α) :
    ∀ entry ∈ push key entries item, entry.2 ≠ [] := by
  induction entries with
  | nil => simp [push]
  | cons head rest ih =>
      obtain ⟨first, others⟩ := head
      have rest_opened := ih fun entry member => opened entry (List.mem_cons_of_mem _ member)
      rw [push]
      split_ifs with before here
      · simpa using opened
      · simpa using fun _ _ => opened _ ∘ List.mem_cons_of_mem _
      · simpa using ⟨opened _ List.mem_cons_self, fun _ _ => rest_opened _⟩

/-- One more item keeps the entries a grouping. -/
theorem IsGrouping.push (grouping : IsGrouping key items entries) (item : α) :
    IsGrouping key (items ++ [item]) (push key entries item) where
  sorted := push_sorted grouping.sorted item
  opened := push_opened grouping.opened item
  held k := by
    rw [held_push grouping.sorted, grouping.held, List.filter_append]
    congr 1
    by_cases same : key item = k
    · simp [same]
    · simp [same]

/-- Pushing all items one by one groups them. -/
theorem isGrouping_foldl (items : List α) : IsGrouping key items (items.foldl (push key) []) := by
  have grouped : ∀ (done rest : List α) (entries : List (κ × List α)),
      IsGrouping key done entries →
      IsGrouping key (done ++ rest) (rest.foldl (Ordered.push key) entries) := by
    intro done rest
    induction rest generalizing done with
    | nil => intro entries grouping; simpa using grouping
    | cons item rest ih =>
        intro entries grouping
        have later := ih (done ++ [item]) _ (grouping.push item)
        rwa [List.append_assoc] at later
  exact grouped [] items [] ⟨List.Pairwise.nil, by simp, by simp⟩

/-- An entry of the map is what the map holds under its key. -/
private theorem held_of_mem (sorted : (entries.map Prod.fst).Pairwise (· < ·)) {entry : κ × List α}
    (member : entry ∈ entries) : (entries.lookup entry.1).getD [] = entry.2 := by
  induction entries with
  | nil => cases member
  | cons head rest ih =>
      obtain ⟨first, others⟩ := head
      obtain ⟨first_lt, rest_sorted⟩ := List.pairwise_cons.mp sorted
      rw [held_cons]
      rcases List.mem_cons.mp member with rfl | later
      · exact if_pos rfl
      · rw [if_neg (ne_of_lt (first_lt entry.1 (List.mem_map_of_mem later))), ih rest_sorted later]

/-- An entry of a grouping holds the items of its key. -/
theorem IsGrouping.entry_eq (grouping : IsGrouping key items entries) {entry : κ × List α}
    (member : entry ∈ entries) : entry.2 = items.filter fun item => key item = entry.1 :=
  (held_of_mem grouping.sorted member).symm.trans (grouping.held entry.1)

/-- The keys of a grouping are those of its items. -/
theorem IsGrouping.mem_keys (grouping : IsGrouping key items entries) {k : κ} :
    k ∈ entries.map Prod.fst ↔ ∃ item ∈ items, key item = k := by
  constructor
  · intro member
    obtain ⟨entry, entry_mem, rfl⟩ := List.mem_map.mp member
    obtain ⟨item, item_mem⟩ := List.exists_mem_of_ne_nil _ (grouping.opened entry entry_mem)
    rw [grouping.entry_eq entry_mem, List.mem_filter, decide_eq_true_eq] at item_mem
    exact ⟨item, item_mem⟩
  · rintro ⟨item, member, rfl⟩
    have held := grouping.held (key item)
    by_contra absent
    have missing : entries.lookup (key item) = none := by
      rw [List.lookup_eq_none_iff]
      intro entry entry_mem
      have other : key item ≠ entry.1 := by
        intro same
        exact absent (same ▸ List.mem_map_of_mem entry_mem)
      simpa using other
    rw [missing, Option.getD_none, eq_comm, List.filter_eq_nil_iff] at held
    exact held item member (decide_eq_true rfl)

end Groups

/-! ## Traversals that may fail -/

section Traverse

variable {α β ε : Type*}

/-- A traversal succeeds exactly when every element does. -/
theorem mapM_eq_ok_iff {f : α → Except ε β} {items : List α} {results : List β} :
    items.mapM f = .ok results ↔
      List.Forall₂ (fun item result => f item = .ok result) items results := by
  induction items generalizing results with
  | nil => simp [pure, Except.pure, eq_comm]
  | cons item items ih =>
      rw [List.mapM_cons, List.forall₂_cons_left_iff]
      cases first : f item with
      | error error => simp [bind, Except.bind]
      | ok result =>
          cases rest : items.mapM f with
          | error error => simp [← ih, rest, bind, Except.bind]
          | ok others => simp [← ih, rest, bind, Except.bind, pure, Except.pure, eq_comm]

/-- What every element says of its result, the traversal says of the results. -/
theorem map_eq_of_mapM_ok {γ : Type*} {f : α → Except ε β} {view : β → γ} {read : α → γ}
    (agrees : ∀ item result, f item = .ok result → view result = read item) {items : List α}
    {results : List β} (done : items.mapM f = .ok results) :
    results.map view = items.map read := by
  have each := mapM_eq_ok_iff.mp done
  clear done
  induction each with
  | nil => rfl
  | cons first rest ih => rw [List.map_cons, List.map_cons, agrees _ _ first, ih]

/-- What two elements in a row say of their results, the traversal keeps. -/
theorem pairwise_of_mapM_ok {before : α → α → Prop} {after : β → β → Prop} {f : α → Except ε β}
    (keeps : ∀ left right first second, before left right → f left = .ok first →
      f right = .ok second → after first second)
    {items : List α} {results : List β} (done : items.mapM f = .ok results)
    (sorted : items.Pairwise before) : results.Pairwise after := by
  have each := mapM_eq_ok_iff.mp done
  clear done
  induction each with
  | nil => exact .nil
  | @cons item result items results first rest ih =>
      rw [List.pairwise_cons] at sorted ⊢
      refine ⟨fun other member => ?_, ih sorted.2⟩
      obtain ⟨index, inside, rfl⟩ := List.mem_iff_getElem.mp member
      have source_inside : index < items.length := rest.length_eq ▸ inside
      exact keeps item items[index] result _ (sorted.1 _ (List.getElem_mem source_inside)) first
        (rest.get source_inside inside)

theorem exists_mapM_eq_ok {f : α → Except ε β} {items : List α}
    (succeeds : ∀ item ∈ items, ∃ result, f item = .ok result) :
    ∃ results, items.mapM f = .ok results := by
  simp only [mapM_eq_ok_iff]
  induction items with
  | nil => exact ⟨[], .nil⟩
  | cons item items ih =>
      obtain ⟨result, first⟩ := succeeds item List.mem_cons_self
      obtain ⟨results, rest⟩ := ih fun other member =>
        succeeds other (List.mem_cons_of_mem item member)
      exact ⟨result :: results, .cons first rest⟩

theorem exists_map_mapM_eq_ok {f : α → Except ε β} {g : List β → γ} {items : List α} :
    (∃ value, (items.mapM f).map g = .ok value) ↔
      ∀ item ∈ items, ∃ result, f item = .ok result := by
  constructor
  · rintro ⟨value, mapped⟩
    cases done : items.mapM f with
    | error error =>
        rw [done] at mapped
        cases mapped
    | ok results =>
        have each := mapM_eq_ok_iff.mp done
        clear done mapped
        induction each with
        | nil => exact fun _ member => absurd member List.not_mem_nil
        | cons first rest ih => exact List.forall_mem_cons.mpr ⟨⟨_, first⟩, ih⟩
  · intro succeeds
    obtain ⟨results, done⟩ := exists_mapM_eq_ok succeeds
    exact ⟨g results, by rw [done]; rfl⟩

end Traverse

end Ordered
