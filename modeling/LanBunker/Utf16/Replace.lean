import Mathlib.Data.List.Basic

/-!
# Replacing every occurrence

A list is read from the left.  Where a pattern starts, its replacement stands for it and reading
goes on behind it, so occurrences never overlap.
-/

namespace Utf16

variable {α β : Type} [DecidableEq α]

/-- A nonempty pattern and what stands for it. -/
structure Rule (α : Type) where
  first : α
  more : List α
  replacement : List α

namespace Rule

def pattern (rule : Rule α) : List α := rule.first :: rule.more

/-- The rule for one item. -/
def single (item : α) (replacement : List α) : Rule α := ⟨item, [], replacement⟩

end Rule

/-- Reading with `skip` items of an earlier occurrence still to pass. -/
def rewriteFrom (rules : List (Rule α)) : Nat → List α → List α
  | _, [] => []
  | skip + 1, _ :: rest => rewriteFrom rules skip rest
  | 0, item :: rest =>
      (rules.find? fun rule => rule.pattern.isPrefixOf (item :: rest)).elim
        (item :: rewriteFrom rules 0 rest)
        fun rule => rule.replacement ++ rewriteFrom rules rule.more.length rest

/-- Every occurrence replaced.  Where several patterns start, the first rule counts. -/
def rewriteAll (rules : List (Rule α)) (text : List α) : List α := rewriteFrom rules 0 text

/-- `replaceAll` of a string by a string. -/
def replaceAll (rule : Rule α) (text : List α) : List α := rewriteAll [rule] text

variable {rules : List (Rule α)}

theorem rewriteFrom_length (passed rest : List α) :
    rewriteFrom rules passed.length (passed ++ rest) = rewriteFrom rules 0 rest := by
  induction passed with
  | nil => rfl
  | cons item passed ih =>
      rw [List.length_cons, List.cons_append, rewriteFrom]
      exact ih

/-- Where a pattern starts and no earlier rule's does. -/
theorem rewriteAll_of_find {rule : Rule α} {rest : List α}
    (found : rules.find? (fun other => other.pattern.isPrefixOf (rule.pattern ++ rest)) =
      some rule) :
    rewriteAll rules (rule.pattern ++ rest) = rule.replacement ++ rewriteAll rules rest := by
  rw [Rule.pattern, List.cons_append] at found ⊢
  rw [rewriteAll, rewriteFrom, found, Option.elim_some, rewriteFrom_length]
  rfl

/-- Where no pattern starts, the item stays. -/
theorem rewriteAll_of_none {item : α} {rest : List α}
    (none_starts : ∀ rule ∈ rules, ¬ rule.pattern <+: item :: rest) :
    rewriteAll rules (item :: rest) = item :: rewriteAll rules rest := by
  have not_found : rules.find? (fun rule => rule.pattern.isPrefixOf (item :: rest)) = none := by
    rw [List.find?_eq_none]
    intro rule member starts
    exact none_starts rule member (List.isPrefixOf_iff_prefix.mp starts)
  rw [rewriteAll, rewriteFrom, not_found]
  rfl

/-- Items that start no pattern stay. -/
theorem rewriteAll_append {passed : List α}
    (starts_none : ∀ item ∈ passed, ∀ rule ∈ rules, rule.first ≠ item) (rest : List α) :
    rewriteAll rules (passed ++ rest) = passed ++ rewriteAll rules rest := by
  induction passed with
  | nil => rfl
  | cons item passed ih =>
      have none_starts : ∀ rule ∈ rules, ¬ rule.pattern <+: item :: (passed ++ rest) := by
        intro rule member starts
        rw [Rule.pattern, List.cons_prefix_cons] at starts
        exact starts_none item List.mem_cons_self rule member starts.1
      rw [List.cons_append, rewriteAll_of_none none_starts,
        ih fun other member => starts_none other (List.mem_cons_of_mem item member)]
      rfl

/-- A list of pieces is rewritten piece by piece where every piece is, whatever follows it. -/
theorem rewriteAll_flatMap {pieces : List β} {before after : β → List α}
    (each : ∀ piece ∈ pieces, ∀ rest,
      rewriteAll rules (before piece ++ rest) = after piece ++ rewriteAll rules rest) :
    rewriteAll rules (pieces.flatMap before) = pieces.flatMap after := by
  induction pieces with
  | nil => rfl
  | cons piece pieces ih =>
      rw [List.flatMap_cons, List.flatMap_cons, each piece List.mem_cons_self,
        ih fun other member => each other (List.mem_cons_of_mem piece member)]

/-- One item is replaced wherever it stands. -/
theorem replaceAll_single (item : α) (replacement text : List α) :
    replaceAll (.single item replacement) text =
      text.flatMap fun other => if other = item then replacement else [other] := by
  have alone : text = text.flatMap fun other => [other] := (List.flatMap_singleton' text).symm
  conv_lhs => rw [alone]
  rw [replaceAll]
  refine rewriteAll_flatMap fun other member rest => ?_
  by_cases same : other = item
  · subst same
    have found : [Rule.single other replacement].find? (fun rule =>
        rule.pattern.isPrefixOf ((Rule.single other replacement).pattern ++ rest)) =
          some (.single other replacement) := by
      simp [Rule.pattern, Rule.single]
    rw [if_pos rfl]
    exact rewriteAll_of_find found
  · have starts_none : ∀ here ∈ [other], ∀ rule ∈ [Rule.single item replacement],
        rule.first ≠ here := by
      simp [Rule.single, Ne.symm same]
    rw [if_neg same]
    exact rewriteAll_append starts_none rest

end Utf16
