import Mathlib.Data.List.Sort
import Mathlib.Data.List.Perm.Subperm
import Mathlib.Data.List.Nodup
import Mathlib.Data.List.Infix
import Mathlib.Data.List.ReduceOption

/-!
# Knockout rounds

A round of a knockout is a list of pairings between competitors of any type.  A side or a winner
may still be unknown.  `Feeds` says that the winners of one round, in order, are the sides of the
next, and everything here is about what that equation and sound winners force.
-/

namespace Knockout

variable {α : Type*}

/-- One pairing.  An absent side is unknown or empty, an absent winner is undecided. -/
structure Pairing (α : Type*) where
  left : Option α
  right : Option α
  winner : Option α

namespace Pairing

/-- The two sides, known or not, in order. -/
def entries (pairing : Pairing α) : List (Option α) := [pairing.left, pairing.right]

/-- The known sides. -/
def competitors (pairing : Pairing α) : List α := pairing.left.toList ++ pairing.right.toList

/-- A winner is one of the two sides. -/
def Sound (pairing : Pairing α) : Prop :=
  ∀ winner, pairing.winner = some winner →
    pairing.left = some winner ∨ pairing.right = some winner

/-- Both sides and the winner are known. -/
def played (pairing : Pairing α) : Bool :=
  pairing.left.isSome && pairing.right.isSome && pairing.winner.isSome

variable [DecidableEq α]

/-- The other side of a decided pairing with two sides. -/
def loser (pairing : Pairing α) : Option α :=
  match pairing.left, pairing.right, pairing.winner with
  | some left, some right, some winner =>
      if winner = left then some right else if winner = right then some left else none
  | _, _, _ => none

/-- A decided sound pairing splits its sides into the winner and the loser. -/
theorem winner_loser_perm {pairing : Pairing α} (sound : pairing.Sound)
    (decided : pairing.winner.isSome) :
    (pairing.winner.toList ++ pairing.loser.toList).Perm pairing.competitors := by
  obtain ⟨left, right, winner⟩ := pairing
  obtain ⟨champion, rfl⟩ := Option.isSome_iff_exists.mp decided
  cases left with
  | none =>
      obtain impossible | rfl := sound champion rfl
      · cases impossible
      · simp [loser, competitors]
  | some first =>
      cases right with
      | none =>
          obtain side | impossible := sound champion rfl
          · obtain rfl := Option.some.inj side
            simp [loser, competitors]
          · cases impossible
      | some second =>
          by_cases is_first : champion = first
          · subst is_first
            simp [loser, competitors]
          · obtain side | side := sound champion rfl
            · exact (is_first (Option.some.inj side).symm).elim
            · obtain rfl := Option.some.inj side
              simpa [loser, competitors, is_first] using List.Perm.swap first second []

theorem loser_eq_none_of_undecided {pairing : Pairing α} (undecided : pairing.winner = none) :
    pairing.loser = none := by
  obtain ⟨left, right, winner⟩ := pairing
  subst undecided
  cases left <;> cases right <;> rfl

/-- Decided or not, the winner and the loser are distinct entries of the sides. -/
theorem winner_loser_subperm {pairing : Pairing α} (sound : pairing.Sound) :
    (pairing.winner.toList ++ pairing.loser.toList).Subperm pairing.competitors := by
  cases decided : pairing.winner with
  | none =>
      rw [loser_eq_none_of_undecided decided]
      exact List.nil_subperm
  | some winner =>
      rw [← decided]
      exact (winner_loser_perm sound (by rw [decided]; rfl)).subperm

theorem loser_isSome_iff_played {pairing : Pairing α} (sound : pairing.Sound) :
    pairing.loser.isSome = pairing.played := by
  obtain ⟨left, right, winner⟩ := pairing
  cases left with
  | none => rfl
  | some first =>
      cases right with
      | none => rfl
      | some second =>
          cases winner with
          | none => rfl
          | some champion =>
              obtain side | side := sound champion rfl <;> obtain rfl := Option.some.inj side
              · simp [loser, played]
              · by_cases same : second = first <;> simp [loser, played, same]

end Pairing

/-! ## Whole rounds -/

/-- The sides of a round, known or not, in order. -/
def entries (round : List (Pairing α)) : List (Option α) := round.flatMap Pairing.entries

/-- The known sides of a round, in order. -/
def competitors (round : List (Pairing α)) : List α := round.flatMap Pairing.competitors

/-- The known winners of a round, in order. -/
def winners (round : List (Pairing α)) : List α := round.filterMap Pairing.winner

/-- The winners of a round are the sides of the next, in order. -/
def Feeds (round next : List (Pairing α)) : Prop :=
  entries next = round.map Pairing.winner

@[simp]
theorem entries_length (round : List (Pairing α)) : (entries round).length = 2 * round.length := by
  induction round with
  | nil => rfl
  | cons pairing round ih =>
      simp only [entries, List.flatMap_cons, List.length_append, List.length_cons] at ih ⊢
      rw [ih]
      simp [Pairing.entries]
      omega

theorem competitors_eq_reduceOption (round : List (Pairing α)) :
    competitors round = (entries round).reduceOption := by
  induction round with
  | nil => rfl
  | cons pairing round ih =>
      have sides : pairing.entries.reduceOption = pairing.competitors := by
        obtain ⟨left, right, winner⟩ := pairing
        cases left <;> cases right <;> rfl
      simp only [competitors, entries, List.flatMap_cons, List.reduceOption_append] at ih ⊢
      rw [ih, sides]

theorem winners_eq_reduceOption (round : List (Pairing α)) :
    winners round = (round.map Pairing.winner).reduceOption := by
  simp [winners, List.reduceOption, List.filterMap_map]

theorem entries_getElem?_even (round : List (Pairing α)) (slot : Nat) :
    (entries round)[2 * slot]? = round[slot]?.map Pairing.left := by
  induction round generalizing slot with
  | nil => simp [entries]
  | cons pairing round ih =>
      cases slot with
      | zero => simp [entries, Pairing.entries]
      | succ slot =>
          rw [show 2 * (slot + 1) = 2 * slot + 2 by omega]
          simpa [entries, Pairing.entries] using ih slot

theorem entries_getElem?_odd (round : List (Pairing α)) (slot : Nat) :
    (entries round)[2 * slot + 1]? = round[slot]?.map Pairing.right := by
  induction round generalizing slot with
  | nil => simp [entries]
  | cons pairing round ih =>
      cases slot with
      | zero => simp [entries, Pairing.entries]
      | succ slot =>
          rw [show 2 * (slot + 1) + 1 = 2 * slot + 1 + 2 by omega]
          simpa [entries, Pairing.entries] using ih slot

/-- Writing one side of one pairing writes one entry: an even slot is a left side. -/
theorem entries_modify (round : List (Pairing α)) (slot : Nat)
    (write : Pairing α → Pairing α) (entry : Option α)
    (writes : ∀ pairing, (write pairing).entries =
      pairing.entries.set (slot % 2) entry) :
    entries (round.modify (slot / 2) write) = (entries round).set slot entry := by
  induction round generalizing slot with
  | nil => simp [entries]
  | cons pairing round ih =>
      by_cases here : slot < 2
      · have slot_div : slot / 2 = 0 := by omega
        have slot_mod : slot % 2 = slot := by omega
        rw [slot_div, List.modify_zero_cons]
        simp only [entries, List.flatMap_cons, writes, slot_mod]
        rw [List.set_append_left _ _ (by simpa [Pairing.entries] using here)]
      · obtain ⟨rest, rfl⟩ : ∃ rest, slot = rest + 2 := ⟨slot - 2, by omega⟩
        rw [show (rest + 2) / 2 = rest / 2 + 1 by omega, List.modify_succ_cons]
        have later := ih rest (fun pairing => by
          rw [writes pairing, show (rest + 2) % 2 = rest % 2 by omega])
        simp only [entries, List.flatMap_cons] at later ⊢
        rw [later, List.set_append_right _ _ (by simp [Pairing.entries])]
        simp [Pairing.entries]

/-- A write that keeps both sides of every pairing keeps the entries. -/
theorem entries_modify_of_eq (round : List (Pairing α)) (slot : Nat)
    (write : Pairing α → Pairing α)
    (keeps : ∀ pairing, (write pairing).entries = pairing.entries) :
    entries (round.modify slot write) = entries round := by
  induction round generalizing slot with
  | nil => simp [entries]
  | cons pairing round ih =>
      cases slot with
      | zero => simp [entries, keeps]
      | succ slot =>
          have later := ih slot
          simp only [entries, List.modify_succ_cons, List.flatMap_cons] at later ⊢
          rw [later]

theorem mem_competitors_iff {pairing : Pairing α} {competitor : α} :
    competitor ∈ pairing.competitors ↔
      pairing.left = some competitor ∨ pairing.right = some competitor := by
  simp [Pairing.competitors]

/-- With distinct competitors, nobody stands in two pairings of a round. -/
theorem slot_eq_of_mem_competitors {round : List (Pairing α)} (distinct : (competitors round).Nodup)
    {slot otherSlot : Nat} {pairing other : Pairing α} {competitor : α}
    (found : round[slot]? = some pairing) (other_found : round[otherSlot]? = some other)
    (member : competitor ∈ pairing.competitors) (other_member : competitor ∈ other.competitors) :
    slot = otherSlot := by
  obtain ⟨slot_lt, rfl⟩ := List.getElem?_eq_some_iff.mp found
  obtain ⟨other_lt, rfl⟩ := List.getElem?_eq_some_iff.mp other_found
  have disjoint := List.pairwise_iff_getElem.mp (List.nodup_flatMap.mp distinct).2
  rcases Nat.lt_trichotomy slot otherSlot with lt | rfl | gt
  · exact (disjoint slot otherSlot slot_lt other_lt lt member other_member).elim
  · rfl
  · exact (disjoint otherSlot slot other_lt slot_lt gt other_member member).elim

/-! ## Feeding -/

namespace Feeds

variable {round next : List (Pairing α)}

theorem length (feeds : Feeds round next) : round.length = 2 * next.length := by
  have lengths := congrArg List.length feeds
  rw [entries_length, List.length_map] at lengths
  exact lengths.symm

/-- What a round sends on is exactly who plays the next one. -/
theorem competitors_eq (feeds : Feeds round next) : competitors next = winners round := by
  rw [competitors_eq_reduceOption, winners_eq_reduceOption]
  exact congrArg List.reduceOption feeds

theorem left_eq (feeds : Feeds round next) (slot : Nat) :
    next[slot]?.map Pairing.left = round[2 * slot]?.map Pairing.winner := by
  have entry := congrArg (fun side => side[2 * slot]?) feeds
  simpa only [entries_getElem?_even, List.getElem?_map] using entry

theorem right_eq (feeds : Feeds round next) (slot : Nat) :
    next[slot]?.map Pairing.right = round[2 * slot + 1]?.map Pairing.winner := by
  have entry := congrArg (fun side => side[2 * slot + 1]?) feeds
  simpa only [entries_getElem?_odd, List.getElem?_map] using entry

end Feeds

theorem winners_length_of_decided {round : List (Pairing α)}
    (decided : ∀ pairing ∈ round, pairing.winner.isSome) :
    (winners round).length = round.length := by
  induction round with
  | nil => rfl
  | cons pairing round ih =>
      obtain ⟨winner, known⟩ := Option.isSome_iff_exists.mp (decided pairing List.mem_cons_self)
      have rest := ih fun other member => decided other (List.mem_cons_of_mem pairing member)
      rw [winners, List.filterMap_cons_some known, List.length_cons, List.length_cons]
      exact congrArg Nat.succ rest

/-! ## Winners and losers -/

private theorem filterMap_cons_toList {β : Type*} (f : β → Option α) (item : β) (items : List β) :
    (item :: items).filterMap f = (f item).toList ++ items.filterMap f := by
  cases known : f item with
  | none => simp [known]
  | some value => simp [known]

section Losers

variable [DecidableEq α]

/-- The losers of a round, in order. -/
def losers (round : List (Pairing α)) : List α := round.filterMap Pairing.loser

private theorem split_cons (pairing : Pairing α) (round : List (Pairing α)) :
    (winners (pairing :: round) ++ losers (pairing :: round)).Perm
      ((pairing.winner.toList ++ pairing.loser.toList) ++ (winners round ++ losers round)) := by
  simp only [winners, losers, filterMap_cons_toList, List.append_assoc]
  apply List.Perm.append_left
  rw [← List.append_assoc, ← List.append_assoc]
  exact List.perm_append_comm.append_right _

/-- A decided round splits its competitors into winners and losers. -/
theorem winners_losers_perm {round : List (Pairing α)} (sound : ∀ p ∈ round, p.Sound)
    (decided : ∀ p ∈ round, p.winner.isSome) :
    (winners round ++ losers round).Perm (competitors round) := by
  induction round with
  | nil => rfl
  | cons pairing round ih =>
      have first := Pairing.winner_loser_perm (sound pairing List.mem_cons_self)
        (decided pairing List.mem_cons_self)
      have rest := ih (fun p member => sound p (List.mem_cons_of_mem _ member))
        (fun p member => decided p (List.mem_cons_of_mem _ member))
      exact (split_cons pairing round).trans (first.append rest)

/-- Winners and losers never outnumber the sides they come from. -/
theorem winners_losers_subperm {round : List (Pairing α)} (sound : ∀ p ∈ round, p.Sound) :
    (winners round ++ losers round).Subperm (competitors round) := by
  induction round with
  | nil => exact List.nil_subperm
  | cons pairing round ih =>
      have first := Pairing.winner_loser_subperm (sound pairing List.mem_cons_self)
      have rest := ih fun p member => sound p (List.mem_cons_of_mem _ member)
      exact (split_cons pairing round).subperm.trans (first.append rest)

theorem losers_length {round : List (Pairing α)} (sound : ∀ p ∈ round, p.Sound) :
    (losers round).length = round.countP Pairing.played := by
  induction round with
  | nil => rfl
  | cons pairing round ih =>
      have rest := ih fun p member => sound p (List.mem_cons_of_mem _ member)
      have first := Pairing.loser_isSome_iff_played (sound pairing List.mem_cons_self)
      rw [losers, filterMap_cons_toList, List.length_append, List.countP_cons, ← first]
      rw [losers] at rest
      cases pairing.loser with
      | none => simp [rest]
      | some loser => simp [rest, Nat.add_comm]

/-- With distinct competitors, winners and losers are distinct too. -/
theorem winners_losers_nodup {round : List (Pairing α)} (sound : ∀ p ∈ round, p.Sound)
    (distinct : (competitors round).Nodup) : (winners round ++ losers round).Nodup := by
  obtain ⟨split, split_perm, sublist⟩ := winners_losers_subperm sound
  exact split_perm.nodup_iff.mp (distinct.sublist sublist)

end Losers

end Knockout
