import Mathlib.Data.List.Chain
import LanBunker.Knockout.Round

/-!
# Knockouts

A knockout is a list of rounds in which every winner is sound and each round feeds the next.
Distinctness of the competitors travels from the first round to every later one, and a decided
knockout accounts for every competitor of round one exactly once: as the loser of one pairing or
as a winner of the last round.
-/

namespace Knockout

variable {α : Type*}

/-- Sound rounds, each feeding the next. -/
structure IsKnockout (rounds : List (List (Pairing α))) : Prop where
  sound : ∀ round ∈ rounds, ∀ pairing ∈ round, pairing.Sound
  feeds : rounds.IsChain Feeds

namespace IsKnockout

variable {first : List (Pairing α)} {rounds : List (List (Pairing α))}

theorem tail (knockout : IsKnockout (first :: rounds)) : IsKnockout rounds where
  sound round member := knockout.sound round (List.mem_cons_of_mem first member)
  feeds := knockout.feeds.tail

theorem sound_head (knockout : IsKnockout (first :: rounds)) :
    ∀ pairing ∈ first, pairing.Sound :=
  knockout.sound first List.mem_cons_self

variable [DecidableEq α]

/-- Distinct competitors in round one stay distinct in every round. -/
theorem competitors_nodup (knockout : IsKnockout (first :: rounds))
    (distinct : (competitors first).Nodup) :
    ∀ round ∈ first :: rounds, (competitors round).Nodup := by
  induction rounds generalizing first with
  | nil =>
      intro round member
      obtain rfl := List.mem_singleton.mp member
      exact distinct
  | cons second rounds ih =>
      have feeds : Feeds first second := (List.isChain_cons_cons.mp knockout.feeds).1
      have next_distinct : (competitors second).Nodup := by
        rw [feeds.competitors_eq]
        exact (winners_losers_nodup knockout.sound_head distinct).of_append_left
      intro round member
      rcases List.mem_cons.mp member with rfl | later
      · exact distinct
      · exact ih knockout.tail next_distinct round later

/-- Every loser so far and every winner of the last round is a distinct entry of round one. -/
theorem losers_subperm (knockout : IsKnockout (first :: rounds)) :
    ((first :: rounds).flatMap losers ++ winners ((first :: rounds).getLast (by simp))).Subperm
      (competitors first) := by
  induction rounds generalizing first with
  | nil =>
      simpa using List.perm_append_comm.subperm.trans (winners_losers_subperm knockout.sound_head)
  | cons second rounds ih =>
      have feeds : Feeds first second := (List.isChain_cons_cons.mp knockout.feeds).1
      have later := ih knockout.tail
      rw [feeds.competitors_eq] at later
      rw [List.flatMap_cons, List.append_assoc, List.getLast_cons (by simp)]
      have joined := (List.subperm_append_left (losers first)).mpr later
      exact (joined.trans List.perm_append_comm.subperm).trans
        (winners_losers_subperm knockout.sound_head)

/-- A decided knockout splits round one into all losers and the winners of the last round. -/
theorem losers_perm (knockout : IsKnockout (first :: rounds))
    (decided : ∀ round ∈ first :: rounds, ∀ pairing ∈ round, pairing.winner.isSome) :
    ((first :: rounds).flatMap losers ++ winners ((first :: rounds).getLast (by simp))).Perm
      (competitors first) := by
  induction rounds generalizing first with
  | nil =>
      simpa using List.perm_append_comm.trans
        (winners_losers_perm knockout.sound_head (decided first List.mem_cons_self))
  | cons second rounds ih =>
      have feeds : Feeds first second := (List.isChain_cons_cons.mp knockout.feeds).1
      have later := ih knockout.tail
        fun round member => decided round (List.mem_cons_of_mem first member)
      rw [feeds.competitors_eq] at later
      rw [List.flatMap_cons, List.append_assoc, List.getLast_cons (by simp)]
      have joined := later.append_left (losers first)
      exact (joined.trans List.perm_append_comm).trans
        (winners_losers_perm knockout.sound_head (decided first List.mem_cons_self))

theorem losers_length (knockout : IsKnockout rounds) :
    (rounds.flatMap losers).length = rounds.flatten.countP Pairing.played := by
  induction rounds with
  | nil => rfl
  | cons first rounds ih =>
      rw [List.flatMap_cons, List.length_append, List.flatten_cons, List.countP_append,
        ih knockout.tail, Knockout.losers_length knockout.sound_head]

end IsKnockout

/-- A round whose successor knows every side is decided. -/
theorem Feeds.decided {round next : List (Pairing α)} (feeds : Feeds round next)
    (ready : ∀ pairing ∈ next, pairing.left.isSome ∧ pairing.right.isSome) :
    ∀ pairing ∈ round, pairing.winner.isSome := by
  have known : ∀ entry ∈ entries next, entry.isSome := by
    intro entry member
    obtain ⟨pairing, pairing_mem, entry_mem⟩ := List.mem_flatMap.mp member
    rcases List.mem_pair.mp entry_mem with rfl | rfl
    · exact (ready pairing pairing_mem).1
    · exact (ready pairing pairing_mem).2
  intro pairing member
  apply known
  rw [feeds]
  exact List.mem_map_of_mem member

/-- When every decided pairing after round one has both sides, a decided last round means a
decided knockout. -/
theorem decided_of_last {first : List (Pairing α)} {rounds : List (List (Pairing α))}
    (feeds : (first :: rounds).IsChain Feeds)
    (ready : ∀ round ∈ rounds, ∀ pairing ∈ round, pairing.winner.isSome →
      pairing.left.isSome ∧ pairing.right.isSome)
    (last : ∀ pairing ∈ (first :: rounds).getLast (by simp), pairing.winner.isSome) :
    ∀ round ∈ first :: rounds, ∀ pairing ∈ round, pairing.winner.isSome := by
  induction rounds generalizing first with
  | nil =>
      intro round member
      obtain rfl := List.mem_singleton.mp member
      simpa using last
  | cons second rounds ih =>
      obtain ⟨first_feeds, rest_feeds⟩ := List.isChain_cons_cons.mp feeds
      have later := ih rest_feeds
        (fun round member => ready round (List.mem_cons_of_mem second member))
        (by simpa using last)
      have second_ready : ∀ pairing ∈ second, pairing.left.isSome ∧ pairing.right.isSome :=
        fun pairing member => ready second List.mem_cons_self pairing member
          (later second List.mem_cons_self pairing member)
      intro round member
      rcases List.mem_cons.mp member with rfl | in_later
      · exact first_feeds.decided second_ready
      · exact later round in_later

/-- Sizes halve down to the last round, so a round is empty only when the last one is. -/
theorem ne_nil_of_last {first : List (Pairing α)} {rounds : List (List (Pairing α))}
    (feeds : (first :: rounds).IsChain Feeds)
    (last : ((first :: rounds).getLast (by simp)).length = 1) :
    ∀ round ∈ first :: rounds, round ≠ [] := by
  induction rounds generalizing first with
  | nil =>
      intro round member empty
      obtain rfl := List.mem_singleton.mp member
      subst empty
      simp at last
  | cons second rounds ih =>
      obtain ⟨first_feeds, rest_feeds⟩ := List.isChain_cons_cons.mp feeds
      have later := ih rest_feeds (by simpa using last)
      intro round member empty
      rcases List.mem_cons.mp member with rfl | in_later
      · have lengths := first_feeds.length
        have second_pos := List.length_pos_of_ne_nil (later second List.mem_cons_self)
        rw [empty, List.length_nil] at lengths
        omega
      · exact later round in_later empty

/-- A knockout with one pairing in the last round has twice as many pairings as round one, less
one. -/
theorem flatten_length {first : List (Pairing α)} {rounds : List (List (Pairing α))}
    (feeds : (first :: rounds).IsChain Feeds)
    (last : ((first :: rounds).getLast (by simp)).length = 1) :
    (first :: rounds).flatten.length + 1 = 2 * first.length := by
  induction rounds generalizing first with
  | nil =>
      have one : first.length = 1 := by simpa using last
      simp [one]
  | cons second rounds ih =>
      obtain ⟨first_feeds, rest_feeds⟩ := List.isChain_cons_cons.mp feeds
      have later := ih rest_feeds (by simpa using last)
      have lengths := first_feeds.length
      rw [List.flatten_cons, List.length_append]
      omega

end Knockout
