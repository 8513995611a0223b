import LanBunker.Brackets.Position
import LanBunker.Knockout.Chain

/-!
# The bracket invariant

A bracket is coherent over a seed order when it is a knockout whose first round seats exactly that
order and whose matches sit where they say they sit.  Entering or removing a result through
`report` and `clear` keeps a bracket coherent, whatever came before.
-/

namespace LanBunker

open Knockout

/-- A match as a pairing of the abstract knockout. -/
def Match.pairing (m : Match) : Pairing EntrantId := ⟨m.entrantA, m.entrantB, m.winner⟩

@[simp]
theorem Match.pairing_left (m : Match) : m.pairing.left = m.entrantA := rfl

@[simp]
theorem Match.pairing_right (m : Match) : m.pairing.right = m.entrantB := rfl

@[simp]
theorem Match.pairing_winner (m : Match) : m.pairing.winner = m.winner := rfl

/-- The pairings of one round. -/
def pairings (slots : List Match) : List (Pairing EntrantId) := slots.map Match.pairing

namespace Bracket

/-- The rounds of a bracket as rounds of the abstract knockout. -/
def knockout (bracket : Bracket) : List (List (Pairing EntrantId)) := bracket.rounds.map pairings

/-- The invariant of a bracket drawn over `seeded`. -/
structure Coherent (seeded : List EntrantId) (bracket : Bracket) : Prop where
  /-- The round and slot fields of a match are its position. -/
  placed : ∀ round slot m, bracket.get round slot = some m → m.round = round + 1 ∧ m.slot = slot
  /-- A winner is one of the two sides. -/
  sound : ∀ round slot m, bracket.get round slot = some m → m.pairing.Sound
  /-- The winners of a round are the sides of the next. -/
  feeds : ∀ round slots next, bracket.rounds[round]? = some slots →
    bracket.rounds[round + 1]? = some next → Feeds (pairings slots) (pairings next)
  /-- After round one, only a match with both sides has a winner. -/
  ready : ∀ round slot m, bracket.get (round + 1) slot = some m → m.winner.isSome → m.isReady
  /-- A match of round one has a side a, and alone that side has already won. -/
  byes : ∀ slot m, bracket.get 0 slot = some m →
    m.entrantA.isSome ∧ (m.entrantB = none → m.winner = m.entrantA)
  /-- Round one seats the seed order. -/
  opening : ∃ slots, bracket.rounds[0]? = some slots ∧ competitors (pairings slots) = seeded
  /-- The last round is one final. -/
  final : bracket.rounds.getLast?.map List.length = some 1

/-! ## One result -/

section Enter

variable {seeded : List EntrantId} {bracket : Bracket} {round slot : Nat} {m : Match}
  {winner : Option EntrantId}

private theorem map_modify {α β : Type*} (view : α → β) {write : α → α} (write' : β → β)
    (commutes : ∀ item, view (write item) = write' (view item)) (items : List α) (index : Nat) :
    (items.modify index write).map view = (items.map view).modify index write' := by
  induction items generalizing index with
  | nil => simp
  | cons item items ih =>
      cases index with
      | zero => simp [commutes]
      | succ index => simp [ih]

private theorem map_modify_of_eq {α β : Type*} (view : α → β) {write : α → α}
    (keeps : ∀ item, view (write item) = view item) (items : List α) (index : Nat) :
    (items.modify index write).map view = items.map view := by
  rw [map_modify view id keeps, List.modify_id]

/-- Writing the side a slot feeds, on pairings. -/
private def writeEntry (slot : Nat) (entrant : Option EntrantId) (pairing : Pairing EntrantId) :
    Pairing EntrantId :=
  if slot % 2 = 0 then { pairing with left := entrant } else { pairing with right := entrant }

private theorem pairing_fed (slot : Nat) (entrant : Option EntrantId) (next : Match) :
    (next.fed slot entrant).pairing = writeEntry slot entrant next.pairing := by
  unfold Match.fed writeEntry
  split_ifs <;> rfl

private theorem entries_writeEntry (slot : Nat) (entrant : Option EntrantId)
    (pairing : Pairing EntrantId) :
    (writeEntry slot entrant pairing).entries = pairing.entries.set (slot % 2) entrant := by
  unfold writeEntry
  split_ifs with even
  · rw [even]
    rfl
  · rw [show slot % 2 = 1 by omega]
    rfl

/-- Feeding a slot writes exactly that entry of the next round. -/
theorem entries_modify_fed (next : List Match) (slot : Nat) (entrant : Option EntrantId) :
    entries (pairings (next.modify (slot / 2) (Match.fed slot entrant))) =
      (entries (pairings next)).set slot entrant := by
  simp only [pairings]
  rw [map_modify Match.pairing _ (pairing_fed slot entrant)]
  exact entries_modify _ slot _ entrant (entries_writeEntry slot entrant)

/-- A result is the entry it feeds: both sides of `Feeds` are written at one place. -/
private theorem feeds_enter {slots next : List Match}
    (feeds : Feeds (pairings slots) (pairings next)) (slot : Nat) (winner : Option EntrantId) :
    Feeds (pairings (slots.modify slot fun m => { m with winner }))
      (pairings (next.modify (slot / 2) (Match.fed slot winner))) := by
  have written : (pairings (slots.modify slot fun m => { m with winner })).map Pairing.winner =
      ((pairings slots).map Pairing.winner).set slot winner := by
    simp only [pairings, List.map_map]
    rw [map_modify (Pairing.winner ∘ Match.pairing) (fun _ => winner) fun _ => rfl,
      List.modify_eq_set_getElem?]
    cases found : (slots.map (Pairing.winner ∘ Match.pairing))[slot]? with
    | none => simp [List.set_eq_of_length_le (List.getElem?_eq_none_iff.mp found)]
    | some entry => simp
  rw [Feeds, written, ← feeds]
  exact entries_modify_fed next slot winner

private theorem entries_modify_winner (slots : List Match) (slot : Nat)
    (winner : Option EntrantId) :
    entries (pairings (slots.modify slot fun m => { m with winner })) =
      entries (pairings slots) := by
  simp only [pairings]
  rw [map_modify Match.pairing (fun pairing => { pairing with winner }) fun _ => rfl]
  exact entries_modify_of_eq _ _ _ fun _ => rfl

private theorem winners_modify_side (slots : List Match) (slot : Nat)
    (entrant : Option EntrantId) :
    (pairings (slots.modify (slot / 2) (Match.fed slot entrant))).map Pairing.winner =
      (pairings slots).map Pairing.winner := by
  simp only [pairings, List.map_map]
  exact map_modify_of_eq _ (fun next => next.fed_winner slot entrant) _ _

theorem get_enter_eq_some {otherRound otherSlot : Nat} {after : Match}
    (found : (bracket.enter round slot winner).get otherRound otherSlot = some after) :
    ∃ before, bracket.get otherRound otherSlot = some before ∧
      after = entered round slot winner otherRound otherSlot before := by
  rw [get_enter] at found
  obtain ⟨before, before_found, after_eq⟩ := Option.map_eq_some_iff.mp found
  exact ⟨before, before_found, after_eq.symm⟩

/-- The three kinds of position after a result: the match itself, the match it feeds, which is
undecided before and after, and every other match, which is as it was. -/
private theorem entered_cases (winner : Option EntrantId)
    (enterable : bracket.Enterable round slot m) {otherRound otherSlot : Nat}
    {before : Match} (found : bracket.get otherRound otherSlot = some before) :
    (otherRound = round ∧ otherSlot = slot ∧ before = m ∧
        entered round slot winner otherRound otherSlot before = { m with winner }) ∨
      (otherRound = round + 1 ∧ before.winner = none ∧
        (entered round slot winner otherRound otherSlot before).winner = none) ∨
      entered round slot winner otherRound otherSlot before = before := by
  by_cases here : otherRound = round ∧ otherSlot = slot
  · obtain ⟨rfl, rfl⟩ := here
    obtain rfl : before = m := Option.some.inj (found.symm.trans enterable.found)
    exact Or.inl ⟨rfl, rfl, rfl, entered_self _ _ _ _⟩
  · by_cases next : otherRound = round + 1 ∧ otherSlot = slot / 2
    · obtain ⟨rfl, rfl⟩ := next
      have undecided := enterable.next before found
      refine Or.inr (Or.inl ⟨rfl, undecided, ?_⟩)
      rw [entered_next, Match.fed_winner]
      exact undecided
    · exact Or.inr (Or.inr (entered_of_ne here next))

/-- Entering or removing one result keeps a bracket coherent. -/
theorem Coherent.enter (coherent : Coherent seeded bracket)
    (enterable : bracket.Enterable round slot m)
    (side : ∀ entrant, winner = some entrant →
      m.entrantA = some entrant ∨ m.entrantB = some entrant) :
    Coherent seeded (bracket.enter round slot winner) where
  placed otherRound otherSlot after found := by
    obtain ⟨before, before_found, rfl⟩ := get_enter_eq_some found
    simpa using coherent.placed otherRound otherSlot before before_found
  sound otherRound otherSlot after found := by
    obtain ⟨before, before_found, rfl⟩ := get_enter_eq_some found
    rcases entered_cases winner enterable before_found with
      ⟨-, -, -, here⟩ | ⟨-, -, undecided⟩ | same
    · rw [here]
      exact side
    · intro entrant decided
      rw [Match.pairing_winner, undecided] at decided
      cases decided
    · rw [same]
      exact coherent.sound otherRound otherSlot before before_found
  feeds index slots next slots_eq next_eq := by
    rw [rounds_enter] at slots_eq next_eq
    obtain ⟨slots₀, slots₀_eq, rfl⟩ := Option.map_eq_some_iff.mp slots_eq
    obtain ⟨next₀, next₀_eq, rfl⟩ := Option.map_eq_some_iff.mp next_eq
    have feeds := coherent.feeds index slots₀ next₀ slots₀_eq next₀_eq
    by_cases here : index = round
    · subst here
      rw [if_pos rfl, if_neg (by omega), if_pos rfl]
      exact feeds_enter feeds slot winner
    · by_cases before : index + 1 = round
      · rw [if_neg here, if_neg (by omega), if_pos before, Feeds, entries_modify_winner]
        exact feeds
      · by_cases after : index = round + 1
        · rw [if_neg here, if_pos after, if_neg before, if_neg (by omega)]
          exact feeds.trans (winners_modify_side slots₀ slot winner).symm
        · rw [if_neg here, if_neg after, if_neg before, if_neg (by omega)]
          exact feeds
  ready otherRound otherSlot after found decided := by
    obtain ⟨before, before_found, rfl⟩ := get_enter_eq_some found
    rcases entered_cases winner enterable before_found with
      ⟨-, -, -, here⟩ | ⟨-, -, undecided⟩ | same
    · rw [here]
      exact enterable.ready
    · rw [undecided] at decided
      cases decided
    · rw [same] at decided ⊢
      exact coherent.ready otherRound otherSlot before before_found decided
  byes otherSlot after found := by
    obtain ⟨before, before_found, rfl⟩ := get_enter_eq_some found
    rcases entered_cases winner enterable before_found with
      ⟨-, -, -, here⟩ | ⟨impossible, -, -⟩ | same
    · have ready := enterable.ready
      rw [Match.isReady, Bool.and_eq_true] at ready
      rw [here]
      refine ⟨ready.1, fun alone => ?_⟩
      rw [show m.entrantB = none from alone] at ready
      cases ready.2
    · omega
    · rw [same]
      exact coherent.byes otherSlot before before_found
  opening := by
    obtain ⟨slots, slots_eq, seats⟩ := coherent.opening
    refine ⟨_, by rw [rounds_enter, slots_eq]; rfl, ?_⟩
    rw [← seats, competitors_eq_reduceOption, competitors_eq_reduceOption]
    congr 1
    by_cases here : 0 = round
    · subst here
      simpa using entries_modify_winner slots slot winner
    · simp [here]
  final := by
    have lengths : (bracket.enter round slot winner).rounds.map List.length =
        bracket.rounds.map List.length := by
      simp only [Bracket.enter, feed, Bracket.modify]
      rw [map_modify_of_eq List.length fun slots => List.length_modify _ _ _,
        map_modify_of_eq List.length fun slots => List.length_modify _ _ _]
    rw [← List.getLast?_map, lengths, List.getLast?_map]
    exact coherent.final

end Enter

/-! ## Any sequence of calls -/

section Calls

variable {seeded : List EntrantId} {bracket : Bracket}

theorem Coherent.report (coherent : Coherent seeded bracket) (id : MatchId)
    (winner : EntrantId) : Coherent seeded (bracket.report id winner).2 := by
  rcases report_cases bracket id winner with
    ⟨error, refused⟩ | ⟨round, slot, m, -, -, enterable, side, entered⟩
  · rw [refused]
    exact coherent
  · rw [entered]
    refine coherent.enter enterable fun entrant known => ?_
    obtain rfl := Option.some.inj known
    exact side

theorem Coherent.clear (coherent : Coherent seeded bracket) (id : MatchId) :
    Coherent seeded (bracket.clear id).2 := by
  rcases clear_cases bracket id with
    ⟨error, refused⟩ | untouched | ⟨round, slot, m, -, -, enterable, -, entered⟩
  · rw [refused]
    exact coherent
  · rw [untouched]
    exact coherent
  · rw [entered]
    exact coherent.enter enterable fun entrant known => by cases known

/-- One call on a bracket, with any match and any entrant. -/
inductive Call where
  | report (id : MatchId) (winner : EntrantId)
  | clear (id : MatchId)
  deriving DecidableEq, Repr

/-- The bracket a call leaves behind, refused or not. -/
def play (bracket : Bracket) : Call → Bracket
  | .report id winner => (bracket.report id winner).2
  | .clear id => (bracket.clear id).2

/-- The bracket a sequence of calls leaves behind. -/
def playAll (bracket : Bracket) (calls : List Call) : Bracket := calls.foldl play bracket

theorem Coherent.play (coherent : Coherent seeded bracket) (call : Call) :
    Coherent seeded (bracket.play call) := by
  cases call with
  | report id winner => exact coherent.report id winner
  | clear id => exact coherent.clear id

theorem Coherent.playAll (coherent : Coherent seeded bracket) (calls : List Call) :
    Coherent seeded (bracket.playAll calls) := by
  induction calls generalizing bracket with
  | nil => exact coherent
  | cons call calls ih => exact ih (coherent.play call)

section Keeps

variable {α : Type*} {view : Match → α}

/-- What a result and the side it feeds both keep, a call keeps of every row. -/
theorem flat_map_enter (keeps_result : ∀ m winner, view { m with winner } = view m)
    (keeps_side : ∀ m slot entrant, view (Match.fed slot entrant m) = view m) (bracket : Bracket)
    (round slot : Nat) (winner : Option EntrantId) :
    (bracket.enter round slot winner).flat.map view = bracket.flat.map view := by
  have all : ∀ (write : Match → Match) (keeps : ∀ m, view (write m) = view m) (round slot : Nat)
      (bracket : Bracket),
      (bracket.modify round slot write).flat.map view = bracket.flat.map view := by
    intro write keeps round slot bracket
    simp only [flat, modify, List.map_flatten]
    rw [map_modify_of_eq (List.map view) fun slots => map_modify_of_eq view keeps slots slot]
  rw [enter, feed, all _ fun m => keeps_side m slot winner, all]
  exact fun m => keeps_result m winner

theorem play_flat_map (keeps_result : ∀ m winner, view { m with winner } = view m)
    (keeps_side : ∀ m slot entrant, view (Match.fed slot entrant m) = view m) (bracket : Bracket)
    (call : Call) : (bracket.play call).flat.map view = bracket.flat.map view := by
  cases call with
  | report id winner =>
      rcases report_cases bracket id winner with
        ⟨error, refused⟩ | ⟨round, slot, m, -, -, -, -, entered⟩
      · rw [play, refused]
      · rw [play, entered, flat_map_enter keeps_result keeps_side]
  | clear id =>
      rcases clear_cases bracket id with
        ⟨error, refused⟩ | untouched | ⟨round, slot, m, -, -, -, -, entered⟩
      · rw [play, refused]
      · rw [play, untouched]
      · rw [play, entered, flat_map_enter keeps_result keeps_side]

end Keeps

theorem play_flat_ids (bracket : Bracket) (call : Call) :
    (bracket.play call).flat.map Match.id = bracket.flat.map Match.id :=
  play_flat_map (fun _ _ => rfl) (fun m slot entrant => m.fed_id slot entrant) bracket call

theorem playAll_flat_ids (bracket : Bracket) (calls : List Call) :
    (bracket.playAll calls).flat.map Match.id = bracket.flat.map Match.id := by
  induction calls generalizing bracket with
  | nil => rfl
  | cons call calls ih => exact (ih (bracket.play call)).trans (play_flat_ids bracket call)

theorem DistinctIds.play (ids : bracket.DistinctIds) (call : Call) :
    (bracket.play call).DistinctIds := by
  rw [DistinctIds, play_flat_ids]
  exact ids

theorem DistinctIds.playAll (ids : bracket.DistinctIds) (calls : List Call) :
    (bracket.playAll calls).DistinctIds := by
  rw [DistinctIds, playAll_flat_ids]
  exact ids

end Calls

end Bracket
end LanBunker
