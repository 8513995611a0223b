import Mathlib.Data.List.Sort
import LanBunker.Models.Id

/-!
# Single elimination brackets

The rules of `bunker-models/src/bracket.rs` as pure functions.  A method that takes `&mut self`
returns its result together with the bracket it leaves behind, whether it succeeds or not.
-/

namespace LanBunker

/-- The largest field a tournament takes. -/
def maxEntrants : Nat := 256

/-- One match.  `round` starts at 1, `slot` at 0.  An empty side is a bye in round 1 and an
undecided feeder afterwards. -/
structure Match where
  id : MatchId
  round : Nat
  slot : Nat
  entrantA : Option EntrantId
  entrantB : Option EntrantId
  winner : Option EntrantId
  deriving DecidableEq, Repr

namespace Match

/-- Both sides are known, so a result can be entered. -/
def isReady (m : Match) : Bool := m.entrantA.isSome && m.entrantB.isSome

/-- A winner that came from playing, not from a bye. -/
def isPlayed (m : Match) : Bool := m.isReady && m.winner.isSome

/-- The side of this match that `slot` of the round before feeds: an even slot is side a, an odd
slot side b. -/
def fed (slot : Nat) (entrant : Option EntrantId) (next : Match) : Match :=
  if slot % 2 = 0 then { next with entrantA := entrant } else { next with entrantB := entrant }

end Match

/-- Every match of a tournament, round by round.  The head of `rounds` is round 1 and the last
round holds the final alone. -/
structure Bracket where
  rounds : List (List Match)
  deriving DecidableEq, Repr

inductive BracketError where
  | tooFewEntrants (count : Nat)
  | tooManyEntrants (count : Nat)
  | unknownMatch (id : MatchId)
  | notReady (id : MatchId)
  | notAParticipant (entrant : EntrantId) (id : MatchId)
  | nextDecided (id : MatchId)
  | malformed
  deriving DecidableEq, Repr

/-- `usize::next_power_of_two`. -/
def nextPowerOfTwo (count : Nat) : Nat :=
  if count ≤ 1 then 1 else 2 ^ (Nat.log2 (count - 1) + 1)

/-- `usize::trailing_zeros`: the position of the lowest set bit of a 64 bit word. -/
def trailingZeros (word : Nat) : Nat :=
  (List.range 64).findIdx fun bit => word.testBit bit

namespace Bracket

/-! ## Reading and writing one position -/

def get (bracket : Bracket) (round slot : Nat) : Option Match :=
  bracket.rounds[round]?.bind fun slots => slots[slot]?

/-- A write through `get_mut`: a position outside the bracket is left alone. -/
def modify (bracket : Bracket) (round slot : Nat) (write : Match → Match) : Bracket :=
  { rounds := bracket.rounds.modify round fun slots => slots.modify slot write }

/-- Writes an entrant into the side of the next match that this slot feeds.  The final feeds
nothing. -/
def feed (bracket : Bracket) (round slot : Nat) (entrant : Option EntrantId) : Bracket :=
  bracket.modify (round + 1) (slot / 2) (Match.fed slot entrant)

/-! ## Building a bracket -/

/-- The matches of round one from `slot` on, `slots` of them.  `seeds` is what the iterator over
the seed order still holds: a bye takes one seed, every other match takes two. -/
def firstRound (draw : Nat → MatchId) (byes : Nat) : Nat → Nat → List EntrantId → List Match
  | 0, _, _ => []
  | slots + 1, slot, seeds =>
      let entrantA := seeds.head?
      let afterA := seeds.tail
      let entrantB := if slot < byes then none else afterA.head?
      let afterB := if slot < byes then afterA else afterA.tail
      let winner := if entrantB.isNone then entrantA else none
      { id := draw slot, round := 1, slot, entrantA, entrantB, winner } ::
        firstRound draw byes slots (slot + 1) afterB

/-- The empty matches of one later round.  It starts after the `size - (size >>> (round - 1))`
matches of the rounds before it. -/
def emptyRound (draw : Nat → MatchId) (size round : Nat) : List Match :=
  (List.range (size >>> round)).map fun slot =>
    { id := draw (size - (size >>> (round - 1)) + slot), round, slot
      entrantA := none, entrantB := none, winner := none }

/-- Rounds 2 to `roundCount`. -/
def laterRounds (draw : Nat → MatchId) (size roundCount : Nat) : List (List Match) :=
  (List.range' 2 (roundCount - 1)).map (emptyRound draw size)

/-- The slots of round one that already hold a winner. -/
def byeWinners (firstRound : List Match) : List (Nat × EntrantId) :=
  firstRound.zipIdx.filterMap fun (m, slot) => m.winner.map fun winner => (slot, winner)

/-- Builds every match from the entrants in seed order.  `draw` is what `MatchId::generate` hands
out, match by match. -/
def generate (draw : Nat → MatchId) (seeded : List EntrantId) : Except BracketError Bracket :=
  let count := seeded.length
  if count < 2 then .error (.tooFewEntrants count)
  else if count > maxEntrants then .error (.tooManyEntrants count)
  else
    let size := nextPowerOfTwo count
    let byes := size - count
    let first := firstRound draw byes (size / 2) 0 seeded
    let bracket : Bracket := { rounds := first :: laterRounds draw size (trailingZeros size) }
    .ok <| (byeWinners first).foldl
      (fun bracket (slot, winner) => bracket.feed 0 slot (some winner)) bracket

/-! ## Reading flat rows back -/

/-- `by_round.entry(m.round).or_default().push(m)`, on the entries of the map in key order. -/
def pushByRound : List (Nat × List Match) → Match → List (Nat × List Match)
  | [], m => [(m.round, [m])]
  | (round, slots) :: rest, m =>
      if m.round < round then (m.round, [m]) :: (round, slots) :: rest
      else if m.round = round then (round, slots ++ [m]) :: rest
      else (round, slots) :: pushByRound rest m

/-- One round of the flat rows: it must be the next round, and its slots must count from 0. -/
def groupRound (index round : Nat) (slots : List Match) : Except BracketError (List Match) :=
  if round ≠ index + 1 then .error .malformed
  else
    let sorted := slots.insertionSort fun left right => left.slot ≤ right.slot
    if sorted.zipIdx.all fun (m, slot) => m.slot == slot then .ok sorted else .error .malformed

/-- Each round is half the size of the one before. -/
def sizesHalve (rounds : List (List Match)) : Bool :=
  (rounds.zip rounds.tail).all fun (slots, next) => slots.length == next.length * 2

/-- Groups flat rows by round and slot, as storage returns them.  Anything but a whole bracket is
refused. -/
def fromMatches (rows : List Match) : Except BracketError Bracket := do
  let byRound := rows.foldl pushByRound []
  let rounds ← byRound.zipIdx.mapM fun ((round, slots), index) => groupRound index round slots
  if rounds.getLast?.map List.length ≠ some 1 ∨ sizesHalve rounds = false then
    .error .malformed
  else .ok { rounds }

/-! ## Reading a bracket -/

def flat (bracket : Bracket) : List Match := bracket.rounds.flatten

/-- True once any match was played.  A bye is not a result. -/
def hasResults (bracket : Bracket) : Bool := bracket.flat.any Match.isPlayed

def champion (bracket : Bracket) : Option EntrantId := do
  let last ← bracket.rounds.getLast?
  let final ← last.head?
  final.winner

/-! ## Results -/

def locate (bracket : Bracket) (id : MatchId) : Except BracketError (Nat × Nat) :=
  match bracket.rounds.zipIdx.findSome? fun (slots, round) =>
      (slots.findIdx? fun m => m.id = id).map fun slot => (round, slot) with
  | some position => .ok position
  | none => .error (.unknownMatch id)

def guardNextUndecided (bracket : Bracket) (round slot : Nat) (id : MatchId) :
    Except BracketError Unit :=
  match bracket.get (round + 1) (slot / 2) with
  | some next => if next.winner.isSome then .error (.nextDecided id) else .ok ()
  | none => .ok ()

/-- The match at a position and the match it feeds, as they are now. -/
def changed (bracket : Bracket) (round slot : Nat) : List Match :=
  [bracket.get round slot, bracket.get (round + 1) (slot / 2)].reduceOption

/-- The write that `report` and `clear` share: the result itself, and the side it feeds. -/
def enter (bracket : Bracket) (round slot : Nat) (winner : Option EntrantId) : Bracket :=
  (bracket.modify round slot fun m => { m with winner }).feed round slot winner

/-- Enters a result.  The winner moves into the next round.  A result can be changed as long as
the next match is still undecided.  Returns the matches that changed. -/
def report (bracket : Bracket) (id : MatchId) (winner : EntrantId) :
    Except BracketError (List Match) × Bracket :=
  match bracket.locate id with
  | .error error => (.error error, bracket)
  | .ok (round, slot) =>
      match bracket.get round slot with
      | none => (.error (.unknownMatch id), bracket)
      | some current =>
          if current.isReady = false then (.error (.notReady id), bracket)
          else if current.entrantA ≠ some winner ∧ current.entrantB ≠ some winner then
            (.error (.notAParticipant winner id), bracket)
          else
            match bracket.guardNextUndecided round slot id with
            | .error error => (.error error, bracket)
            | .ok () =>
                let bracket := bracket.enter round slot (some winner)
                (.ok (bracket.changed round slot), bracket)

/-- Removes a result and empties the slot it fed.  A bye cannot be cleared: the lone entrant has
nobody to lose to. -/
def clear (bracket : Bracket) (id : MatchId) : Except BracketError (List Match) × Bracket :=
  match bracket.locate id with
  | .error error => (.error error, bracket)
  | .ok (round, slot) =>
      match bracket.get round slot with
      | none => (.error (.unknownMatch id), bracket)
      | some current =>
          if current.isReady = false then (.error (.notReady id), bracket)
          else if current.winner.isNone then (.ok [], bracket)
          else
            match bracket.guardNextUndecided round slot id with
            | .error error => (.error error, bracket)
            | .ok () =>
                let bracket := bracket.enter round slot none
                (.ok (bracket.changed round slot), bracket)

end Bracket

end LanBunker
