import LanBunker.Models.Tournament

/-!
# Cycles

What every source of cycles pays.  The ledger is a list of signed entries, and a conclusion is
turned into entries by `tournamentAwards`.
-/

namespace LanBunker

def checkinCycles : Int := 100
def entryCycles : Int := 40
def matchWinCycles : Int := 30

/-- The largest single adjustment an admin can make, in either direction. -/
def adjustmentMax : Int := 10000

/-- The size of the field. -/
inductive FieldTier where
  | small
  | medium
  | large
  deriving DecidableEq, Repr

namespace FieldTier

def all : List FieldTier := [.small, .medium, .large]

/-- The smallest field of the tier. -/
def minEntrants : FieldTier → Nat
  | .small => 2
  | .medium => 8
  | .large => 16

def forEntrants (count : Nat) : FieldTier :=
  (all.reverse.find? fun tier => tier.minEntrants ≤ count).getD .small

end FieldTier

/-- The source of an entry. -/
inductive PointKind where
  | checkin
  | tournamentEntry
  | matchWin
  | champion
  | finalist
  | semifinalist
  | adjustment
  deriving DecidableEq, Repr

namespace PointKind

/-- Every kind, in the order a legend lists them. -/
def all : List PointKind :=
  [.checkin, .tournamentEntry, .matchWin, .semifinalist, .finalist, .champion, .adjustment]

/-- What this kind pays in a field of this tier. -/
def cycles : PointKind → FieldTier → Option Int
  | .checkin, _ => some checkinCycles
  | .tournamentEntry, _ => some entryCycles
  | .matchWin, _ => some matchWinCycles
  | .champion, .small => some 120
  | .champion, .medium => some 200
  | .champion, .large => some 300
  | .finalist, .small => some 70
  | .finalist, .medium => some 120
  | .finalist, .large => some 180
  | .semifinalist, .small => some 40
  | .semifinalist, .medium => some 60
  | .semifinalist, .large => some 90
  | .adjustment, _ => none

end PointKind

/-! ## The published rules -/

structure TierRule where
  tier : FieldTier
  minEntrants : Nat
  deriving DecidableEq, Repr

structure AwardRule where
  kind : PointKind
  /-- One amount per tier, in the order of the tiers. -/
  cycles : List Int
  deriving DecidableEq, Repr

structure RankRule where
  rank : Rank
  floor : Int
  deriving DecidableEq, Repr

/-- Every way to earn cycles, the field tiers and the ladder. -/
structure CyclesRules where
  tiers : List TierRule
  awards : List AwardRule
  adjustmentMax : Int
  ranks : List RankRule
  deriving DecidableEq, Repr

/-- The rules as the API lists them, without the kinds that have no fixed amount. -/
def CyclesRules.current : CyclesRules where
  tiers := FieldTier.all.map fun tier => { tier, minEntrants := tier.minEntrants }
  awards := PointKind.all.filterMap fun kind =>
    (FieldTier.all.mapM kind.cycles).map fun cycles => { kind, cycles }
  adjustmentMax := LanBunker.adjustmentMax
  ranks := Rank.all.map fun rank => { rank, floor := rank.floor }

/-- A signed amount of cycles for one admin adjustment. -/
structure Amount where
  value : Int
  nonzero : value ≠ 0
  ge_min : -adjustmentMax ≤ value
  le_max : value ≤ adjustmentMax
  deriving DecidableEq, Repr

/-- `is_adjustment_amount` decides. -/
def Amount.tryNew (raw : Int) : Option Amount :=
  if fits : raw ≠ 0 ∧ -adjustmentMax ≤ raw ∧ raw ≤ adjustmentMax then
    some ⟨raw, fits.1, fits.2.1, fits.2.2⟩
  else none

/-- Why an admin gave or took cycles. -/
abbrev Note := Text 1 200

/-- What an admin sends to adjust the cycles of a player. -/
structure Adjustment where
  amount : Amount
  note : Note
  deriving DecidableEq, Repr

/-- What a source pays one player, before it is a row. -/
structure Award where
  player : PlayerId
  amount : Int
  kind : PointKind
  sourceRef : UuidText
  deriving DecidableEq, Repr

/-- The key that makes a retry pay nobody twice. -/
def Award.key (award : Award) : PointKind × PlayerId × UuidText :=
  (award.kind, award.player, award.sourceRef)

/-- What the door of an event pays a player who scans the code. -/
def checkinAward (event : EventId) (player : PlayerId) : Award :=
  { player, amount := checkinCycles, kind := .checkin, sourceRef := event.toText }

def loserOf (a b winner : Option EntrantId) : Option EntrantId :=
  match a, b, winner with
  | some a, some b, some w => if w = a then some b else if w = b then some a else none
  | _, _, _ => none

/-- The other side of a played match. -/
def Match.loser (m : Match) : Option EntrantId := loserOf m.entrantA m.entrantB m.winner

section Awards

variable (tournament : TournamentId) (entrants : List Entrant)

/-- The account behind an entry of the list. -/
def playerOf (entrant : EntrantId) : Option PlayerId :=
  (entrants.find? fun e => e.id = entrant).bind Entrant.account

def placement (entrant : EntrantId) (kind : PointKind) : Option Award := do
  let player ← playerOf entrants entrant
  let amount ← kind.cycles (.forEntrants entrants.length)
  some { player, amount, kind, sourceRef := tournament.toText }

def entryAwards : List Award :=
  entrants.filterMap fun e => e.account.map fun player =>
    { player, amount := entryCycles, kind := .tournamentEntry, sourceRef := tournament.toText }

def winAward (m : Match) : Option Award := do
  let winner ← m.winner
  let player ← playerOf entrants winner
  some { player, amount := matchWinCycles, kind := .matchWin, sourceRef := m.id.toText }

def winAwards (bracket : Bracket) : List Award :=
  (bracket.flat.filter Match.isPlayed).filterMap (winAward entrants)

/-- The final match of a bracket. -/
def Bracket.finalMatch (bracket : Bracket) : Option Match :=
  bracket.rounds.getLast?.bind List.head?

/-- The losers of the round before the final.  A two entrant bracket has none. -/
def Bracket.semifinalists (bracket : Bracket) : List EntrantId :=
  let semifinal := if 2 ≤ bracket.rounds.length then bracket.rounds[bracket.rounds.length - 2]?
    else none
  ((semifinal.getD []).filter Match.isPlayed).filterMap Match.loser

def placementAwards (bracket : Bracket) : List Award :=
  let champion := bracket.finalMatch.bind Match.winner
  let finalist := bracket.finalMatch.bind Match.loser
  (champion.bind fun c => placement tournament entrants c .champion).toList ++
    (finalist.bind fun f => placement tournament entrants f .finalist).toList ++
    bracket.semifinalists.filterMap fun s => placement tournament entrants s .semifinalist

/-- Everything a concluded tournament pays.  With a bracket `winner` is ignored, without one it
alone gets a placement. -/
def tournamentAwards (bracket : Option Bracket) (winner : Option EntrantId) : List Award :=
  match bracket with
  | none =>
      entryAwards tournament entrants ++
        (winner.bind fun w => placement tournament entrants w .champion).toList
  | some bracket =>
      entryAwards tournament entrants ++ winAwards entrants bracket ++
        placementAwards tournament entrants bracket

end Awards

end LanBunker
