import LanBunker.Models.Bracket
import LanBunker.Models.Tournament

/-!
# The match history of a player
-/

namespace LanBunker

/-- Wins and losses over every played match. -/
structure MatchRecord where
  wins : Nat
  losses : Nat
  deriving DecidableEq, Repr

/-- How many times one opponent must beat a player before the profile names them. -/
def nemesisMinLosses : Nat := 2

/-- A head-to-head record against one opponent, from the view of the profile owner. -/
structure Rivalry where
  opponent : Player
  wins : Nat
  losses : Nat
  deriving DecidableEq, Repr

/-- One played match from the view of the profile owner. -/
structure PlayedMatch where
  id : MatchId
  tournamentId : TournamentId
  tournamentName : TournamentName
  game : GameName
  /-- The day of the tournament.  A match carries no clock of its own. -/
  date : Date
  /-- 1 is the first round. -/
  round : Nat
  /-- How many rounds the bracket has. -/
  rounds : Nat
  /-- Absent once the opponent deleted their account. -/
  opponent : Option Player
  won : Bool
  deriving DecidableEq, Repr

end LanBunker
