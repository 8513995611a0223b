import LanBunker.Models.Bracket
import LanBunker.Models.Player

/-!
# Tournaments

The life of a tournament and what a client sees and sends.
-/

namespace LanBunker

abbrev TournamentName := Text 1 60
abbrev GameName := Text 1 40
abbrev GameMode := Text 1 30
abbrev Description := Text 0 1000

def isLeapYear (year : Int) : Bool := year % 4 = 0 ∧ (year % 100 ≠ 0 ∨ year % 400 = 0)

def daysInMonth (year : Int) : Nat → Nat
  | 2 => if isLeapYear year then 29 else 28
  | 4 | 6 | 9 | 11 => 30
  | _ => 31

/-- A day of the proleptic Gregorian calendar, as `time::Date` bounds it. -/
structure Date where
  year : Int
  month : Nat
  day : Nat
  year_ge : -9999 ≤ year
  year_le : year ≤ 9999
  month_pos : 1 ≤ month
  month_le : month ≤ 12
  day_pos : 1 ≤ day
  day_le : day ≤ daysInMonth year month
  deriving DecidableEq, Repr

theorem daysInMonth_le (year : Int) (month : Nat) : daysInMonth year month ≤ 31 := by
  rw [daysInMonth.eq_def]
  split
  · split_ifs <;> decide
  all_goals decide

theorem Date.day_lt (date : Date) : date.day < 10 ^ 2 :=
  Nat.lt_of_le_of_lt (Nat.le_trans date.day_le (daysInMonth_le date.year date.month)) (by decide)

/-- How good a player says they are at the game, from 1 to 5. -/
structure SkillLevel where
  value : Nat
  one_le : 1 ≤ value
  le_five : value ≤ 5
  deriving DecidableEq, Repr

/-- The level an entrant without a level is seeded at. -/
def SkillLevel.unrated : Nat := 3

/-- The life of a tournament.  `concluded` is final. -/
inductive TournamentStatus where
  | draft
  | opened
  | live
  | concluded
  deriving DecidableEq, Repr

namespace TournamentStatus

def asStr : TournamentStatus → String
  | .draft => "draft"
  | .opened => "open"
  | .live => "live"
  | .concluded => "concluded"

def fromStr (raw : String) : Option TournamentStatus :=
  match raw with
  | "draft" => some .draft
  | "open" => some .opened
  | "live" => some .live
  | "concluded" => some .concluded
  | _ => none

@[simp]
theorem fromStr_asStr (status : TournamentStatus) : fromStr status.asStr = some status := by
  cases status <;> rfl

end TournamentStatus

/-- A registration.  `player` is absent after the player deleted their account. -/
structure Entrant where
  id : EntrantId
  player : Option Player
  seed : Option Nat
  skill : Option SkillLevel
  registeredAt : Instant
  deriving DecidableEq, Repr

/-- The account behind an entry, if it is still there. -/
def Entrant.account (entrant : Entrant) : Option PlayerId := entrant.player.map Player.id

/-- A tournament as every client sees it. -/
structure Tournament where
  id : TournamentId
  name : TournamentName
  game : GameName
  mode : GameMode
  description : Description
  date : Date
  registrationClosesAt : Instant
  status : TournamentStatus
  entrantCount : Nat
  hasBracket : Bool
  winner : Option Entrant
  createdAt : Instant
  deriving DecidableEq, Repr

/-- A new tournament is always a draft. -/
structure NewTournament where
  name : TournamentName
  game : GameName
  mode : GameMode
  description : Description
  date : Date
  registrationClosesAt : Instant
  deriving DecidableEq, Repr

/-- An absent field keeps its value. -/
structure TournamentUpdate where
  name : Option TournamentName
  game : Option GameName
  mode : Option GameMode
  description : Option Description
  date : Option Date
  registrationClosesAt : Option Instant
  deriving DecidableEq, Repr

/-- A winner is accepted only with `concluded` and only when the tournament has no bracket. -/
structure StatusChange where
  status : TournamentStatus
  winner : Option EntrantId
  deriving DecidableEq, Repr

/-- One tournament with everything a page needs. -/
structure TournamentDetail where
  tournament : Tournament
  entrants : List Entrant
  bracket : Option Bracket
  deriving DecidableEq, Repr

end LanBunker
