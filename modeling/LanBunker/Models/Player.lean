import LanBunker.Models.Id
import LanBunker.Models.Text

/-!
# Players

A player as the API shows it to anyone, with the standing the ledger gives.
-/

namespace LanBunker

/-- The time of a request or a row, in nanoseconds since the epoch. -/
abbrev Instant := Int

/-- `is_handle_charset`, character by character. -/
def isHandleChar (c : Char) : Bool := c.isAlphanum || c == '_' || c == '.' || c == '-'

/-- A player name as shown everywhere. -/
structure Handle where
  chars : List Char
  charset : chars.all isHandleChar
  long_enough : 3 ≤ chars.length
  short_enough : chars.length ≤ 20
  deriving DecidableEq, Repr

namespace Handle

/-- The constructor: it trims and then checks the length and the characters. -/
def tryNew (raw : List Char) : Option Handle :=
  let chars := trim raw
  if fits : chars.all isHandleChar ∧ 3 ≤ chars.length ∧ chars.length ≤ 20 then
    some ⟨chars, fits.1, fits.2.1, fits.2.2⟩
  else none

variable (letter : Char)

/-- Three letters are the shortest handle. -/
theorem triple_long : 3 ≤ [letter, letter, letter].length := Nat.le_refl 3

theorem triple_short : [letter, letter, letter].length ≤ 20 := Nat.le_add_right 3 17

end Handle

/-- `collate nocase`: two handles that differ only in case are the same player. -/
def Handle.folded (handle : Handle) : List Char := handle.chars.map Char.toLower

inductive Role where
  | user
  | admin
  deriving DecidableEq, Repr

/-- The tiers of the ladder, in order. -/
inductive Rank where
  | zombie
  | guest
  | user
  | sudoer
  | daemon
  | kernel
  deriving DecidableEq, Repr

namespace Rank

def all : List Rank := [.zombie, .guest, .user, .sudoer, .daemon, .kernel]

/-- The cycles a player needs for this rank. -/
def floor : Rank → Int
  | .zombie => 0
  | .guest => 80
  | .user => 600
  | .sudoer => 1500
  | .daemon => 3000
  | .kernel => 6000

/-- The highest rank whose floor the total reaches. -/
def forCycles (cycles : Int) : Rank :=
  (all.reverse.find? fun rank => rank.floor ≤ cycles).getD .zombie

/-- The rank above this one, or `none` at the top. -/
def next (rank : Rank) : Option Rank := all[all.idxOf rank + 1]?

end Rank

structure NextRank where
  rank : Rank
  floor : Int
  deriving DecidableEq, Repr

/-- Where a player stands: the total, the rank it gives, and the place in the leaderboard. -/
structure Standing where
  cycles : Int
  place : Option Nat
  players : Nat
  rank : Rank
  floor : Int
  next : Option NextRank
  deriving DecidableEq, Repr

/-- `Standing::new`. -/
def Standing.new (cycles : Int) (place : Option Nat) (players : Nat) : Standing :=
  let rank := Rank.forCycles cycles
  { cycles, place, players, rank, floor := rank.floor
    next := rank.next.map fun next => { rank := next, floor := next.floor } }

structure Player where
  id : PlayerId
  handle : Handle
  role : Role
  active : Bool
  standing : Standing
  createdAt : Instant
  deriving DecidableEq, Repr

/-- A player with what only the owner of the account sees. -/
structure Account where
  player : Player
  /-- Set after an admin reset, until the player picks a new password. -/
  mustChangePassword : Bool
  deriving DecidableEq, Repr

end LanBunker
