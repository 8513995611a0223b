import LanBunker.Models.Player

/-!
# Passwords and tokens

What a client sends to sign in or to change a password, and what it gets back.
-/

namespace LanBunker

/-- A password as a client sends it. -/
structure Password where
  chars : List Char
  long_enough : 8 ≤ chars.length
  short_enough : chars.length ≤ 128
  deriving DecidableEq, Repr

/-- `Password::try_new`. -/
def Password.tryNew (chars : List Char) : Option Password :=
  if long_enough : 8 ≤ chars.length then
    if short_enough : chars.length ≤ 128 then some ⟨chars, long_enough, short_enough⟩ else none
  else none

structure PasswordChange where
  currentPassword : Password
  newPassword : Password
  deriving DecidableEq, Repr

/-- The answer to an admin password reset. -/
structure TemporaryPassword where
  temporaryPassword : List Char
  deriving DecidableEq, Repr

/-- The answer to a login or a password change. -/
structure TokenResponse where
  token : String
  expiresAt : Instant
  deriving DecidableEq, Repr

/-- `unix_timestamp`: whole seconds, rounded down. -/
def unixSeconds (instant : Instant) : Int := instant / 1000000000

/-- The claims of a token.  `sub` is the player, `exp` and `iat` are seconds. -/
structure Claims where
  sub : PlayerId
  exp : Int
  iat : Int
  deriving DecidableEq, Repr

end LanBunker
