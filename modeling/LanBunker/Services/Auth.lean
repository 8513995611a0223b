import LanBunker.Services.Service

/-!
# Passwords and tokens

Login, the change and the reset of a password, and the check behind every authenticated request.
-/

namespace LanBunker

open Service

namespace PasswordHasher

def hash (password : Password) : Service String := do
  let hash ← ask (.crypto (.hash password))
  okOr hash .crypto

def verify (password : Password) (passwordHash : String) : Service Bool := do
  let valid ← ask (.crypto (.verify password passwordHash))
  okOr valid .crypto

/-- Spends one hash worth of time and discards the result. -/
def burn (password : Password) : Service Unit := do
  let _ ← hash password
  pure ()

end PasswordHasher

/-- Thirty days. -/
def tokenTtl : Instant := 30 * 24 * 60 * 60 * 1000000000

/-- The last nanosecond of the year 9999, the latest instant there is. -/
def latestInstant : Instant := 253402300799999999999

/-- A token that passed the signature and expiry checks. -/
structure VerifiedToken where
  player : PlayerId
  /-- Seconds.  Compared with the last password change. -/
  issuedAt : Int
  deriving DecidableEq, Repr

namespace TokenIssuer

/-- `checked_add`. -/
def expiry (now : Instant) : Option Instant :=
  if now + tokenTtl ≤ latestInstant then some (now + tokenTtl) else none

def issue (player : PlayerId) : Service TokenResponse := do
  let now ← ask .now
  let expiresAt ← okOr (expiry now) .crypto
  let encoded ← ask <| .crypto <|
    .encode { sub := player, exp := unixSeconds expiresAt, iat := unixSeconds now }
  let token ← okOr encoded .crypto
  pure { token, expiresAt }

def verify (token : String) : Service VerifiedToken := do
  let decoded ← ask (.crypto (.decode token))
  let claims ← okOr decoded (.invalidToken .undecodable)
  pure { player := claims.sub, issuedAt := claims.iat }

end TokenIssuer

/-- Who sends a request, as a valid token and the players table say. -/
structure Caller where
  id : PlayerId
  role : Role
  mustChangePassword : Bool
  deriving DecidableEq, Repr

namespace AuthService

/-- The failure is the same for an unknown handle and a wrong password. -/
def login (handle : Handle) (password : Password) : Service TokenResponse := do
  let credentials ← store (.players (.credentialsByHandle handle))
  match credentials with
  | some credentials => do
      let valid ← PasswordHasher.verify password credentials.passwordHash
      if valid then TokenIssuer.issue credentials.id else fail .invalidCredentials
  | none => do
      PasswordHasher.burn password
      fail .invalidCredentials

/-- The current password must match.  The new hash clears any pending reset. -/
def changePassword (id : PlayerId) (change : PasswordChange) : Service TokenResponse := do
  let found ← store (.players (.credentialsById id))
  let credentials ← okOr found (.playerIdNotFound id)
  let valid ← PasswordHasher.verify change.currentPassword credentials.passwordHash
  if valid then do
    let hash ← PasswordHasher.hash change.newPassword
    let now ← ask .now
    let written ← store (.players (.setPassword id hash false now))
    if written then TokenIssuer.issue id else fail (.playerIdNotFound id)
  else fail .wrongPassword

/-- Replaces the password with a random one and marks the account, so the next login must change
it. -/
def resetPassword (id : PlayerId) : Service TemporaryPassword := do
  let temporary ← ask (.crypto .temporary)
  let password ← okOr (Password.tryNew temporary) .crypto
  let hash ← PasswordHasher.hash password
  let now ← ask .now
  let written ← store (.players (.setPassword id hash true now))
  if written then pure { temporaryPassword := temporary } else fail (.playerIdNotFound id)

/-- Signature, expiry, then the account: a deleted player and a token issued before the last
password change are both refused. -/
def authenticate (token : String) : Service Caller := do
  let verified ← TokenIssuer.verify token
  let found ← store (.players (.access verified.player))
  let stored ← okOr found (.invalidToken .unknownPlayer)
  if verified.issuedAt < stored.credentialsChangedAt then fail (.invalidToken .passwordChanged)
  else
    pure { id := stored.id, role := stored.role, mustChangePassword := stored.mustChangePassword }

end AuthService
end LanBunker
