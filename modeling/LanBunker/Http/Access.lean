import LanBunker.Http.Errors
import LanBunker.Models.Text

/-!
# Keys and tokens in the headers

What `require_api_key` and the extractors of a caller read of a request.
-/

namespace LanBunker

/-! ## The API key -/

/-- `API_KEY_MIN_LEN`. -/
def apiKeyMinLen : Nat := 32

/-- `is_api_key_byte`. -/
def isApiKeyChar (c : Char) : Bool := c.isAlphanum || "._~+/=-".toList.contains c

/-- The shared key of the API. -/
structure ApiKey where
  chars : List Char
  long_enough : apiKeyMinLen ≤ chars.length
  plain : chars.all isApiKeyChar
  deriving DecidableEq, Repr

/-- The key of the API, and the hash it is compared under. -/
structure Secrets where
  /-- Without a key `/api` is open. -/
  apiKey : Option ApiKey
  /-- `Sha256::digest`. -/
  digest : List Char → Nat

/-- `ApiKey::matches`, which compares hashes. -/
def ApiKey.matches (key : ApiKey) (digest : List Char → Nat) (candidate : List Char) : Bool :=
  digest key.chars = digest candidate

/-- `require_api_key`: the header is there, and it is the key. -/
def Secrets.admits (secrets : Secrets) (header : Option (List Char)) : Bool :=
  secrets.apiKey.all fun key => header.any (key.matches secrets.digest)

/-- Where a key is set, the header has its digest. -/
theorem Secrets.admits_iff {secrets : Secrets} {header : Option (List Char)} :
    secrets.admits header ↔ ∀ key, secrets.apiKey = some key →
      ∃ sent, header = some sent ∧ secrets.digest sent = secrets.digest key.chars := by
  rw [Secrets.admits, Option.all_eq_true]
  refine forall₂_congr fun key _ => ?_
  rw [Option.any_eq_true]
  exact exists_congr fun sent => and_congr_right fun _ => decide_eq_true_iff.trans eq_comm

/-! ## The bearer token -/

/-- `split_once`: what is before the first separator and what is after it. -/
def splitOnce (separator : Char) (chars : List Char) : Option (List Char × List Char) :=
  if chars.contains separator then
    some (chars.takeWhile (· ≠ separator), (chars.dropWhile (· ≠ separator)).tail)
  else none

/-- `eq_ignore_ascii_case`. -/
def eqIgnoreAsciiCase (left right : List Char) : Bool :=
  left.map Char.toLower = right.map Char.toLower

/-- The token of an `Authorization` header.  The scheme is case-insensitive, the token is not. -/
def bearer (header : Option (List Char)) : Except ApiError (List Char) :=
  match header with
  | none => .error .noBearer
  | some header =>
      match splitOnce ' ' header with
      | none => .error .malformedBearer
      | some (scheme, rest) =>
          let token := trim rest
          if eqIgnoreAsciiCase scheme "bearer".toList ∧ token ≠ [] then .ok token
          else .error .malformedBearer

example : bearer (some "bEARER  abc ".toList) = .ok "abc".toList := by decide

example : bearer (some "Bearer\tabc".toList) = .error .malformedBearer := by decide

end LanBunker
