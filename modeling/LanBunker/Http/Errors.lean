import LanBunker.Services.Service

/-!
# The errors of the API

Each failure of a service gets a code that a client selects on and a message, and each code gets a
status.
-/

namespace LanBunker

/-- Each error code the API can answer with. -/
inductive ErrorCode where
  | genericError
  | serviceUnavailable
  | itemNotFound
  | handleTaken
  | invalidCredentials
  /-- The request had no valid bearer token. -/
  | unauthorized
  /-- The request had no valid `X-Api-Key`. -/
  | apiKeyRequired
  /-- The caller is logged in and may not do this. -/
  | forbidden
  /-- The caller must choose a new password first. -/
  | passwordChangeRequired
  | wrongPassword
  | registrationClosed
  | checkinClosed
  | invalidState
  | notAnEntrant
  | invalidRequest
  | unprocessableRequest
  | unsupportedMediaType
  | payloadTooLarge
  | routeNotFound
  | methodNotAllowed
  deriving DecidableEq, Repr

/-- `From<ErrorCode> for StatusCode`. -/
def ErrorCode.status : ErrorCode → Nat
  | .genericError => 500
  | .serviceUnavailable => 503
  | .itemNotFound | .routeNotFound => 404
  | .handleTaken | .registrationClosed | .checkinClosed | .invalidState => 409
  | .notAnEntrant => 422
  | .invalidCredentials | .unauthorized | .apiKeyRequired => 401
  | .forbidden | .passwordChangeRequired => 403
  | .wrongPassword => 400
  | .invalidRequest => 400
  | .unprocessableRequest => 422
  | .unsupportedMediaType => 415
  | .payloadTooLarge => 413
  | .methodNotAllowed => 405

/-- A failure that goes to a client.  The chain of causes goes to the log. -/
structure ApiError where
  code : ErrorCode
  message : String
  deriving DecidableEq, Repr

def ApiError.status (error : ApiError) : Nat := error.code.status

namespace ServiceError

/-- The code a client selects on, and the message it reads. -/
def publicError : ServiceError → ErrorCode × String
  | .playerIdNotFound _ => (.itemNotFound, "The player was not found")
  | .tournamentNotFound _ => (.itemNotFound, "The tournament was not found")
  | .eventNotFound _ => (.itemNotFound, "The event was not found")
  | .matchNotFound _ => (.itemNotFound, "The match was not found in this tournament")
  | .unknownCheckinCode => (.itemNotFound, "This check-in link is not valid")
  | .handleTaken _ => (.handleTaken, "That handle is already taken")
  | .invalidCredentials => (.invalidCredentials, "The handle or the password is wrong")
  | .wrongPassword => (.wrongPassword, "The current password is wrong")
  | .selfAction => (.forbidden, "An admin cannot do this to their own account")
  | .lastAdmin => (.invalidState, "The crew needs at least one admin")
  | .registrationClosed => (.registrationClosed, "Registration is closed")
  | .checkinClosed .early => (.checkinClosed, "Check-in opens when the doors open")
  | .checkinClosed .over => (.checkinClosed, "Check-in is over. The night is done")
  | .invalidTransition _ _ =>
      (.invalidState, "The tournament cannot move to that status from here")
  | .tournamentChanged =>
      (.invalidState, "The tournament changed in the meantime. Load it again and retry")
  | .tournamentConcluded =>
      (.invalidState, "The tournament is concluded and takes no more changes")
  | .tournamentFull => (.invalidState, "The tournament has no room for another entrant")
  | .notLive => (.invalidState, "Go live before you generate the bracket")
  | .bracketExists => (.invalidState, "Remove the bracket before you change the entrants")
  | .bracketMissing => (.invalidState, "Generate the bracket first")
  | .bracketLocked => (.invalidState, "Clear every result before you change the bracket")
  | .bracketIncomplete => (.invalidState, "The final has no winner yet")
  | .tooFewEntrants _ => (.invalidState, "A bracket needs at least two entrants")
  | .matchNotReady => (.invalidState, "The match does not have both entrants yet")
  | .nextMatchDecided =>
      (.invalidState, "The next match already has a result. Clear that one first")
  | .unexpectedWinner =>
      (.invalidState, "A winner is named only when a tournament without a bracket concludes")
  | .notAnEntrant _ =>
      (.notAnEntrant, "That player is not an entrant of this tournament or this match")
  | .seedOrderMismatch =>
      (.unprocessableRequest, "The seed order must list each entrant exactly once")
  | .invalidToken _ => (.unauthorized, "The token is missing, expired or invalid")
  | .unavailable _ => (.serviceUnavailable, "The service is temporarily unavailable")
  | .storage _ | .crypto | .corruptBracket => (.genericError, "An unexpected error occurred")

end ServiceError

namespace ApiError

/-- `From<ServiceError> for ApiError`. -/
def ofService (error : ServiceError) : ApiError := ⟨error.publicError.1, error.publicError.2⟩

/-- `From` of a storage failure, which `?` makes in a service method. -/
def ofStorage (error : StorageError) : ApiError := ofService (.ofStorage error)

/-- `PlayerNotFound`, of a handle. -/
def playerNotFound : ApiError := ⟨.itemNotFound, "The player was not found"⟩

def unexpected : ApiError := ⟨.genericError, "An unexpected error occurred"⟩

end ApiError

/-! ## Refusals of the extractors -/

/-- Why a body is not a `T`, as axum tells it. -/
inductive JsonRejection where
  | missingJsonContentType
  | jsonDataError
  /-- `LengthLimitError`: the body is too long. -/
  | lengthLimit
  /-- The syntax, or a stream that broke. -/
  | other
  deriving DecidableEq, Repr

/-- What an extractor of the input of a route refuses, with the text axum gives. -/
inductive Rejection where
  | body (rejection : JsonRejection) (text : String)
  | query (text : String)
  | path (text : String)
  deriving DecidableEq, Repr

namespace Rejection

def code : Rejection → ErrorCode
  | .body .missingJsonContentType _ => .unsupportedMediaType
  | .body .jsonDataError _ => .unprocessableRequest
  | .body .lengthLimit _ => .payloadTooLarge
  | .body .other _ | .query _ | .path _ => .invalidRequest

def message : Rejection → String
  | .body _ text => "Invalid request body. " ++ text
  | .query text => "Invalid query parameters. " ++ text
  | .path text => "Invalid path parameters. " ++ text

def error (rejection : Rejection) : ApiError := ⟨rejection.code, rejection.message⟩

end Rejection

/-! ## Who may not pass -/

namespace ApiError

def keyRequired : ApiError := ⟨.apiKeyRequired, "This API needs a valid X-Api-Key header"⟩

def noBearer : ApiError := ⟨.unauthorized, "This route needs a bearer token"⟩

def malformedBearer : ApiError :=
  ⟨.unauthorized, "The Authorization header must be `Bearer <token>`"⟩

def passwordChange : ApiError := ⟨.passwordChangeRequired, "Choose a new password first"⟩

def adminsOnly : ApiError := ⟨.forbidden, "This route is for admins"⟩

end ApiError
end LanBunker
