import LanBunker.Services.Operation

/-!
# Services

A service method is a program of operations that ends in a value or in a service error.  `?` is the
bind of the monad: an error ends the request.
-/

namespace LanBunker

open Interleaving

/-- Why the door of an event refuses a scan. -/
inductive ClosedDoor where
  | early
  | over
  deriving DecidableEq, Repr

/-- Why a token is refused.  It goes to the log, never to the client. -/
inductive TokenRefusal where
  | undecodable
  | unknownPlayer
  | passwordChanged
  deriving DecidableEq, Repr

/-- What the business rules can refuse to do. -/
inductive ServiceError where
  | playerIdNotFound (id : PlayerId)
  | handleTaken (handle : Handle)
  | invalidCredentials
  | wrongPassword
  | selfAction
  | lastAdmin
  | tournamentNotFound (id : TournamentId)
  | eventNotFound (id : EventId)
  | unknownCheckinCode
  | checkinClosed (door : ClosedDoor)
  | matchNotFound (id : MatchId)
  | registrationClosed
  | invalidTransition (source target : TournamentStatus)
  | tournamentChanged
  | tournamentConcluded
  | tournamentFull
  | notLive
  | bracketExists
  | bracketMissing
  | bracketLocked
  | bracketIncomplete
  | tooFewEntrants (count : Nat)
  | matchNotReady
  | nextMatchDecided
  | unexpectedWinner
  | notAnEntrant (entrant : EntrantId)
  | seedOrderMismatch
  | corruptBracket
  | invalidToken (refusal : TokenRefusal)
  | crypto
  | unavailable (error : StorageError)
  | storage (error : StorageError)
  deriving DecidableEq, Repr

namespace ServiceError

def ofBracket : BracketError → ServiceError
  | .tooFewEntrants count => .tooFewEntrants count
  | .tooManyEntrants _ => .tournamentFull
  | .unknownMatch id => .matchNotFound id
  | .notReady _ => .matchNotReady
  | .notAParticipant entrant _ => .notAnEntrant entrant
  | .nextDecided _ => .nextMatchDecided
  | .malformed => .corruptBracket

/-- A lost database is temporary, anything else is a bug. -/
def ofStorage : StorageError → ServiceError
  | .busy => .unavailable .busy
  | .uniqueViolation constraint => .storage (.uniqueViolation constraint)
  | .foreignKeyViolation => .storage .foreignKeyViolation
  | .malformedRow => .storage .malformedRow
  | .query => .storage .query

end ServiceError

/-- What an idempotent write did: it made the row, or the row was already there. -/
inductive Outcome (α : Type) where
  | created (value : α)
  | existing (value : α)
  deriving DecidableEq, Repr

def Outcome.value {α : Type} : Outcome α → α
  | .created value | .existing value => value

/-- Who a detail is for.  Only an admin sees a draft. -/
inductive Visibility where
  | everyone
  | withDrafts
  deriving DecidableEq, Repr

/-- The calls of a request so far. -/
abbrev Past := History Op Op.Ans

/-- A service method. -/
def Service (α : Type) : Type := Program Op Op.Ans (Except ServiceError α)

namespace Service

variable {α β : Type}

protected def pure (value : α) : Service α := Program.answer (.ok value)

protected def bind (service : Service α) (rest : α → Service β) : Service β :=
  Program.bind service fun
    | .ok value => rest value
    | .error error => Program.answer (.error error)

instance : Monad Service where
  pure := Service.pure
  bind := Service.bind

def fail (error : ServiceError) : Service α := Program.answer (.error error)

/-- A check that is no call. -/
def ofExcept : Except ServiceError α → Service α := Program.answer

/-- `ok_or`. -/
def okOr (value : Option α) (error : ServiceError) : Service α :=
  match value with
  | some value => pure value
  | none => fail error

/-- An operation that cannot fail. -/
def ask (op : Op) : Service (op.Ans) :=
  Program.call op fun result => .answer (.ok result)

/-- A storage method whose failure the service looks at. -/
def attempt (op : StorageOp) : Service (Except StorageError op.Ans) := ask (.store op)

/-- A storage method whose failure ends the request. -/
def store (op : StorageOp) : Service op.Ans :=
  Program.call (.store op) fun result => .answer (result.mapError ServiceError.ofStorage)

/-! ## Proof rules -/

/-- Every call is allowed, and a value meets `post` with the history then.  A request that fails
promises nothing. -/
def Yields (may : Past → Op → Prop) (past : Past) (service : Service α)
    (post : α → Past → Prop) : Prop :=
  Program.Follows may past service fun result past => ∀ value, result = .ok value → post value past

section Yields

variable {may : Past → Op → Prop} {past : Past} {post : α → Past → Prop}

theorem yields_pure {value : α} :
    Yields may past (pure value : Service α) post ↔ post value past := by
  constructor
  · intro yields
    exact yields value rfl
  · rintro holds other same
    obtain rfl := Except.ok.inj same
    exact holds

theorem yields_fail {error : ServiceError} :
    Yields may past (fail error : Service α) post ↔ True := by
  refine iff_true_intro ?_
  intro value impossible
  cases impossible

theorem yields_ofExcept {result : Except ServiceError α} :
    Yields may past (ofExcept result) post ↔ ∀ value, result = .ok value → post value past :=
  Iff.rfl

theorem yields_okOr {value : Option α} {error : ServiceError} :
    Yields may past (okOr value error) post ↔ ∀ found, value = some found → post found past := by
  cases value with
  | none => simp [okOr, yields_fail]
  | some found => simp [okOr, yields_pure]

theorem yields_ask {op : Op} {post : op.Ans → Past → Prop} :
    Yields may past (ask op) post ↔
      may past op ∧ ∀ answer, post answer (past ++ [⟨op, answer⟩]) := by
  refine and_congr_right fun _ => forall_congr' fun answer => ?_
  constructor
  · intro yields
    exact yields answer rfl
  · rintro holds other same
    obtain rfl := Except.ok.inj same
    exact holds

theorem yields_attempt {op : StorageOp} {post : Except StorageError op.Ans → Past → Prop} :
    Yields may past (attempt op) post ↔
      may past (.store op) ∧
        ∀ answer : Except StorageError op.Ans, post answer (past ++ [⟨.store op, answer⟩]) :=
  yields_ask

theorem yields_store {op : StorageOp} {post : op.Ans → Past → Prop} :
    Yields may past (store op) post ↔
      may past (.store op) ∧
        ∀ answer : op.Ans, post answer (past ++ [⟨.store op, .ok answer⟩]) := by
  refine and_congr_right fun _ => ?_
  constructor
  · intro yields answer
    exact yields (.ok answer) answer rfl
  · intro holds result value same
    cases result with
    | ok answer =>
        obtain rfl := Except.ok.inj same
        exact holds answer
    | error error => cases same

/-- The rule of sequence: an error goes through. -/
theorem yields_bind {service : Service α} {rest : α → Service β} {post : β → Past → Prop} :
    Yields may past (service >>= rest) post ↔
      Yields may past service fun value past => Yields may past (rest value) post := by
  refine Iff.trans Program.follows_bind ?_
  constructor
  · intro follows
    refine Program.Follows.mono follows fun result past holds value same => ?_
    subst same
    exact holds
  · intro yields
    refine Program.Follows.mono yields fun result past holds => ?_
    cases result with
    | ok value => exact holds value rfl
    | error error =>
        intro value impossible
        cases impossible

theorem yields_ite {condition : Prop} [Decidable condition] {yes no : Service α} :
    Yields may past (if condition then yes else no) post ↔
      (condition → Yields may past yes post) ∧ (¬condition → Yields may past no post) := by
  split_ifs with holds
  · simp [holds]
  · simp [holds]

theorem Yields.mono {service : Service α} {post' : α → Past → Prop}
    (yields : Yields may past service post)
    (weaker : ∀ value past, post value past → post' value past) :
    Yields may past service post' :=
  Program.Follows.mono yields fun _ _ holds value same => weaker _ _ (holds value same)

end Yields
end Service
end LanBunker
