import LanBunker.Interleaving.Manners
import LanBunker.Services.Provenance

/-!
# What a request writes

The requests that a caller makes for themself write nothing but rows of that caller, and the
requests that answer a page write nothing.
-/

namespace LanBunker

open Interleaving

/-! ## Reads -/

def TournamentOp.isRead : TournamentOp → Bool
  | .get _ | .entrants _ | .entrantOf _ _ | .matchesOf _ => true
  | _ => false

def EventOp.isRead : EventOp → Bool
  | .get _ | .getByCode _ | .checkins _ => true
  | _ => false

def PlayerOp.isRead : PlayerOp → Bool
  | .access _ | .credentialsById _ | .credentialsByHandle _ | .isThere _ | .list _ _ _ _
  | .history _ _ | .totals _ => true
  | _ => false

def StorageOp.isRead : StorageOp → Bool
  | .tournaments op => op.isRead
  | .events op => op.isRead
  | .players op => op.isRead

/-- A read leaves the database as it is. -/
theorem StorageOp.method_snd {op : StorageOp} (read : op.isRead) (db : Database) :
    (op.method db).2 = db := by
  cases op with
  | tournaments op => cases op <;> first | rfl | cases read
  | events op => cases op <;> first | rfl | cases read
  | players op => cases op <;> first | rfl | cases read

/-! ## Writes -/

/-- The writes of a request that is not for an admin. -/
def Request.Writes : Request → StorageOp → Prop
  | .signup handle passwordHash, op => ∃ id createdAt,
      op = .players (.create { id, handle, passwordHash, createdAt })
  | .changePassword id _, op => ∃ passwordHash changedAt,
      op = .players (.setPassword id passwordHash false changedAt)
  | .register id player _, op =>
      (∃ entrant guard, op = .tournaments (.addEntrant entrant guard) ∧
        entrant.tournament = id ∧ entrant.player = player) ∨
      ∃ skill guard, op = .tournaments (.setSkill id player skill guard)
  | .retire id player, op => ∃ guard, op = .tournaments (.removeEntrantOf id player guard)
  | .checkIn _ player, op => ∃ id instant draw,
      op = .events (.checkIn id player instant (checkinAward id player) draw)
  | .login _ _, _ | .authenticate _, _ | .detail _ _, _ | .eventDetail _, _ | .gate _, _ => False
  | _, _ => True

/-- Reads, certain writes, and what is no storage method. -/
def Op.Within (writes : StorageOp → Prop) : Op → Prop
  | .store op => op.isRead ∨ writes op
  | _ => True

/-- What a request calls.  The check of a token decodes it and reads one row. -/
def Request.Touches : Request → Op → Prop
  | .authenticate token, op =>
      op = .crypto (.decode token) ∨ ∃ id, op = .store (.players (.access id))
  | request, op => op.Within request.Writes

namespace Service

variable {α β : Type} {allowed : Op → Prop}

/-- Every call of a service is allowed. -/
abbrev Uses (allowed : Op → Prop) (service : Service α) : Prop := Program.Uses allowed service

theorem uses_bind {service : Service α} {rest : α → Service β} (uses : Uses allowed service)
    (further : ∀ value, Uses allowed (rest value)) : Uses allowed (service >>= rest) := by
  refine Program.Uses.bind uses fun result => ?_
  cases result with
  | ok value => exact further value
  | error error => trivial

theorem uses_pure (value : α) : Uses allowed (pure value : Service α) := trivial

theorem uses_ask {op : Op} (may : allowed op) : Uses allowed (ask op) := ⟨may, fun _ => trivial⟩

theorem uses_attempt {op : StorageOp} (may : allowed (.store op)) : Uses allowed (attempt op) :=
  ⟨may, fun _ => trivial⟩

theorem uses_store {op : StorageOp} (may : allowed (.store op)) : Uses allowed (store op) :=
  ⟨may, fun _ => trivial⟩

theorem uses_okOr (value : Option α) (error : ServiceError) : Uses allowed (okOr value error) := by
  cases value <;> trivial

theorem uses_answering {service : Service α} (payload : α → Payload)
    (uses : Uses allowed service) : (service.answering payload).Uses allowed :=
  Program.Uses.bind uses fun _ => trivial

end Service

open Service

section Touches

variable {writes : StorageOp → Prop}

/-! ## Accounts -/

theorem PasswordHasher.uses_hash (password : Password) :
    Uses (Op.Within writes) (hash password) :=
  uses_bind (uses_ask trivial) fun _ => uses_okOr _ _

theorem PasswordHasher.uses_verify (password : Password) (passwordHash : String) :
    Uses (Op.Within writes) (verify password passwordHash) :=
  uses_bind (uses_ask trivial) fun _ => uses_okOr _ _

theorem TokenIssuer.uses_issue (player : PlayerId) : Uses (Op.Within writes) (issue player) :=
  uses_bind (uses_ask trivial) fun _ => uses_bind (uses_okOr _ _) fun _ =>
    uses_bind (uses_ask trivial) fun _ => uses_bind (uses_okOr _ _) fun _ => trivial

namespace AuthService

theorem uses_signup (handle : Handle) (passwordHash : String) :
    Uses (Op.Within (Request.signup handle passwordHash).Writes) (signup handle passwordHash) := by
  refine uses_bind (uses_ask trivial) fun draw => uses_bind (uses_ask trivial) fun now =>
    uses_bind (uses_store (Or.inr ⟨_, _, rfl⟩)) fun created => ?_
  cases created <;> trivial

theorem uses_login (handle : Handle) (password : Password) :
    Uses (Op.Within writes) (login handle password) := by
  refine uses_bind (uses_store (Or.inl rfl)) fun credentials => ?_
  cases credentials with
  | none =>
      refine uses_bind ?_ fun _ => trivial
      exact uses_bind (PasswordHasher.uses_hash password) fun _ => trivial
  | some credentials =>
      refine uses_bind (PasswordHasher.uses_verify _ _) fun valid => ?_
      cases valid
      · trivial
      · exact TokenIssuer.uses_issue _

theorem uses_changePassword (id : PlayerId) (change : PasswordChange) :
    Uses (Op.Within (Request.changePassword id change).Writes) (changePassword id change) := by
  refine uses_bind (uses_store (Or.inl rfl)) fun found => uses_bind (uses_okOr _ _)
    fun credentials => uses_bind (PasswordHasher.uses_verify _ _) fun valid => ?_
  cases valid
  · trivial
  · refine uses_bind (PasswordHasher.uses_hash _) fun hash => uses_bind (uses_ask trivial)
      fun now => uses_bind (uses_store (Or.inr ⟨_, _, rfl⟩)) fun written => ?_
    cases written
    · trivial
    · exact TokenIssuer.uses_issue _

theorem uses_authenticate (token : String) :
    Uses (Request.authenticate token).Touches (authenticate token) := by
  have verified : Uses (Request.authenticate token).Touches (TokenIssuer.verify token) :=
    uses_bind (uses_ask (Or.inl rfl)) fun _ => uses_bind (uses_okOr _ _) fun _ => uses_pure _
  refine uses_bind verified fun verified => uses_bind (uses_store (Or.inr ⟨_, rfl⟩)) fun found =>
    uses_bind (uses_okOr _ _) fun stored => ?_
  split_ifs <;> trivial

end AuthService

/-! ## Tournaments -/

namespace TournamentService

theorem uses_load (id : TournamentId) : Uses (Op.Within writes) (load id) :=
  uses_bind (uses_store (Or.inl rfl)) fun _ => uses_okOr _ _

theorem uses_loadPublic (id : TournamentId) : Uses (Op.Within writes) (loadPublic id) := by
  refine uses_bind (uses_load id) fun tournament => ?_
  split_ifs <;> trivial

theorem uses_detail (id : TournamentId) (visibility : Visibility) :
    Uses (Op.Within writes) (detail id visibility) := by
  refine uses_bind (uses_load id) fun tournament => ?_
  split_ifs
  · trivial
  · exact uses_bind (uses_store (Or.inl rfl)) fun entrants =>
      uses_bind (uses_bind (uses_store (Or.inl rfl)) fun _ => trivial) fun _ => trivial

theorem uses_explainRefusal (id : TournamentId) (guard : EntrantGuard) :
    Uses (Op.Within writes) (explainRefusal id guard) := by
  refine uses_bind (uses_load id) fun fresh => uses_bind trivial fun _ => ?_
  cases guard.openAt with
  | some now => trivial
  | none =>
      dsimp only
      split_ifs <;> trivial

variable {id : TournamentId} {player : PlayerId}

theorem uses_correctSkill (skill : Option SkillLevel) (guard : EntrantGuard) {level : SkillLevel} :
    Uses (Op.Within (Request.register id player level).Writes)
      (correctSkill id player skill guard) := by
  cases skill with
  | none => trivial
  | some skill =>
      refine uses_bind (uses_store (Or.inr (Or.inr ⟨_, _, rfl⟩))) fun written => ?_
      split_ifs
      · trivial
      · exact uses_explainRefusal id guard

theorem uses_enrol (skill : Option SkillLevel) (guard : EntrantGuard) {level : SkillLevel} :
    Uses (Op.Within (Request.register id player level).Writes) (enrol id player skill guard) := by
  refine uses_bind (uses_ask trivial) fun draw => uses_bind (uses_ask trivial) fun now =>
    uses_bind (uses_attempt (Or.inr (Or.inl ⟨_, _, rfl, rfl, rfl⟩))) fun written => ?_
  have answered : ∀ created : Bool, Uses (Op.Within (Request.register id player level).Writes) (do
      let found ← store (.tournaments (.entrantOf id player))
      let entrant ← okOr found (.playerIdNotFound player)
      pure (if created then Outcome.created entrant else .existing entrant)) := fun created =>
    uses_bind (uses_store (Or.inl rfl)) fun found => uses_bind (uses_okOr _ _) fun _ => uses_pure _
  dsimp only
  split
  · exact uses_bind (uses_pure true) answered
  · exact uses_bind (uses_correctSkill skill guard) fun _ => uses_bind (uses_pure false) answered
  · exact uses_bind (uses_explainRefusal id guard) fun _ => uses_bind trivial answered
  · exact uses_bind trivial answered
  · exact uses_bind trivial answered

theorem uses_register (skill : SkillLevel) :
    Uses (Op.Within (Request.register id player skill).Writes) (register id player skill) := by
  refine uses_bind (uses_ask trivial) fun now => uses_bind (uses_loadPublic id) fun tournament =>
    uses_bind trivial fun _ => uses_bind (uses_enrol _ _) fun outcome => ?_
  cases outcome <;> trivial

theorem uses_retire : Uses (Op.Within (Request.retire id player).Writes) (retire id player) := by
  refine uses_bind (uses_ask trivial) fun now => uses_bind (uses_loadPublic id) fun tournament =>
    uses_bind trivial fun _ => uses_bind (uses_store (Or.inr ⟨_, rfl⟩)) fun removed => ?_
  split_ifs
  · trivial
  · exact uses_explainRefusal id _

end TournamentService

/-! ## Events -/

namespace EventService

theorem uses_load (id : EventId) : Uses (Op.Within writes) (load id) :=
  uses_bind (uses_store (Or.inl rfl)) fun _ => uses_okOr _ _

theorem uses_publishedByCode (code : CheckinCode) :
    Uses (Op.Within writes) (publishedByCode code) :=
  uses_bind (uses_store (Or.inl rfl)) fun _ => uses_okOr _ _

theorem uses_gate (code : CheckinCode) : Uses (Op.Within writes) (gate code) :=
  uses_bind (uses_publishedByCode code) fun _ => uses_bind (uses_ask trivial) fun _ => trivial

theorem uses_detail (id : EventId) : Uses (Op.Within writes) (detail id) :=
  uses_bind (uses_load id) fun _ => uses_bind (uses_store (Or.inl rfl)) fun _ => trivial

theorem uses_checkIn (code : CheckinCode) (player : PlayerId) :
    Uses (Op.Within (Request.checkIn code player).Writes) (checkIn code player) := by
  refine uses_bind (uses_publishedByCode code) fun event => uses_bind (uses_ask trivial)
    fun now => ?_
  have recorded : Uses (Op.Within (Request.checkIn code player).Writes)
      (record event.id player) := by
    refine uses_bind (uses_ask trivial) fun now => uses_bind (uses_ask trivial) fun draw =>
      uses_bind (uses_attempt (Or.inr ⟨_, _, _, rfl⟩)) fun written => ?_
    split
    · exact uses_bind (uses_load event.id) fun _ => trivial
    · exact uses_bind (uses_store (Or.inl rfl)) fun _ => trivial
    · trivial
  cases event.checkinWindow now
  case opened => exact recorded
  all_goals trivial

end EventService
end Touches

/-! ## Every request -/

theorem serve_uses (request : Request) : request.serve.Uses request.Touches := by
  cases request with
  | signup handle passwordHash =>
      exact uses_answering _ (AuthService.uses_signup handle passwordHash)
  | login handle password => exact uses_answering _ (AuthService.uses_login handle password)
  | changePassword id change => exact uses_answering _ (AuthService.uses_changePassword id change)
  | authenticate token => exact uses_answering _ (AuthService.uses_authenticate token)
  | detail id visibility => exact uses_answering _ (TournamentService.uses_detail id visibility)
  | register id player skill => exact uses_answering _ (TournamentService.uses_register skill)
  | retire id player => exact uses_answering _ TournamentService.uses_retire
  | eventDetail id => exact uses_answering _ (EventService.uses_detail id)
  | gate code => exact uses_answering _ (EventService.uses_gate code)
  | checkIn code player => exact uses_answering _ (EventService.uses_checkIn code player)
  | _ =>
      refine Program.uses_of_forall (fun op => ?_) _
      cases op <;> first | trivial | exact Or.inr trivial

end LanBunker
