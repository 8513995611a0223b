import LanBunker.Brackets.Rows
import LanBunker.Services.Requests

/-!
# Where the arguments of a call come from

What a request may call after what it was answered, for every request of the bunker.  A guarded
write carries a status that was read, a plan is computed from the reads before it, and a detail
says which reads it shows.
-/

namespace LanBunker

open Interleaving Service

/-- The answer of a storage method in a history. -/
def Past.Read (past : Past) (op : StorageOp) (answer : op.Ans) : Prop :=
  ⟨.store op, .ok answer⟩ ∈ past

/-! ## What a request may call -/

/-- The moves of the status that pay nothing. -/
def Moves : TournamentStatus → TournamentStatus → Prop
  | .draft, .opened | .draft, .live | .opened, .live | .live, .opened => True
  | _, _ => False

/-- A status write that was planned: a move without a winner and without awards, or a conclusion
computed from the entrants and the matches that were read. -/
def Planned (past : Past) (id : TournamentId) (change : StatusChange) (source : TournamentStatus)
    (winner : Option EntrantId) (awards : List Award) : Prop :=
  ∃ tournament, past.Read (.tournaments (.get id)) (some tournament) ∧
    source = tournament.status ∧
    (Moves source change.status ∧ (source = .live → tournament.hasBracket = false) ∧
        winner = none ∧ awards = [] ∨
      source ≠ .concluded ∧ change.status = .concluded ∧ ∃ entrants rows bracket,
        past.Read (.tournaments (.entrants tournament.id)) entrants ∧
        past.Read (.tournaments (.matchesOf tournament.id)) rows ∧
        bracketOf rows = .ok bracket ∧
        concluded tournament.id entrants bracket change.winner = .ok (winner, awards))

theorem Planned.mono {past past' : Past} {id : TournamentId} {change : StatusChange}
    {source : TournamentStatus} {winner : Option EntrantId} {awards : List Award}
    (planned : Planned past id change source winner awards) (longer : past ⊆ past') :
    Planned past' id change source winner awards := by
  obtain ⟨tournament, loaded, source_eq, move | conclusion⟩ := planned
  · exact ⟨tournament, longer loaded, source_eq, Or.inl move⟩
  · obtain ⟨not_concluded, target, entrants, rows, bracket, entrants_read, rows_read, rest⟩ :=
      conclusion
    exact ⟨tournament, longer loaded, source_eq, Or.inr ⟨not_concluded, target, entrants, rows,
      bracket, longer entrants_read, longer rows_read, rest⟩⟩

/-- A bracket drawn over an order of the entrants that were read, as they were read or shuffled. -/
def DrawnFrom (past : Past) (id : TournamentId) (order : List EntrantId) (bracket : Bracket) :
    Prop :=
  ∃ source tournament entrants listed,
    past.Read (.tournaments (.get source)) (some tournament) ∧ tournament.id = id ∧
      past.Read (.tournaments (.entrants source)) entrants ∧
      (listed = entrants ∨ ⟨.shuffle entrants, listed⟩ ∈ past) ∧
      order.Perm (listed.map Entrant.id) ∧ ∃ draw, Bracket.generate draw order = .ok bracket

/-- The tournament and the call behind a result that a request enters or clears. -/
def Request.result? : Request → Option (TournamentId × Bracket.Call)
  | .reportResult id matchId winner => some (id, .report matchId winner)
  | .clearResult id matchId => some (id, .clear matchId)
  | _ => none

/-- The changes of a call on the bracket that was read. -/
def CalledOn (request : Request) (past : Past) (id : TournamentId)
    (changes : List (Match × Match)) : Prop :=
  ∃ source call tournament rows read changed,
    request.result? = some (source, call) ∧
      past.Read (.tournaments (.get source)) (some tournament) ∧ tournament.id = id ∧
      past.Read (.tournaments (.matchesOf source)) rows ∧ bracketOf rows = .ok (some read) ∧
      (read.result call).1 = .ok changed ∧ changes = changePairs read changed

def TournamentOp.Allowed (request : Request) (past : Past) : TournamentOp → Prop
  | .update _ expected _ => expected ≠ .concluded
  | .setStatus id source target winner awards _ _ => ∃ change,
      request = .changeStatus id change ∧ target = change.status ∧
        Planned past id change source winner awards
  | .addEntrant _ guard => guard.status ≠ .concluded
  | .setSkill _ _ _ guard => guard.status ≠ .concluded
  | .removeEntrant _ _ guard => guard.status ≠ .concluded
  | .removeEntrantOf _ _ guard => guard.status ≠ .concluded
  | .replaceBracket id expected order bracket =>
      expected = .live ∧ DrawnFrom past id order bracket
  | .deleteBracket _ expected => expected ≠ .concluded
  | .updateMatches id expected changes =>
      expected ≠ .concluded ∧ CalledOn request past id changes
  | _ => True

/-- A scan at the door: the code was looked up, the event was published and its window open by the
first reading of the clock, and the row takes the second. -/
def Scanned (past : Past) (code : CheckinCode) (id : EventId) (instant : Instant)
    (draw : Nat → PointEntryId) : Prop :=
  ∃ event first,
    past =
      [⟨.store (.events (.getByCode code)), .ok (some event)⟩, ⟨.now, first⟩, ⟨.now, instant⟩,
        ⟨.draw .pointEntry, draw⟩] ∧
      event.id = id ∧ event.status = .published ∧ event.checkinWindow first = .opened

def EventOp.Allowed (request : Request) (past : Past) : EventOp → Prop
  | .checkIn id player instant award draw =>
      award = checkinAward id player ∧
        ((∃ code, request = .checkIn code player ∧ Scanned past code id instant draw) ∨
          request = .addCheckin id player)
  | _ => True

/-- The calls of a change that was let through, up to its write. -/
def Proven (past : Past) (id : PlayerId) (change : PasswordChange) (passwordHash : String)
    (changedAt : Instant) : Prop :=
  ∃ credentials : Credentials,
    past =
      [⟨.store (.players (.credentialsById id)), .ok (some credentials)⟩,
        ⟨.crypto (.verify change.currentPassword credentials.passwordHash), some true⟩,
        ⟨.crypto (.hash change.newPassword), some passwordHash⟩, ⟨.now, changedAt⟩]

/-- A password is written by a change that was proven, or by a reset. -/
def PlayerOp.Allowed (request : Request) (past : Past) : PlayerOp → Prop
  | .setPassword id passwordHash mustChange changedAt =>
      (∃ change, request = .changePassword id change ∧ mustChange = false ∧
        Proven past id change passwordHash changedAt) ∨
      request = .resetPassword id ∧ mustChange = true
  | .access id => ∃ token claims,
      request = .authenticate token ∧ past = [⟨.crypto (.decode token), some claims⟩] ∧
        claims.sub = id
  | _ => True

/-- The claims of a login: the player whose password it verified, and the instant after. -/
def LoggedIn (past : Past) (handle : Handle) (password : Password) (claims : Claims) : Prop :=
  ∃ (credentials : Credentials) (instant : Instant),
    past =
      [⟨.store (.players (.credentialsByHandle handle)), .ok (some credentials)⟩,
        ⟨.crypto (.verify password credentials.passwordHash), some true⟩, ⟨.now, instant⟩] ∧
      claims.sub = credentials.id ∧ claims.iat = unixSeconds instant

def CryptoOp.Allowed (request : Request) (past : Past) : CryptoOp → Prop
  | .encode claims =>
      (∃ handle password, request = .login handle password ∧
        LoggedIn past handle password claims) ∨
      ∃ id change, request = .changePassword id change ∧ claims.sub = id
  | _ => True

/-- What a request may call. -/
def May (request : Request) (past : Past) : Op → Prop
  | .store (.tournaments op) => op.Allowed request past
  | .store (.events op) => op.Allowed request past
  | .store (.players op) => op.Allowed request past
  | .crypto op => op.Allowed request past
  | _ => True

/-! ## What a request may answer -/

/-- The reads a detail shows, the tournament first. -/
def Shown (past : Past) (id : TournamentId) (detail : TournamentDetail) : Prop :=
  ∃ rows,
    past =
      [⟨.store (.tournaments (.get id)), .ok (some detail.tournament)⟩,
        ⟨.store (.tournaments (.entrants id)), .ok detail.entrants⟩,
        ⟨.store (.tournaments (.matchesOf id)), .ok rows⟩] ∧
      bracketOf rows = .ok detail.bracket

/-- The check-in a receipt is about. -/
def Receipted (past : Past) (player : PlayerId) (outcome : Outcome CheckinReceipt) : Prop :=
  ∃ id instant award draw written event,
    past.Read (.events (.checkIn id player instant award draw)) written ∧
      outcome = EventService.receipt event written

/-- A token that was let in, and what its player was at the last read. -/
def LetIn (past : Past) (token : String) (caller : Caller) : Prop :=
  ∃ (claims : Claims) (stored : StoredAccess),
    past =
      [⟨.crypto (.decode token), some claims⟩,
        ⟨.store (.players (.access claims.sub)), .ok (some stored)⟩] ∧
      stored.credentialsChangedAt ≤ claims.iat ∧
      caller = ⟨stored.id, stored.role, stored.mustChangePassword⟩

/-- What a request may answer. -/
def Answers (request : Request) (response : Response) (past : Past) : Prop :=
  match request, response with
  | .detail id _, .ok (.detail detail) => Shown past id detail
  | .checkIn _ player, .ok (.receipt outcome) => Receipted past player outcome
  | .addCheckin _ player, .ok (.receipt outcome) => Receipted past player outcome
  | .authenticate token, .ok (.caller caller) => LetIn past token caller
  | _, _ => True

theorem answers_error (request : Request) (error : ServiceError) (past : Past) :
    Answers request (.error error) past := by
  cases request <;> trivial

/-! ## The tournament service -/

/-- Every call of a service is one the request may make. -/
abbrev Lawful {α : Type} (request : Request) (past : Past) (service : Service α) : Prop :=
  Yields (May request) past service fun _ _ => True

theorem requireNotConcluded_ok {tournament : Tournament} {value : Unit}
    (passed : requireNotConcluded tournament = .ok value) : tournament.status ≠ .concluded := by
  simp only [requireNotConcluded] at passed
  split_ifs at passed with concluded
  exact concluded

theorem requireEntrantsEditable_ok {tournament : Tournament} {value : Unit}
    (passed : requireEntrantsEditable tournament = .ok value) :
    tournament.status ≠ .concluded := by
  cases first : requireNotConcluded tournament with
  | ok value => exact requireNotConcluded_ok first
  | error error =>
      rw [requireEntrantsEditable, first] at passed
      cases passed

namespace TournamentService

variable {request : Request} {past : Past} {id : TournamentId}

theorem yields_load {post : Tournament → Past → Prop} :
    Yields (May request) past (load id) post ↔
      ∀ tournament, post tournament
        (past ++ [⟨.store (.tournaments (.get id)), .ok (some tournament)⟩]) := by
  rw [load, yields_bind, yields_store]
  constructor
  · rintro ⟨-, holds⟩ tournament
    exact yields_okOr.mp (holds (some tournament)) tournament rfl
  · intro holds
    refine ⟨trivial, fun answer => yields_okOr.mpr fun tournament found => ?_⟩
    subst found
    exact holds tournament

theorem lawful_load : Lawful request past (load id) := yields_load.mpr fun _ => trivial

theorem yields_bracket {post : Option Bracket → Past → Prop} :
    Yields (May request) past (bracket id) post ↔
      ∀ rows found, bracketOf rows = .ok found →
        post found (past ++ [⟨.store (.tournaments (.matchesOf id)), .ok rows⟩]) := by
  rw [bracket, yields_bind, yields_store]
  constructor
  · rintro ⟨-, holds⟩ rows
    exact yields_ofExcept.mp (holds rows)
  · intro holds
    exact ⟨trivial, fun rows => yields_ofExcept.mpr (holds rows)⟩

theorem yields_loadPublic {post : Tournament → Past → Prop}
    (holds : ∀ tournament, post tournament
      (past ++ [⟨.store (.tournaments (.get id)), .ok (some tournament)⟩])) :
    Yields (May request) past (loadPublic id) post := by
  rw [loadPublic, yields_bind, yields_load]
  intro tournament
  rw [yields_ite]
  exact ⟨fun _ => yields_fail.mpr trivial, fun _ => yields_pure.mpr (holds tournament)⟩

theorem yields_detail (visibility : Visibility) :
    Yields (May request) [] (detail id visibility) fun detail past => Shown past id detail := by
  rw [detail, yields_bind, yields_load]
  intro tournament
  rw [yields_ite]
  refine ⟨fun _ => yields_fail.mpr trivial, fun _ => ?_⟩
  rw [yields_bind, yields_store]
  refine ⟨trivial, fun entrants => ?_⟩
  rw [yields_bind, yields_bracket]
  intro rows found read
  exact yields_pure.mpr ⟨rows, rfl, read⟩

theorem lawful_create (new : NewTournament) : Lawful request past (create new) := by
  rw [Lawful, create, yields_bind, yields_ask]
  refine ⟨trivial, fun draw => ?_⟩
  rw [yields_bind, yields_ask]
  refine ⟨trivial, fun now => ?_⟩
  rw [yields_bind, yields_store]
  exact ⟨trivial, fun _ => lawful_load⟩

theorem yields_stale {α : Type} {post : α → Past → Prop} :
    Yields (May request) past (stale id) post := by
  rw [stale, yields_bind, yields_load]
  exact fun _ => yields_fail.mpr trivial

theorem lawful_update (fields : TournamentUpdate) : Lawful request past (update id fields) := by
  rw [Lawful, update, yields_bind, yields_load]
  intro tournament
  rw [yields_bind, yields_ofExcept]
  intro _ passed
  rw [yields_bind, yields_store]
  refine ⟨requireNotConcluded_ok passed, fun written => ?_⟩
  rw [yields_ite]
  exact ⟨fun _ => lawful_load, fun _ => yields_stale⟩

theorem lawful_delete : Lawful request past (delete id) := by
  rw [Lawful, delete, yields_bind, yields_store]
  exact ⟨trivial, fun _ => yields_pure.mpr trivial⟩

/-! ## The status -/

theorem lawful_statusMoved (change : StatusChange) :
    Lawful request past (statusMoved id change) := by
  rw [Lawful, statusMoved, yields_bind, yields_load]
  intro fresh
  rw [yields_ite]
  exact ⟨fun _ => yields_pure.mpr trivial, fun _ => yields_fail.mpr trivial⟩

/-- A plan is a move without awards, or a conclusion from the two reads that follow. -/
theorem yields_planTransition {tournament : Tournament} {change : StatusChange}
    {post : Option EntrantId × List Award → Past → Prop}
    (moves : Moves tournament.status change.status →
      (tournament.status = .live → tournament.hasBracket = false) → post (none, []) past)
    (concludes : tournament.status ≠ .concluded → change.status = .concluded →
      ∀ entrants rows bracket plan, bracketOf rows = .ok bracket →
        concluded tournament.id entrants bracket change.winner = .ok plan →
          post plan (past ++ [⟨.store (.tournaments (.entrants tournament.id)), .ok entrants⟩] ++
            [⟨.store (.tournaments (.matchesOf tournament.id)), .ok rows⟩])) :
    Yields (May request) past (planTransition tournament change) post := by
  have conclusion_yields : tournament.status ≠ .concluded → change.status = .concluded →
      Yields (May request) past (conclusion tournament.id change.winner) post := by
    intro source target
    rw [conclusion, yields_bind, yields_store]
    refine ⟨trivial, fun entrants => ?_⟩
    rw [yields_bind, yields_bracket]
    intro rows bracket read
    rw [yields_ofExcept]
    exact fun plan planned => concludes source target entrants rows bracket plan read planned
  have move_yields : Moves tournament.status change.status →
      (tournament.status = .live → tournament.hasBracket = false) →
      Yields (May request) past (do
        ofExcept (refuseWinner change)
        pure ((none, []) : Option EntrantId × List Award)) post := by
    intro move no_bracket
    rw [yields_bind, yields_ofExcept]
    exact fun _ _ => yields_pure.mpr (moves move no_bracket)
  simp only [planTransition]
  split
  · rename_i source target
    exact move_yields (by simp [source, target, Moves]) (by simp [source])
  · rename_i source target
    exact move_yields (by simp [source, target, Moves]) (by simp [source])
  · rename_i source target
    exact move_yields (by simp [source, target, Moves]) (by simp [source])
  · rename_i source target
    rw [yields_ite]
    exact ⟨fun _ => yields_fail.mpr trivial, fun no_bracket =>
      move_yields (by simp [source, target, Moves]) fun _ => by simpa using no_bracket⟩
  · rename_i source target
    exact conclusion_yields (by simp [source]) target
  · rename_i source target
    exact conclusion_yields (by simp [source]) target
  · rename_i source target
    exact conclusion_yields (by simp [source]) target
  · exact yields_fail.mpr trivial

theorem lawful_changeStatus (change : StatusChange) :
    Lawful (.changeStatus id change) [] (changeStatus id change) := by
  rw [Lawful, changeStatus, yields_bind, yields_load]
  intro tournament
  rw [yields_ite]
  refine ⟨fun _ => yields_pure.mpr trivial, fun _ => ?_⟩
  have planned : Yields (May (.changeStatus id change))
      ([] ++ [⟨.store (.tournaments (.get id)), .ok (some tournament)⟩])
      (planTransition tournament change)
      fun plan past => Planned past id change tournament.status plan.1 plan.2 := by
    refine yields_planTransition (fun move no_bracket => ?_) ?_
    · exact ⟨tournament, by simp [Past.Read], rfl, Or.inl ⟨move, no_bracket, rfl, rfl⟩⟩
    · intro source target entrants rows bracket plan read computed
      exact ⟨tournament, by simp [Past.Read], rfl, Or.inr ⟨source, target, entrants, rows, bracket,
        by simp [Past.Read], by simp [Past.Read], read, computed⟩⟩
  rw [yields_bind]
  refine planned.mono fun plan past planned => ?_
  obtain ⟨winner, awards⟩ := plan
  rw [yields_bind, yields_ask]
  refine ⟨trivial, fun now => ?_⟩
  rw [yields_bind, yields_ask]
  refine ⟨trivial, fun draw => ?_⟩
  rw [yields_bind, yields_attempt]
  refine ⟨⟨change, rfl, rfl, planned.mono (by simp)⟩, fun written => ?_⟩
  split
  · exact lawful_load
  · exact lawful_statusMoved change
  · exact lawful_statusMoved change
  · exact yields_fail.mpr trivial

/-! ## Entrants -/

theorem lawful_explainRefusal (guard : EntrantGuard) :
    Lawful request past (explainRefusal id guard) := by
  rw [Lawful, explainRefusal, yields_bind, yields_load]
  intro fresh
  rw [yields_bind, yields_ofExcept]
  intro _ _
  split
  · exact yields_ofExcept.mpr fun _ _ => trivial
  · rw [yields_ite]
    exact ⟨fun _ => yields_fail.mpr trivial, fun _ => yields_pure.mpr trivial⟩

section Guarded

variable {guard : EntrantGuard} (not_concluded : guard.status ≠ .concluded)

include not_concluded

theorem lawful_correctSkill (player : PlayerId) (skill : Option SkillLevel) :
    Lawful request past (correctSkill id player skill guard) := by
  cases skill with
  | none => exact yields_pure.mpr trivial
  | some skill =>
      rw [Lawful, correctSkill, yields_bind, yields_store]
      refine ⟨not_concluded, fun written => ?_⟩
      rw [yields_ite]
      exact ⟨fun _ => yields_pure.mpr trivial, fun _ => lawful_explainRefusal guard⟩

theorem lawful_enrol (player : PlayerId) (skill : Option SkillLevel) :
    Lawful request past (enrol id player skill guard) := by
  rw [Lawful, enrol, yields_bind, yields_ask]
  refine ⟨trivial, fun draw => ?_⟩
  rw [yields_bind, yields_ask]
  refine ⟨trivial, fun now => ?_⟩
  rw [yields_bind, yields_attempt]
  refine ⟨not_concluded, fun written => ?_⟩
  have answered : ∀ past (created : Bool), Lawful request past (do
      let found ← store (.tournaments (.entrantOf id player))
      let entrant ← okOr found (.playerIdNotFound player)
      pure (if created then Outcome.created entrant else .existing entrant)) := by
    intro past created
    rw [Lawful, yields_bind, yields_store]
    refine ⟨trivial, fun found => ?_⟩
    rw [yields_bind, yields_okOr]
    exact fun _ _ => yields_pure.mpr trivial
  dsimp only
  split
  · rw [yields_bind]
    exact yields_pure.mpr (answered _ _)
  · rw [yields_bind]
    refine (lawful_correctSkill not_concluded player skill).mono fun _ past _ => ?_
    rw [yields_bind]
    exact yields_pure.mpr (answered past _)
  · rw [yields_bind]
    refine (lawful_explainRefusal guard).mono fun _ past _ => ?_
    rw [yields_bind]
    exact yields_fail.mpr trivial
  · rw [yields_bind]
    exact yields_fail.mpr trivial
  · rw [yields_bind]
    exact yields_fail.mpr trivial

end Guarded

theorem lawful_register (player : PlayerId) (skill : SkillLevel) :
    Lawful request past (register id player skill) := by
  rw [Lawful, register, yields_bind, yields_ask]
  refine ⟨trivial, fun now => ?_⟩
  rw [yields_bind]
  refine yields_loadPublic fun tournament => ?_
  rw [yields_bind, yields_ofExcept]
  intro _ _
  rw [yields_bind]
  have opened : ({ status := .opened, openAt := some now } : EntrantGuard).status ≠ .concluded := by
    simp
  refine (lawful_enrol opened player (some skill)).mono fun outcome past _ => ?_
  cases outcome with
  | created entrant => exact yields_pure.mpr trivial
  | existing entrant => exact yields_pure.mpr trivial

theorem lawful_retire (player : PlayerId) : Lawful request past (retire id player) := by
  rw [Lawful, retire, yields_bind, yields_ask]
  refine ⟨trivial, fun now => ?_⟩
  rw [yields_bind]
  refine yields_loadPublic fun tournament => ?_
  rw [yields_bind, yields_ofExcept]
  intro _ _
  rw [yields_bind, yields_store]
  refine ⟨by simp [May, TournamentOp.Allowed], fun removed => ?_⟩
  rw [yields_ite]
  exact ⟨fun _ => yields_pure.mpr trivial, fun _ => lawful_explainRefusal _⟩

theorem lawful_addEntrant (player : PlayerId) (skill : Option SkillLevel) :
    Lawful request past (addEntrant id player skill) := by
  rw [Lawful, addEntrant, yields_bind, yields_load]
  intro tournament
  rw [yields_bind, yields_ofExcept]
  intro _ passed
  rw [yields_bind, yields_store]
  refine ⟨trivial, fun found => ?_⟩
  rw [yields_ite]
  have editable : ({ status := tournament.status, openAt := none } : EntrantGuard).status ≠
      .concluded := requireEntrantsEditable_ok passed
  exact ⟨fun _ => lawful_enrol editable player skill, fun _ => yields_fail.mpr trivial⟩

theorem lawful_removeEntrant (entrant : EntrantId) :
    Lawful request past (removeEntrant id entrant) := by
  rw [Lawful, removeEntrant, yields_bind, yields_load]
  intro tournament
  rw [yields_bind, yields_ofExcept]
  intro _ passed
  rw [yields_bind, yields_store]
  refine ⟨requireEntrantsEditable_ok passed, fun removed => ?_⟩
  rw [yields_ite]
  exact ⟨fun _ => yields_pure.mpr trivial, fun _ => lawful_explainRefusal _⟩

/-! ## The bracket -/

/-- Only a live tournament gets past the check. -/
theorem yields_loadBracketEditable {post : Tournament → Past → Prop}
    (holds : ∀ tournament rows, tournament.status = .live →
      post tournament (past ++ [⟨.store (.tournaments (.get id)), .ok (some tournament)⟩] ++
        [⟨.store (.tournaments (.matchesOf id)), .ok rows⟩])) :
    Yields (May request) past (loadBracketEditable id) post := by
  rw [loadBracketEditable, yields_bind, yields_load]
  intro tournament
  split
  · rename_i live
    rw [yields_bind, yields_bracket]
    intro rows found _
    rw [yields_ite]
    exact ⟨fun _ => yields_fail.mpr trivial, fun _ => yields_pure.mpr (holds tournament rows live)⟩
  · exact yields_fail.mpr trivial
  · exact yields_fail.mpr trivial
  · exact yields_fail.mpr trivial

/-- A bracket is built by the draw of the seed order. -/
theorem yields_buildBracket (source : TournamentId) {tournament : Tournament}
    (entrants listed : List Entrant) {order : List EntrantId} (live : tournament.status = .live)
    (loaded : past.Read (.tournaments (.get source)) (some tournament))
    (read : past.Read (.tournaments (.entrants source)) entrants)
    (listed_eq : listed = entrants ∨ ⟨.shuffle entrants, listed⟩ ∈ past)
    (same : order.Perm (listed.map Entrant.id)) :
    Yields (May request) past (buildBracket tournament order) fun bracket longer =>
      past ⊆ longer ∧ ∃ draw, Bracket.generate draw order = .ok bracket := by
  rw [buildBracket, yields_bind, yields_ask]
  refine ⟨trivial, fun draw => ?_⟩
  rw [yields_bind, yields_ofExcept]
  intro bracket generated
  have drawn : Bracket.generate draw order = .ok bracket := by
    cases result : Bracket.generate draw order with
    | ok other =>
        rw [result] at generated
        exact congrArg Except.ok (Except.ok.inj generated)
    | error error =>
        rw [result] at generated
        cases generated
  rw [yields_bind, yields_store]
  refine ⟨⟨live, source, tournament, entrants, listed, List.mem_append_left _ loaded, rfl,
    List.mem_append_left _ read, listed_eq.imp_right (List.mem_append_left _), same, draw, drawn⟩,
    fun written => ?_⟩
  rw [yields_bind, yields_ofExcept]
  intro _ _
  refine yields_pure.mpr ⟨?_, draw, drawn⟩
  simp

theorem seedOrder_perm (shuffled : List Entrant) :
    (seedOrder shuffled).Perm (shuffled.map Entrant.id) :=
  (List.perm_insertionSort _ shuffled).map Entrant.id

theorem sameEntrants_perm {expected given : List EntrantId} (same : sameEntrants expected given) :
    given.Perm expected := by
  have sorted : expected.insertionSort (· ≤ ·) = given.insertionSort (· ≤ ·) :=
    of_decide_eq_true same
  have given_perm := (List.perm_insertionSort (· ≤ ·) given).symm
  rw [← sorted] at given_perm
  exact given_perm.trans (List.perm_insertionSort _ expected)

/-- The bracket is drawn over the seed order of a shuffle of the entrants that were read. -/
theorem yields_generateBracket :
    Yields (May request) past (generateBracket id) fun bracket longer =>
      ∃ entrants shuffled draw, longer.Read (.tournaments (.entrants id)) entrants ∧
        ⟨.shuffle entrants, shuffled⟩ ∈ longer ∧
        Bracket.generate draw (seedOrder shuffled) = .ok bracket := by
  rw [generateBracket, yields_bind]
  refine yields_loadBracketEditable fun tournament rows live => ?_
  rw [yields_bind, yields_store]
  refine ⟨trivial, fun entrants => ?_⟩
  rw [yields_bind, yields_ask]
  refine ⟨trivial, fun shuffled => ?_⟩
  refine (yields_buildBracket id entrants shuffled live (by simp [Past.Read])
    (by simp [Past.Read]) (Or.inr (by simp)) (seedOrder_perm shuffled)).mono ?_
  rintro bracket longer ⟨kept, draw, generated⟩
  exact ⟨entrants, shuffled, draw, kept (by simp), kept (by simp), generated⟩

theorem lawful_generateBracket : Lawful request past (generateBracket id) :=
  yields_generateBracket.mono fun _ _ _ => trivial

theorem lawful_reorderSeeds (order : List EntrantId) :
    Lawful request past (reorderSeeds id order) := by
  rw [Lawful, reorderSeeds, yields_bind]
  refine yields_loadBracketEditable fun tournament rows live => ?_
  rw [yields_ite]
  refine ⟨fun _ => ?_, fun _ => yields_fail.mpr trivial⟩
  rw [yields_bind, yields_store]
  refine ⟨trivial, fun entrants => ?_⟩
  rw [yields_ite]
  refine ⟨fun same => ?_, fun _ => yields_fail.mpr trivial⟩
  refine (yields_buildBracket id entrants entrants live (by simp [Past.Read])
    (by simp [Past.Read]) (Or.inl rfl) (sameEntrants_perm same)).mono ?_
  exact fun _ _ _ => trivial

theorem lawful_deleteBracket : Lawful request past (deleteBracket id) := by
  rw [Lawful, deleteBracket, yields_bind, yields_load]
  intro tournament
  rw [yields_bind, yields_ofExcept]
  intro _ passed
  rw [yields_bind, yields_store]
  exact ⟨requireNotConcluded_ok passed, fun _ => yields_ofExcept.mpr fun _ _ => trivial⟩

/-! ## Results -/

theorem yields_loadOpenBracket {matchId : MatchId} {post : Tournament × Bracket → Past → Prop}
    (holds : ∀ tournament rows read, tournament.status ≠ .concluded →
      bracketOf rows = .ok (some read) →
      post (tournament, read) (past ++ [⟨.store (.tournaments (.get id)), .ok (some tournament)⟩] ++
        [⟨.store (.tournaments (.matchesOf id)), .ok rows⟩])) :
    Yields (May request) past (loadOpenBracket id matchId) post := by
  rw [loadOpenBracket, yields_bind, yields_load]
  intro tournament
  rw [yields_bind, yields_ofExcept]
  intro _ passed
  rw [yields_bind, yields_bracket]
  intro rows found read_eq
  rw [yields_bind, yields_okOr]
  rintro read rfl
  exact yields_pure.mpr (holds tournament rows read (requireNotConcluded_ok passed) read_eq)

/-- The write of what a call changed on the bracket that was read. -/
theorem yields_writeCall {source : TournamentId} {tournament : Tournament} {rows : List Match}
    {read : Bracket} {call : Bracket.Call} {post : Bracket → Past → Prop}
    (requested : request.result? = some (source, call))
    (not_concluded : tournament.status ≠ .concluded)
    (loaded : past.Read (.tournaments (.get source)) (some tournament))
    (rows_read : past.Read (.tournaments (.matchesOf source)) rows)
    (read_eq : bracketOf rows = .ok (some read))
    (holds : ∀ changed returned, read.result call = (.ok changed, returned) →
      post returned (past ++ [⟨.store (.tournaments (.updateMatches tournament.id tournament.status
        (changePairs read changed))), .ok true⟩])) :
    Yields (May request) past (writeCall tournament read (read.result call)) post := by
  rw [writeCall, yields_bind, yields_ofExcept]
  intro changed called
  have called_ok : (read.result call).1 = .ok changed := by
    cases result : (read.result call).1 with
    | ok other =>
        rw [result] at called
        exact congrArg Except.ok (Except.ok.inj called)
    | error error =>
        rw [result] at called
        cases called
  rw [yields_bind, writeResults, yields_bind, yields_store]
  refine ⟨⟨not_concluded, source, call, tournament, rows, read, changed, requested, loaded, rfl,
    rows_read, read_eq, called_ok, rfl⟩, fun written => ?_⟩
  rw [yields_ite]
  refine ⟨fun done => ?_, fun _ => yields_fail.mpr trivial⟩
  subst done
  exact yields_pure.mpr (yields_pure.mpr (holds changed _ (Prod.ext called_ok rfl)))

theorem lawful_writeCall {source : TournamentId} {tournament : Tournament} {rows : List Match}
    {read : Bracket} {call : Bracket.Call} (requested : request.result? = some (source, call))
    (not_concluded : tournament.status ≠ .concluded)
    (loaded : past.Read (.tournaments (.get source)) (some tournament))
    (rows_read : past.Read (.tournaments (.matchesOf source)) rows)
    (read_eq : bracketOf rows = .ok (some read)) :
    Lawful request past (writeCall tournament read (read.result call)) :=
  yields_writeCall requested not_concluded loaded rows_read read_eq fun _ _ _ => trivial

theorem lawful_reportResult (matchId : MatchId) (winner : EntrantId) :
    Lawful (.reportResult id matchId winner) [] (reportResult id matchId winner) := by
  rw [Lawful, reportResult, yields_bind]
  refine yields_loadOpenBracket fun tournament rows read not_concluded read_eq => ?_
  have requested : (Request.reportResult id matchId winner).result? =
      some (id, .report matchId winner) := rfl
  exact lawful_writeCall requested not_concluded (by simp [Past.Read]) (by simp [Past.Read]) read_eq

theorem lawful_clearResult (matchId : MatchId) :
    Lawful (.clearResult id matchId) [] (clearResult id matchId) := by
  rw [Lawful, clearResult, yields_bind]
  refine yields_loadOpenBracket fun tournament rows read not_concluded read_eq => ?_
  have requested : (Request.clearResult id matchId).result? = some (id, .clear matchId) := rfl
  exact lawful_writeCall requested not_concluded (by simp [Past.Read]) (by simp [Past.Read]) read_eq

end TournamentService

/-! ## The event service -/

namespace EventService

variable {request : Request} {past : Past} {id : EventId}

theorem yields_load {post : StoredEvent → Past → Prop} :
    Yields (May request) past (load id) post ↔
      ∀ stored, post stored (past ++ [⟨.store (.events (.get id)), .ok (some stored)⟩]) := by
  rw [load, yields_bind, yields_store]
  constructor
  · rintro ⟨-, holds⟩ stored
    exact yields_okOr.mp (holds (some stored)) stored rfl
  · intro holds
    refine ⟨trivial, fun answer => yields_okOr.mpr fun stored found => ?_⟩
    subst found
    exact holds stored

theorem yields_publishedByCode {code : CheckinCode} {post : Event → Past → Prop}
    (holds : ∀ event, event.status = .published →
      post event (past ++ [⟨.store (.events (.getByCode code)), .ok (some event)⟩])) :
    Yields (May request) past (publishedByCode code) post := by
  rw [publishedByCode, yields_bind, yields_store]
  refine ⟨trivial, fun found => yields_okOr.mpr fun event kept => ?_⟩
  obtain ⟨rfl, published⟩ := Option.filter_eq_some_iff.mp kept
  exact holds event (of_decide_eq_true published)

theorem lawful_create (fields : EventFields) : Lawful request past (create fields) := by
  rw [Lawful, create, yields_bind, yields_ask]
  refine ⟨trivial, fun draw => ?_⟩
  rw [yields_bind, yields_ask]
  refine ⟨trivial, fun code => ?_⟩
  rw [yields_bind, yields_ask]
  refine ⟨trivial, fun now => ?_⟩
  rw [yields_bind, yields_store]
  refine ⟨trivial, fun _ => ?_⟩
  rw [yields_bind, yields_load]
  exact fun _ => yields_pure.mpr trivial

theorem lawful_detail : Lawful request past (detail id) := by
  rw [Lawful, detail, yields_bind, yields_load]
  intro stored
  rw [yields_bind, yields_store]
  exact ⟨trivial, fun _ => yields_pure.mpr trivial⟩

theorem lawful_update (fields : EventFields) : Lawful request past (update id fields) := by
  rw [Lawful, update, yields_bind, yields_store]
  refine ⟨trivial, fun written => ?_⟩
  rw [yields_ite, yields_bind, yields_load]
  exact ⟨fun _ _ => yields_pure.mpr trivial, fun _ => yields_fail.mpr trivial⟩

theorem lawful_setStatus (status : EventStatus) : Lawful request past (setStatus id status) := by
  rw [Lawful, setStatus, yields_bind, yields_store]
  refine ⟨trivial, fun written => ?_⟩
  rw [yields_ite, yields_bind, yields_load]
  exact ⟨fun _ _ => yields_pure.mpr trivial, fun _ => yields_fail.mpr trivial⟩

theorem lawful_delete : Lawful request past (delete id) := by
  rw [Lawful, delete, yields_bind, yields_store]
  exact ⟨trivial, fun _ => yields_pure.mpr trivial⟩

theorem lawful_gate (code : CheckinCode) : Lawful request past (gate code) := by
  rw [Lawful, gate, yields_bind]
  refine yields_publishedByCode fun event _ => ?_
  rw [yields_bind, yields_ask]
  exact ⟨trivial, fun _ => yields_pure.mpr trivial⟩

/-- The check-in is recorded with the reading of the clock that `record` itself makes. -/
theorem yields_record {player : PlayerId}
    (may : ∀ now draw, (EventOp.checkIn id player now (checkinAward id player) draw).Allowed request
      (past ++ [⟨.now, now⟩] ++ [⟨.draw .pointEntry, draw⟩])) :
    Yields (May request) past (record id player) fun outcome past =>
      Receipted past player outcome := by
  rw [record, yields_bind, yields_ask]
  refine ⟨trivial, fun now => ?_⟩
  rw [yields_bind, yields_ask]
  refine ⟨trivial, fun draw => ?_⟩
  rw [yields_bind, yields_attempt]
  refine ⟨may now draw, fun written => ?_⟩
  split
  · rename_i outcome
    rw [yields_bind, yields_load]
    intro stored
    exact yields_pure.mpr ⟨id, now, _, draw, outcome, stored.event, by simp [Past.Read], rfl⟩
  · rw [yields_bind, yields_store]
    exact ⟨trivial, fun _ => yields_fail.mpr trivial⟩
  · exact yields_fail.mpr trivial

theorem yields_checkIn (code : CheckinCode) (player : PlayerId) :
    Yields (May (.checkIn code player)) [] (checkIn code player) fun outcome past =>
      Receipted past player outcome := by
  rw [checkIn, yields_bind]
  refine yields_publishedByCode fun event published => ?_
  rw [yields_bind, yields_ask]
  refine ⟨trivial, fun first => ?_⟩
  split
  · rename_i opened
    refine yields_record fun now draw => ⟨rfl, Or.inl ⟨code, rfl, event, first, rfl, rfl, ?_⟩⟩
    exact ⟨published, opened⟩
  · exact yields_fail.mpr trivial
  · exact yields_fail.mpr trivial

theorem yields_addCheckin (player : PlayerId) :
    Yields (May (.addCheckin id player)) [] (addCheckin id player) fun outcome past =>
      Receipted past player outcome := by
  rw [addCheckin, yields_bind, yields_load]
  intro stored
  rw [yields_bind, yields_store]
  refine ⟨trivial, fun found => ?_⟩
  rw [yields_ite]
  exact ⟨fun _ => yields_record fun now draw => ⟨rfl, Or.inr rfl⟩,
    fun _ => yields_fail.mpr trivial⟩

theorem lawful_removeCheckin (player : PlayerId) :
    Lawful request past (removeCheckin id player) := by
  rw [Lawful, removeCheckin, yields_bind, yields_load]
  intro stored
  rw [yields_bind, yields_store]
  exact ⟨trivial, fun _ => yields_pure.mpr trivial⟩

end EventService

/-! ## Passwords and tokens -/

section Passwords

variable {request : Request} {past : Past}

theorem PasswordHasher.yields_hash {password : Password} {post : String → Past → Prop} :
    Yields (May request) past (hash password) post ↔
      ∀ passwordHash, post passwordHash
        (past ++ [⟨.crypto (.hash password), some passwordHash⟩]) := by
  rw [hash, yields_bind, yields_ask]
  constructor
  · rintro ⟨-, holds⟩ passwordHash
    exact yields_okOr.mp (holds (some passwordHash)) passwordHash rfl
  · intro holds
    refine ⟨trivial, fun answer => yields_okOr.mpr fun passwordHash found => ?_⟩
    subst found
    exact holds passwordHash

theorem PasswordHasher.yields_verify {password : Password} {passwordHash : String}
    {post : Bool → Past → Prop} :
    Yields (May request) past (verify password passwordHash) post ↔
      ∀ valid, post valid (past ++ [⟨.crypto (.verify password passwordHash), some valid⟩]) := by
  rw [verify, yields_bind, yields_ask]
  constructor
  · rintro ⟨-, holds⟩ valid
    exact yields_okOr.mp (holds (some valid)) valid rfl
  · intro holds
    refine ⟨trivial, fun answer => yields_okOr.mpr fun valid found => ?_⟩
    subst found
    exact holds valid

/-- A token is signed for the instant that was just read. -/
theorem TokenIssuer.lawful_issue {player : PlayerId}
    (may : ∀ now claims, claims.sub = player → claims.iat = unixSeconds now →
      (CryptoOp.encode claims).Allowed request (past ++ [⟨.now, now⟩])) :
    Lawful request past (issue player) := by
  rw [Lawful, issue, yields_bind, yields_ask]
  refine ⟨trivial, fun now => ?_⟩
  rw [yields_bind, yields_okOr]
  intro expiresAt _
  rw [yields_bind, yields_ask]
  refine ⟨may now _ rfl rfl, fun encoded => ?_⟩
  rw [yields_bind, yields_okOr]
  exact fun _ _ => yields_pure.mpr trivial

namespace AuthService

theorem lawful_login (handle : Handle) (password : Password) :
    Lawful (.login handle password) [] (login handle password) := by
  rw [Lawful, login, yields_bind, yields_store]
  refine ⟨trivial, fun found => ?_⟩
  cases found with
  | some credentials =>
      dsimp only
      rw [yields_bind, PasswordHasher.yields_verify]
      intro valid
      rw [yields_ite]
      refine ⟨fun proven => ?_, fun _ => yields_fail.mpr trivial⟩
      subst proven
      refine TokenIssuer.lawful_issue fun now claims player issued => Or.inl ?_
      exact ⟨handle, password, rfl, credentials, now, rfl, player, issued⟩
  | none =>
      dsimp only
      rw [yields_bind, PasswordHasher.burn, yields_bind, PasswordHasher.yields_hash]
      exact fun _ => yields_pure.mpr (yields_fail.mpr trivial)

theorem lawful_changePassword (id : PlayerId) (change : PasswordChange) :
    Lawful (.changePassword id change) [] (changePassword id change) := by
  rw [Lawful, changePassword, yields_bind, yields_store]
  refine ⟨trivial, fun found => ?_⟩
  rw [yields_bind, yields_okOr]
  rintro credentials rfl
  rw [yields_bind, PasswordHasher.yields_verify]
  intro valid
  rw [yields_ite]
  refine ⟨fun proven => ?_, fun _ => yields_fail.mpr trivial⟩
  subst proven
  rw [yields_bind, PasswordHasher.yields_hash]
  intro passwordHash
  rw [yields_bind, yields_ask]
  refine ⟨trivial, fun now => ?_⟩
  rw [yields_bind, yields_store]
  refine ⟨Or.inl ⟨change, rfl, rfl, credentials, rfl⟩, fun written => ?_⟩
  rw [yields_ite]
  refine ⟨fun _ => ?_, fun _ => yields_fail.mpr trivial⟩
  exact TokenIssuer.lawful_issue fun _ claims player _ => Or.inr ⟨id, change, rfl, player⟩

theorem lawful_resetPassword (id : PlayerId) :
    Lawful (.resetPassword id) past (resetPassword id) := by
  rw [Lawful, resetPassword, yields_bind, yields_ask]
  refine ⟨trivial, fun temporary => ?_⟩
  rw [yields_bind, yields_okOr]
  intro password _
  rw [yields_bind, PasswordHasher.yields_hash]
  intro passwordHash
  rw [yields_bind, yields_ask]
  refine ⟨trivial, fun now => ?_⟩
  rw [yields_bind, yields_store]
  refine ⟨Or.inr ⟨rfl, rfl⟩, fun written => ?_⟩
  rw [yields_ite]
  exact ⟨fun _ => yields_pure.mpr trivial, fun _ => yields_fail.mpr trivial⟩

theorem yields_authenticate (token : String) :
    Yields (May (.authenticate token)) [] (authenticate token) fun caller past =>
      LetIn past token caller := by
  rw [authenticate, TokenIssuer.verify, yields_bind, yields_bind, yields_ask]
  refine ⟨trivial, fun decoded => ?_⟩
  rw [yields_bind, yields_okOr]
  rintro claims rfl
  rw [yields_pure, yields_bind, yields_store]
  refine ⟨⟨token, claims, rfl, rfl, rfl⟩, fun found => ?_⟩
  rw [yields_bind, yields_okOr]
  rintro stored rfl
  rw [yields_ite]
  refine ⟨fun _ => yields_fail.mpr trivial, fun later => ?_⟩
  exact yields_pure.mpr ⟨claims, stored, rfl, Int.not_lt.mp later, rfl⟩

end AuthService

end Passwords

/-! ## Accounts -/

section Accounts

variable {request : Request} {past : Past}

theorem AuthService.lawful_signup (handle : Handle) (passwordHash : String) :
    Lawful request past (signup handle passwordHash) := by
  rw [Lawful, signup, yields_bind, yields_ask]
  refine ⟨trivial, fun draw => ?_⟩
  rw [yields_bind, yields_ask]
  refine ⟨trivial, fun now => ?_⟩
  rw [yields_bind, yields_store]
  refine ⟨trivial, fun created => ?_⟩
  split
  · exact yields_pure.mpr trivial
  · exact yields_fail.mpr trivial

theorem PlayerService.lawful_setRole (actor id : PlayerId) (role : Role) :
    Lawful request past (setRole actor id role) := by
  rw [Lawful, setRole, yields_ite, yields_bind, yields_store]
  refine ⟨fun _ => yields_fail.mpr trivial, fun _ => ⟨trivial, fun changed => ?_⟩⟩
  split
  · exact yields_pure.mpr trivial
  · exact yields_fail.mpr trivial
  · exact yields_fail.mpr trivial

theorem PlayerService.lawful_delete (actor id : PlayerId) :
    Lawful request past (delete actor id) := by
  rw [Lawful, delete, yields_ite, yields_bind, yields_store]
  refine ⟨fun _ => yields_fail.mpr trivial, fun _ => ⟨trivial, fun removal => ?_⟩⟩
  split
  · exact yields_pure.mpr trivial
  · exact yields_pure.mpr trivial
  · exact yields_fail.mpr trivial

theorem PointsService.lawful_adjust (admin player : PlayerId) (amount : Amount) (note : Note) :
    Lawful request past (adjust admin player amount note) := by
  rw [Lawful, adjust, yields_bind, yields_store]
  refine ⟨trivial, fun found => ?_⟩
  rw [yields_ite]
  refine ⟨fun _ => ?_, fun _ => yields_fail.mpr trivial⟩
  rw [yields_bind, yields_ask]
  refine ⟨trivial, fun draw => ?_⟩
  rw [yields_bind, yields_ask]
  refine ⟨trivial, fun now => ?_⟩
  rw [yields_bind, yields_attempt]
  refine ⟨trivial, fun written => ?_⟩
  split
  · exact yields_pure.mpr trivial
  · exact yields_fail.mpr trivial
  · exact yields_fail.mpr trivial

end Accounts

/-! ## The discipline of the bunker -/

private theorem follows_answering {α : Type} {request : Request} {service : Service α}
    {payload : α → Payload}
    (yields : Yields (May request) [] service fun value past =>
      Answers request (.ok (payload value)) past) :
    (service.answering payload).Follows (May request) [] (Answers request) := by
  refine Program.follows_bind.mpr (Program.Follows.mono yields fun result past holds => ?_)
  cases result with
  | ok value => exact holds value rfl
  | error error => exact answers_error request error past

theorem serve_follows (request : Request) :
    request.serve.Follows (May request) [] (Answers request) := by
  cases request with
  | signup handle passwordHash => exact follows_answering (AuthService.lawful_signup _ _)
  | login handle password => exact follows_answering (AuthService.lawful_login _ _)
  | changePassword id change => exact follows_answering (AuthService.lawful_changePassword _ _)
  | resetPassword id => exact follows_answering (AuthService.lawful_resetPassword _)
  | authenticate token => exact follows_answering (AuthService.yields_authenticate _)
  | setRole actor id role => exact follows_answering (PlayerService.lawful_setRole _ _ _)
  | deletePlayer actor id => exact follows_answering (PlayerService.lawful_delete _ _)
  | adjust admin player amount note => exact follows_answering (PointsService.lawful_adjust _ _ _ _)
  | createTournament new => exact follows_answering (TournamentService.lawful_create _)
  | detail id visibility => exact follows_answering (TournamentService.yields_detail _)
  | updateTournament id fields => exact follows_answering (TournamentService.lawful_update _)
  | deleteTournament id => exact follows_answering TournamentService.lawful_delete
  | changeStatus id change => exact follows_answering (TournamentService.lawful_changeStatus _)
  | register id player skill => exact follows_answering (TournamentService.lawful_register _ _)
  | retire id player => exact follows_answering (TournamentService.lawful_retire _)
  | addEntrant id player skill => exact follows_answering (TournamentService.lawful_addEntrant _ _)
  | removeEntrant id entrant => exact follows_answering (TournamentService.lawful_removeEntrant _)
  | generateBracket id => exact follows_answering TournamentService.lawful_generateBracket
  | reorderSeeds id order => exact follows_answering (TournamentService.lawful_reorderSeeds _)
  | deleteBracket id => exact follows_answering TournamentService.lawful_deleteBracket
  | reportResult id matchId winner =>
      exact follows_answering (TournamentService.lawful_reportResult _ _)
  | clearResult id matchId => exact follows_answering (TournamentService.lawful_clearResult _)
  | createEvent fields => exact follows_answering (EventService.lawful_create _)
  | eventDetail id => exact follows_answering EventService.lawful_detail
  | updateEvent id fields => exact follows_answering (EventService.lawful_update _)
  | setEventStatus id status => exact follows_answering (EventService.lawful_setStatus _)
  | deleteEvent id => exact follows_answering EventService.lawful_delete
  | gate code => exact follows_answering (EventService.lawful_gate _)
  | checkIn code player => exact follows_answering (EventService.yields_checkIn _ _)
  | addCheckin id player => exact follows_answering (EventService.yields_addCheckin _)
  | removeCheckin id player => exact follows_answering (EventService.lawful_removeCheckin _)

/-- Every request follows its discipline. -/
def discipline : Discipline bunker where
  may := May
  answers := Answers
  follows := serve_follows

/-! ## What one step can do -/

/-- A storage method that ran. -/
structure Stored (moment : Moment bunker) (request : Request) (past : Past) (op : StorageOp)
    (answer : Except StorageError op.Ans) : Prop where
  may : May request past (.store op)
  fresh : moment.before.IsFresh op
  called : op.method moment.before.db = (answer, moment.after.db)
  clock : moment.after.clock = moment.before.clock
  used : moment.after.used = moment.before.used ++ op.generated

theorem Stored.of_exec {moment : Moment bunker} {request : Request} {past : Past} {op : StorageOp}
    {answer : Except StorageError op.Ans} (may : May request past (.store op))
    (fresh : moment.before.IsFresh op) (stored : moment.before.store op = (answer, moment.after)) :
    Stored moment request past op answer := by
  have clock_eq := congrArg World.clock (Prod.mk.inj stored).2.symm
  have used_eq := congrArg World.used (Prod.mk.inj stored).2.symm
  exact ⟨may, fresh, World.store_eq stored, clock_eq, used_eq⟩

/-- A method that gave its result ran. -/
theorem Stored.of_ok {moment : Moment bunker} (sound : discipline.Sound moment) {name : Nat}
    {request : Request} {past : Past} {op : StorageOp} {value : op.Ans}
    (label : moment.label = .call name request past (.store op) (.ok value)) :
    Stored moment request past op (.ok value) := by
  obtain ⟨before, _, after⟩ := moment
  subst label
  obtain ⟨may, ⟨fresh, stored⟩ | ⟨impossible, -⟩⟩ := sound
  · exact .of_exec may fresh stored
  · cases impossible

/-- Every step of a run: nothing changes, the clock moves, a player is promoted, or a storage
method runs. -/
theorem moment_cases (moment : Moment bunker) (sound : discipline.Sound moment) :
    moment.after = moment.before ∨
      (∃ clock, moment.after = { moment.before with clock }) ∨
      (∃ id, moment.after = moment.before.promote id) ∨
      ∃ name request past op answer,
        moment.label = .call name request past (.store op) answer ∧
          Stored moment request past op answer := by
  obtain ⟨before, label, after⟩ := moment
  cases label with
  | arrive name request => exact Or.inl sound
  | reply name request past response => exact Or.inl sound.1
  | drop name request => exact Or.inl sound
  | drift =>
      have drift : World.Drift before after := sound
      cases drift with
      | clock clock => exact Or.inr (Or.inl ⟨clock, rfl⟩)
      | promote id => exact Or.inr (Or.inr (Or.inl ⟨id, rfl⟩))
  | call name request past op answer =>
      obtain ⟨may, exec⟩ := sound
      cases op with
      | store op =>
          rcases exec with ⟨fresh, stored⟩ | ⟨-, same⟩
          · exact Or.inr (Or.inr (Or.inr ⟨name, request, past, op, answer, rfl,
              .of_exec may fresh stored⟩))
          · exact Or.inl same
      | now => exact Or.inl exec.2
      | draw kind => exact Or.inl exec
      | drawCode => exact Or.inl exec
      | shuffle entrants => exact Or.inl exec.2
      | crypto op => exact Or.inl exec

end LanBunker
