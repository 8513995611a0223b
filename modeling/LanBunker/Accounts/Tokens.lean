import LanBunker.Accounts.Credentials
import LanBunker.Accounts.Passwords

/-!
# Which tokens outlive a password

A token is refused once its second lies before the second of the last password change.  A login
signs its token after it read the hash, so a token of an old password can carry a later second than
the change that passed the login.
-/

namespace LanBunker

open Interleaving PlayerStorage

/-- A token that a request signed: who it was, and the instants it had read by then. -/
structure Signed where
  name : Nat
  request : Request
  instants : List Instant
  claims : Claims
  token : String
  deriving DecidableEq, Repr

def Request.isLogin : Request → Bool
  | .login _ _ => true
  | _ => false

/-- What a history read from the clock. -/
def Past.instants (past : Past) : List Instant :=
  past.filterMap fun
    | ⟨.now, instant⟩ => some instant
    | _ => none

/-- The token that a moment signs. -/
def signed? (moment : Moment bunker) : Option Signed :=
  match moment.label with
  | .call name request past (.crypto (.encode claims)) (some token) =>
      some ⟨name, request, Past.instants past, claims, token⟩
  | _ => none

/-- The token that a moment decodes, with its claims. -/
def decoded? (moment : Moment bunker) : Option (String × Claims) :=
  match moment.label with
  | .call _ _ _ (.crypto (.decode token)) (some claims) => some (token, claims)
  | _ => none

/-- The moment reads the access of an account, for this request. -/
def readsAccess? (moment : Moment bunker) : Option Nat :=
  match moment.label with
  | .call name _ _ (.store (.players (.access _))) _ => some name
  | _ => none

/-- The moment lets in the bearer of a token, for this request. -/
def accepted? (moment : Moment bunker) : Option (Nat × String) :=
  match moment.label with
  | .reply name (.authenticate token) _ (.ok (.caller _)) => some (name, token)
  | _ => none

/-- A signed token decodes to what it was signed with. -/
def FaithfulTokens (trace : List (Moment bunker)) : Prop :=
  ∀ signing ∈ trace, ∀ signed ∈ signed? signing, ∀ decoding ∈ trace,
    ∀ decoded ∈ decoded? decoding, decoded.1 = signed.token → decoded.2 = signed.claims

instance (trace : List (Moment bunker)) : Decidable (FaithfulTokens trace) :=
  inferInstanceAs (Decidable (∀ _ ∈ _, _))

/-- The clock never goes back. -/
def ClockForward (trace : List (Moment bunker)) : Prop :=
  ∀ moment ∈ trace, moment.before.clock ≤ moment.after.clock

instance (trace : List (Moment bunker)) : Decidable (ClockForward trace) :=
  inferInstanceAs (Decidable (∀ _ ∈ _, _))

/-- A password commits in the second it is stored with. -/
def Punctual (moment : Moment bunker) : Prop :=
  ∀ write ∈ passwordWrite? moment,
    unixSeconds write.changedAt = unixSeconds moment.before.clock

instance (moment : Moment bunker) : Decidable (Punctual moment) :=
  inferInstanceAs (Decidable (∀ _ ∈ _, _))

/-- A login that signs here read the clock no later than in the second of any password that the
account got since the login read the hash. -/
def InTime (first : List (Moment bunker)) (moment : Moment bunker) : Prop :=
  ∀ signed ∈ signed? moment, signed.request.isLogin →
    ∀ other ∈ afterRead signed.name first, ∀ write ∈ passwordWrite? other,
      write.id = signed.claims.sub →
        ∀ instant ∈ signed.instants, unixSeconds instant ≤ unixSeconds other.before.clock

instance (first : List (Moment bunker)) (moment : Moment bunker) :
    Decidable (InTime first moment) :=
  inferInstanceAs (Decidable (∀ _ ∈ _, _))

/-- A token of a login that read the hash in one of these moments. -/
def Signed.IsOlder (signed : Signed) (first : List (Moment bunker)) : Prop :=
  signed.request.isLogin ∧ ∃ read ∈ first, readsHash? read = some signed.name

instance (signed : Signed) (first : List (Moment bunker)) : Decidable (signed.IsOlder first) :=
  inferInstanceAs (Decidable (_ ∧ _))

/-- The moment accepts a token, and the account was read in none of these moments. -/
def AcceptedSince (first : List (Moment bunker)) (reply : Moment bunker) (token : String) : Prop :=
  ∃ accepted ∈ accepted? reply, accepted.2 = token ∧
    ∀ earlier ∈ first, readsAccess? earlier ≠ some accepted.1

instance (first : List (Moment bunker)) (reply : Moment bunker) (token : String) :
    Decidable (AcceptedSince first reply token) :=
  inferInstanceAs (Decidable (∃ _ ∈ _, _))

/-- After a password write no token of a login that read the hash before is accepted, unless the
token carries the second of the write. -/
def Evicts (trace first : List (Moment bunker)) (moment : Moment bunker)
    (last : List (Moment bunker)) : Prop :=
  ∀ write ∈ passwordWrite? moment, ∀ signing ∈ trace, ∀ signed ∈ signed? signing,
    signed.claims.sub = write.id → signed.IsOlder first →
      ∀ reply ∈ last, AcceptedSince first reply signed.token →
        signed.claims.iat = unixSeconds moment.before.clock

instance (trace first : List (Moment bunker)) (moment : Moment bunker)
    (last : List (Moment bunker)) : Decidable (Evicts trace first moment last) :=
  inferInstanceAs (Decidable (∀ _ ∈ _, _))

theorem unixSeconds_mono {earlier later : Instant} (le : earlier ≤ later) :
    unixSeconds earlier ≤ unixSeconds later :=
  Int.ediv_le_ediv (by decide) le

section Signing

variable {signing : Moment bunker} {signed : Signed}

theorem signed?_eq_some (signs : signed? signing = some signed) :
    ∃ past, signed.instants = Past.instants past ∧
      signing.label =
        .call signed.name signed.request past (.crypto (.encode signed.claims))
          (some signed.token) := by
  simp only [signed?] at signs
  split at signs
  · rename_i label
    obtain rfl := Option.some.inj signs
    exact ⟨_, rfl, label⟩
  · cases signs

/-- A login signs the second of the one instant it read. -/
theorem login_instant {past : Past} (sound : discipline.Sound signing)
    (label : signing.label =
      .call signed.name signed.request past (.crypto (.encode signed.claims)) (some signed.token))
    (login : signed.request.isLogin) :
    ∃ instant, ⟨.now, instant⟩ ∈ past ∧ instant ∈ Past.instants past ∧
      signed.claims.iat = unixSeconds instant := by
  obtain ⟨before, _, after⟩ := signing
  subst label
  rcases sound.1 with
    ⟨handle, password, -, credentials, instant, rfl, -, iat⟩ | ⟨id, change, same, -⟩
  · exact ⟨instant, by simp, List.mem_cons_self, iat⟩
  · rw [same] at login
    cases login

/-- The instant of a login is not after its signing. -/
theorem instant_le {clock : Instant} {first last : List (Moment bunker)} {stop : Config bunker}
    (run : Run (Config.quiet (World.initial clock)) (first ++ signing :: last) stop)
    (forward : ClockForward (first ++ signing :: last)) {name : Nat} {request : Request}
    {past : Past} (caller : signing.label.caller = some (name, request, past)) {instant : Instant}
    (read : ⟨.now, instant⟩ ∈ past) : instant ≤ signing.before.clock := by
  obtain ⟨early, call, between, earlier, there, here, rfl, label, there_eq, rest, here_eq⟩ :=
    run.since caller read
  have sound := discipline.sound run call (by simp)
  have shown : instant = call.before.clock := by
    obtain ⟨before, _, after⟩ := call
    subst label
    exact sound.2.1
  have later := (clock_along rest fun moment member => forward moment (by simp [member])).1
  rw [there_eq, here_eq] at later
  rw [shown]
  exact Int.le_trans (forward call (by simp)) later

end Signing

section Write

variable {clock : Instant} {first last : List (Moment bunker)} {moment : Moment bunker}
  {stop : Config bunker} {write : PasswordWrite}

/-- A token of a login that read the hash before a password write carries no later second. -/
theorem iat_le_write
    (run : Run (Config.quiet (World.initial clock)) (first ++ moment :: last) stop)
    (forward : ClockForward (first ++ moment :: last))
    (written : passwordWrite? moment = some write)
    (in_time : ∀ front signing back, first ++ moment :: last = front ++ signing :: back →
      InTime front signing)
    {signing : Moment bunker} {signed : Signed} (member : signing ∈ first ++ moment :: last)
    (signs : signed? signing = some signed) (own : signed.claims.sub = write.id)
    (older : signed.IsOlder first) : signed.claims.iat ≤ unixSeconds moment.before.clock := by
  obtain ⟨past, instants, label⟩ := signed?_eq_some signs
  obtain ⟨login, read, read_mem, reads⟩ := older
  obtain ⟨instant, entry, among, iat⟩ :=
    login_instant (discipline.sound run signing member) label login
  rw [iat]
  rcases List.mem_append.mp member with before | at_or_after
  · -- The login signed before the write: the clock does the rest.
    have later := clock_le run (fun other other_mem => forward other (by simp [other_mem])) before
    obtain ⟨early, between, rfl⟩ := List.append_of_mem before
    rw [List.append_assoc, List.cons_append] at run forward
    have taken := instant_le run forward (congrArg Label.caller label) entry
    exact unixSeconds_mono (Int.le_trans taken later)
  · rcases List.mem_cons.mp at_or_after with rfl | after
    · simp only [passwordWrite?, label, reduceCtorEq] at written
    · -- The write passed the login, which was in time.
      obtain ⟨between, rest, rfl⟩ := List.append_of_mem after
      obtain ⟨early, since, rfl⟩ := List.append_of_mem read_mem
      have passed : moment ∈
          afterRead signed.name ((early ++ read :: since) ++ moment :: between) := by
        rw [List.append_assoc, List.cons_append]
        exact mem_afterRead reads (by simp)
      exact in_time _ signing rest (by simp) signed signs login moment passed write written
        own.symm instant (instants ▸ among)

/-- What an account shows after a password write is no earlier than the second of the write. -/
theorem write_le_access {call : Moment bunker} {rest : List (Moment bunker)}
    (run : Run (Config.quiet (World.initial clock)) (first ++ moment :: (last ++ call :: rest))
      stop)
    (forward : ClockForward (first ++ moment :: (last ++ call :: rest)))
    (written : passwordWrite? moment = some write)
    (punctual : ∀ other ∈ first ++ moment :: (last ++ call :: rest), Punctual other)
    {name : Nat} {request : Request} {past : Past} {access : StoredAccess}
    (label : call.label =
      .call name request past (.store (.players (.access write.id))) (.ok (some access))) :
    unixSeconds moment.before.clock ≤ access.credentialsChangedAt := by
  have sound := discipline.sound run
  have registered := (registered_along run).2
  obtain ⟨_, there, -, step, onward⟩ := run.at_moment
  obtain ⟨here, _, between, next, -⟩ := onward.at_moment
  obtain ⟨-, row, row_mem, row_id, changed⟩ :=
    (Stored.of_ok (sound call (by simp)) label).access
  obtain ⟨past, -, set⟩ := passwordWrite?_eq_some written
  have stored := Stored.of_ok (sound moment (by simp)) set
  have second := punctual moment (by simp) write written
  have since : there.state.clock = moment.before.clock := by
    rw [← step.after_eq, stored.clock]
  have along := clock_along between fun other member => forward other (by simp [member])
  let accepted : PlayerRow → Prop := fun row =>
    unixSeconds moment.before.clock ≤ row.credentialsChangedAt
  have respects : ∀ old row, PlayerRow.SameCredentials old row → accepted old → accepted row :=
    fun old row same before => le_of_le_of_eq before same.changedAt.symm
  have wrote : ∀ other ∈ last, ∀ later, passwordWrite? other = some later →
      later.id = write.id → ∀ row, later.Wrote row → accepted row := by
    intro other member later later_written _ row row_written
    have there_le := along.2 other member
    rw [since] at there_le
    calc
      unixSeconds moment.before.clock ≤ unixSeconds other.before.clock := unixSeconds_mono there_le
      _ = unixSeconds later.changedAt :=
          (punctual other (by simp [member]) later later_written).symm
      _ = row.credentialsChangedAt := row_written.changedAt.symm
  rw [changed]
  rw [next.before_eq] at row_mem
  rcases setPassword_cases stored.called with ⟨-, ⟨old, old_mem, old_id⟩, after_eq⟩ | ⟨-, refused⟩
  · refine credentials_along respects between (fun other member => sound other (by simp [member]))
      wrote ?_ ?_ row row_mem row_id
    · rw [← step.after_eq, stored.used]
      have known := (registered moment (by simp)).1.generated old old_mem
      exact List.mem_append_left _ (old_id ▸ known)
    · intro row row_mem row_id
      rw [← step.after_eq, after_eq] at row_mem
      obtain ⟨origin, origin_mem, rfl⟩ := List.mem_map.mp row_mem
      have origin_id : origin.id = write.id := by
        by_contra other
        rw [if_neg other] at row_id
        exact other row_id
      rw [if_pos origin_id]
      exact second.ge
  · exact absurd rfl refused

/-- What accepts a token decoded it and found the account no younger than the token. -/
theorem accepted?_eq_some {reply : Moment bunker} {accepted : Nat × String}
    (sound : discipline.Sound reply) (accepts : accepted? reply = some accepted) :
    ∃ request past claims access,
      reply.label.caller = some (accepted.1, request, past) ∧
        past =
          [⟨.crypto (.decode accepted.2), some claims⟩,
            ⟨.store (.players (.access claims.sub)), .ok (some access)⟩] ∧
        access.credentialsChangedAt ≤ claims.iat := by
  obtain ⟨before, label, after⟩ := reply
  simp only [accepted?] at accepts
  split at accepts
  · obtain rfl := Option.some.inj accepts
    obtain ⟨-, claims, access, past_eq, since, -⟩ := sound
    exact ⟨_, _, claims, access, rfl, past_eq, since⟩
  · cases accepts

/-- A password write evicts the tokens of older logins, if every password commits in the second it
is stored with and every login is in time. -/
theorem evicts_of_inTime
    (run : Run (Config.quiet (World.initial clock)) (first ++ moment :: last) stop)
    (forward : ClockForward (first ++ moment :: last))
    (faithful : FaithfulTokens (first ++ moment :: last))
    (punctual : ∀ other ∈ first ++ moment :: last, Punctual other)
    (in_time : ∀ front signing back, first ++ moment :: last = front ++ signing :: back →
      InTime front signing) : Evicts (first ++ moment :: last) first moment last := by
  rintro write written signing signing_mem signed signs own older reply reply_mem
    ⟨⟨name, token⟩, accepts, same_token, unread⟩
  have sound := discipline.sound run
  obtain ⟨request, past, claims, access, caller, past_eq, since⟩ :=
    accepted?_eq_some (sound reply (by simp [reply_mem])) accepts
  obtain ⟨until_reply, rest, rfl⟩ := List.append_of_mem reply_mem
  have run_reply : Run (Config.quiet (World.initial clock))
      ((first ++ moment :: until_reply) ++ reply :: rest) stop := by
    rw [List.append_assoc, List.cons_append]
    exact run
  have called := run_reply.called_before caller
  have decoded : claims = signed.claims := by
    obtain ⟨call, call_mem, earlier, label⟩ :=
      called ⟨.crypto (.decode token), some claims⟩ (by simp [past_eq])
    have there : call ∈ first ++ moment :: (until_reply ++ reply :: rest) := by
      rw [← List.cons_append, ← List.append_assoc]
      exact List.mem_append_left _ call_mem
    refine faithful signing signing_mem signed signs call there (token, claims) ?_ same_token
    simp only [decoded?, label, Option.mem_def]
  rw [decoded, own] at past_eq
  obtain ⟨call, call_mem, earlier, label⟩ :=
    called ⟨.store (.players (.access write.id)), .ok (some access)⟩ (by simp [past_eq])
  have reads : readsAccess? call = some name := by simp only [readsAccess?, label]
  have shown : unixSeconds moment.before.clock ≤ access.credentialsChangedAt := by
    rcases List.mem_append.mp call_mem with before | at_or_after
    · exact absurd reads (unread call before)
    · rcases List.mem_cons.mp at_or_after with rfl | after
      · simp only [passwordWrite?, label, Option.mem_def, reduceCtorEq] at written
      · obtain ⟨between, back, rfl⟩ := List.append_of_mem after
        rw [List.append_assoc, List.cons_append] at run forward punctual
        exact write_le_access run forward written punctual label
  have iat_le := iat_le_write run forward written in_time signing_mem signs own older
  rw [decoded] at since
  exact Int.le_antisymm iat_le (Int.le_trans shown since)

end Write

/-- With a clock that never goes back and tokens that decode to what was signed: in a run where
every password commits in the second it is stored with and no login reads the clock in a later
second than a password its account got since the login read the hash, every password write evicts
the tokens of older logins, but for those of its own second. -/
theorem change_evicts {clock : Instant} {trace : List (Moment bunker)} {stop : Config bunker}
    (run : Run (Config.quiet (World.initial clock)) trace stop) (forward : ClockForward trace)
    (faithful : FaithfulTokens trace) (punctual : ∀ moment ∈ trace, Punctual moment)
    (in_time : ∀ first signing last, trace = first ++ signing :: last → InTime first signing) :
    ∀ first moment last, trace = first ++ moment :: last → Evicts trace first moment last := by
  rintro first moment last rfl
  exact evicts_of_inTime run forward faithful punctual in_time

namespace Safe

/-- A test of a trace around its first password write. -/
def atWrite (trace : List (Moment bunker))
    (test : List (Moment bunker) → Moment bunker → List (Moment bunker) → Bool) : Bool :=
  match trace.dropWhile fun moment => passwordWrite? moment = none with
  | [] => false
  | moment :: last => test (trace.takeWhile fun moment => passwordWrite? moment = none) moment last

theorem exists_of_atWrite {trace : List (Moment bunker)}
    {test : List (Moment bunker) → Moment bunker → List (Moment bunker) → Bool}
    (passes : atWrite trace test) :
    ∃ first moment last, trace = first ++ moment :: last ∧ test first moment last := by
  simp only [atWrite] at passes
  split at passes
  · cases passes
  · rename_i moment last found
    refine ⟨_, moment, last, ?_, passes⟩
    rw [← found, List.takeWhile_append_dropWhile]

theorem forall_cut {moments : List (Moment bunker)}
    {holds : List (Moment bunker) → Moment bunker → Prop}
    (every : ∀ index (here : index < moments.length), holds (moments.take index) moments[index]) :
    ∀ first moment last, moments = first ++ moment :: last → holds first moment := by
  rintro first moment last rfl
  simpa using every first.length (by simp)

/-- A login and a change in one second, and then the token of the login. -/
def together : List bunkerScript.Command :=
  joined ++ [.drift { clock := 1000000000 }] ++ alone 5 (.login handle (password 'a')) 0 ++
    alone 8 (change (password 'a')) 0 ++ alone 3 (.authenticate "ps") 0

/-- A reset passes a login, which takes its instant a second later. -/
def passed : List bunkerScript.Command :=
  joined ++ bunkerScript.alone 0 1 (.login handle (password 'a')) {} ++
    bunkerScript.alone 1 5 (.resetPassword ⟨1⟩) {} ++
    .drift { clock := 1000000000 } :: List.replicate 4 (.advance 0 {}) ++
    alone 3 (.authenticate "ps") 0

end Safe

set_option maxRecDepth 10000 in
/-- After a change the token of a login from before is accepted, as it carries the same second. -/
theorem change_evicts_together :
    ∃ trace stop, Run Cup.start trace stop ∧ ∃ first moment last,
      trace = first ++ moment :: last ∧ Evicts trace first moment last ∧
        ∃ signing ∈ first, ∃ signed ∈ signed? signing, signed.IsOlder first ∧
          ∃ reply ∈ last, AcceptedSince first reply signed.token := by
  obtain ⟨trace, stop, run, found⟩ := bunkerScript.exists_run Cup.start Safe.together
    (fun moments _ => decide
      (ClockForward moments ∧ FaithfulTokens moments ∧ (∀ moment ∈ moments, Punctual moment) ∧
        (∀ index (here : index < moments.length), InTime (moments.take index) moments[index]) ∧
        Safe.atWrite moments fun first _ last => decide
          (∃ signing ∈ first, ∃ signed ∈ signed? signing, signed.IsOlder first ∧
            ∃ reply ∈ last, AcceptedSince first reply signed.token))) (by decide +kernel)
  obtain ⟨forward, faithful, punctual, in_time, older⟩ := of_decide_eq_true found
  obtain ⟨first, moment, last, cut, accepted⟩ := Safe.exists_of_atWrite older
  exact ⟨trace, stop, run, first, moment, last, cut,
    change_evicts run forward faithful punctual (Safe.forall_cut in_time) first moment last cut,
    of_decide_eq_true accepted⟩

set_option maxRecDepth 10000 in
/-- A login that a reset passed signs a token of a later second, and the token is accepted. -/
theorem reset_leaves_login :
    ∃ trace stop, Run Cup.start trace stop ∧ ClockForward trace ∧ FaithfulTokens trace ∧
      ∃ first moment last, trace = first ++ moment :: last ∧ ¬Evicts trace first moment last := by
  obtain ⟨trace, stop, run, found⟩ := bunkerScript.exists_run Cup.start Safe.passed
    (fun trace _ => decide (ClockForward trace ∧ FaithfulTokens trace ∧
      Safe.atWrite trace fun first moment last => decide ¬Evicts trace first moment last))
    (by decide +kernel)
  obtain ⟨forward, faithful, passed⟩ := of_decide_eq_true found
  obtain ⟨first, moment, last, cut, kept⟩ := Safe.exists_of_atWrite passed
  exact ⟨trace, stop, run, forward, faithful, first, moment, last, cut, of_decide_eq_true kept⟩

end LanBunker
