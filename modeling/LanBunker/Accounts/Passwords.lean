import LanBunker.Accounts.Credentials
import LanBunker.Tournaments.Runs

/-!
# Which password a change replaces

A change verifies the hash it read and writes later, and its write does not look at the hash again.
What it replaces is the password it verified as long as no other password of the account is set in
between.
-/

namespace LanBunker

open Interleaving PlayerStorage

/-- The account a request changes the password of, and the change. -/
def Request.change? : Request → Option (PlayerId × PasswordChange)
  | .changePassword id change => some (id, change)
  | _ => none

/-- A change overwrites the hash that its current password was verified against. -/
def PasswordWrite.Replaces (write : PasswordWrite) (db : Database) : Prop :=
  ∀ change ∈ write.request.change?, change.1 = write.id ∧
    ∃ row ∈ db.players, row.id = write.id ∧
      write.verified = [(change.2.currentPassword, row.passwordHash)]

instance (write : PasswordWrite) (db : Database) : Decidable (write.Replaces db) :=
  inferInstanceAs (Decidable (∀ _ ∈ _, _))

/-- What the moment sets, if a change sets it, replaces the password that the change verified. -/
def ReplacesVerified (moment : Moment bunker) : Prop :=
  ∀ write ∈ passwordWrite? moment, write.Replaces moment.before.db

instance (moment : Moment bunker) : Decidable (ReplacesVerified moment) :=
  inferInstanceAs (Decidable (∀ _ ∈ _, _))

/-- The mark of a reset goes with a change of the account that verified the stored password. -/
def ClearsKnown (moment : Moment bunker) : Prop :=
  ∀ old ∈ moment.before.db.players, old.mustChangePassword = true →
    ∀ row ∈ moment.after.db.players, row.id = old.id → row.mustChangePassword = false →
      ∃ write ∈ passwordWrite? moment, write.id = old.id ∧
        ∃ change ∈ write.request.change?,
          write.verified = [(change.2.currentPassword, old.passwordHash)]

instance (moment : Moment bunker) : Decidable (ClearsKnown moment) :=
  inferInstanceAs (Decidable (∀ _ ∈ _, _))

/-- No password of the account was set between the read of the hash and the moment that writes. -/
def Undisturbed (first : List (Moment bunker)) (moment : Moment bunker) : Prop :=
  ∀ write ∈ passwordWrite? moment, ∀ other ∈ afterRead write.name first,
    ∀ earlier ∈ passwordWrite? other, earlier.id ≠ write.id

instance (first : List (Moment bunker)) (moment : Moment bunker) :
    Decidable (Undisturbed first moment) :=
  inferInstanceAs (Decidable (∀ _ ∈ _, _))

section Change

variable {clock : Instant} {first last : List (Moment bunker)} {moment : Moment bunker}
  {stop : Config bunker} {write : PasswordWrite}

/-- The hash a change verified is stored at its write, if nothing set another. -/
theorem verified_along {name : Nat} {request : Request} {past : Past} {id : PlayerId}
    {credentials : Credentials}
    (run : Run (Config.quiet (World.initial clock)) (first ++ moment :: last) stop)
    (caller : moment.label.caller = some (name, request, past))
    (read : ⟨.store (.players (.credentialsById id)), .ok (some credentials)⟩ ∈ past)
    (undisturbed : ∀ other ∈ afterRead name first, ∀ earlier ∈ passwordWrite? other,
      earlier.id ≠ id) :
    ∀ row ∈ moment.before.db.players, row.id = id →
      row.passwordHash = credentials.passwordHash := by
  have sound := discipline.sound run
  have registered := (registered_along run).2
  obtain ⟨early, call, between, earlier, there, here, rfl, label, there_eq, rest, here_eq⟩ :=
    run.since caller read
  have call_mem : call ∈ (early ++ call :: between) ++ moment :: last := by simp
  have stored := Stored.of_ok (sound call call_mem) label
  obtain ⟨same, row, row_mem, rfl, rfl⟩ := stored.credentialsById
  have reads : readsHash? call = some name := by simp only [readsHash?, label]
  have known : row.id.uuid ∈ call.after.used :=
    (registered call call_mem).2.generated row (same ▸ row_mem)
  have respects : ∀ old next, PlayerRow.SameCredentials old next →
      old.passwordHash = row.passwordHash → next.passwordHash = row.passwordHash :=
    fun old next same before => same.passwordHash.trans before
  rw [← here_eq]
  apply credentials_along respects rest
  · intro other member
    exact sound other (by simp [member])
  · intro other member write written own
    exact absurd own (undisturbed other (mem_afterRead reads member) write written)
  · rwa [there_eq]
  · rw [there_eq, same]
    intro other other_mem same_id
    rw [(registered call call_mem).1.row_eq other_mem row_mem same_id]

/-- A change that nothing disturbed finds the hash it verified. -/
theorem replaces_of_undisturbed
    (run : Run (Config.quiet (World.initial clock)) (first ++ moment :: last) stop)
    (undisturbed : Undisturbed first moment) : ReplacesVerified moment := by
  intro write written
  obtain ⟨past, verified, label⟩ := passwordWrite?_eq_some written
  have sound := discipline.sound run moment (by simp)
  have stored := Stored.of_ok sound label
  rcases stored.may with ⟨change, changes, -, credentials, proven⟩ | ⟨resets, -⟩
  · rw [changes] at label
    have hash_eq := verified_along run (congrArg Label.caller label)
      (by rw [proven]; exact List.mem_cons_self) (undisturbed write written)
    rcases setPassword_cases stored.called with ⟨-, ⟨row, row_mem, row_id⟩, -⟩ | ⟨-, refused⟩
    · intro sent sent_mem
      rw [changes] at sent_mem
      obtain rfl := Option.some.inj sent_mem
      refine ⟨rfl, row, row_mem, row_id, ?_⟩
      rw [verified, proven, hash_eq row row_mem row_id]
      rfl
    · exact absurd rfl refused
  · intro sent sent_mem
    rw [resets] at sent_mem
    cases sent_mem

/-- A mark goes by a change of the account only. -/
theorem clears_of_replaces (sound : discipline.Sound moment)
    (registered : moment.before.Registered) (replaces : ReplacesVerified moment) :
    ClearsKnown moment := by
  intro old old_mem marked row row_mem same_id cleared
  obtain ⟨fresh, -, new, move⟩ := accounts_move moment sound
  rcases move.row_cases row_mem with ⟨same, same_mem, kept⟩ | generated | ⟨write, written, wrote⟩
  · obtain rfl := registered.row_eq same_mem old_mem (kept.id.symm.trans same_id)
    rw [kept.mustChange, marked] at cleared
    cases cleared
  · exact absurd (registered.generated old old_mem) (new _ (same_id ▸ generated))
  · have own : write.id = old.id := wrote.id.symm.trans same_id
    obtain ⟨past, -, label⟩ := passwordWrite?_eq_some written
    have stored := Stored.of_ok sound label
    rcases stored.may with ⟨change, changes, -, -⟩ | ⟨-, marks⟩
    · have sent : (write.id, change) ∈ write.request.change? := by
        rw [changes]
        rfl
      obtain ⟨-, found, found_mem, found_id, verified⟩ := replaces write written _ sent
      obtain rfl := registered.row_eq found_mem old_mem (found_id.trans own)
      exact ⟨write, written, own, _, sent, verified⟩
    · rw [wrote.mustChange, marks] at cleared
      cases cleared

end Change

/-- In every run, a password that is set while no other password of the account was set since its
request read the hash is the one the request verified, and a mark that goes then was cleared by
someone who knew the stored password. -/
theorem change_replaces_verified {clock : Instant} {trace : List (Moment bunker)}
    {stop : Config bunker} (run : Run (Config.quiet (World.initial clock)) trace stop) :
    ∀ first moment last, trace = first ++ moment :: last → Undisturbed first moment →
      ReplacesVerified moment ∧ ClearsKnown moment := by
  rintro first moment last rfl undisturbed
  have replaces := replaces_of_undisturbed run undisturbed
  exact ⟨replaces, clears_of_replaces (discipline.sound run moment (by simp))
    ((registered_along run).2 moment (by simp)).1 replaces⟩

namespace Safe

/-- Of one letter, eight times. -/
def password (letter : Char) : Password where
  chars := List.replicate 8 letter
  long_enough := by rw [List.length_replicate]
  short_enough := by rw [List.length_replicate]; decide

/-- The password of a reset. -/
def temporary : Password where
  chars := List.replicate 32 '0'
  long_enough := by rw [List.length_replicate]; decide
  short_enough := by rw [List.length_replicate]; decide

def handle : Handle := ⟨['a', 'd', 'a'], rfl, Nat.le_refl 3, Nat.le_add_right 3 17⟩

/-- The player 1 signs up with the password `aaaaaaaa`. -/
def joined : List bunkerScript.Command := alone 4 (.signup handle "aaaaaaaa") 1

def change (current : Password) : Request := .changePassword ⟨1⟩ ⟨current, password 'b'⟩

/-- The player changes the password that a reset set. -/
def replaced : List bunkerScript.Command :=
  joined ++ alone 5 (.resetPassword ⟨1⟩) 0 ++ alone 5 (change temporary) 0

/-- A reset passes between what a change read and what it writes. -/
def overtaken : List bunkerScript.Command :=
  joined ++ bunkerScript.alone 0 4 (change (password 'a')) {} ++
    bunkerScript.alone 1 5 (.resetPassword ⟨1⟩) {} ++ [.advance 0 {}]

end Safe

set_option maxRecDepth 10000 in
/-- The change after a reset verified the password of the reset, and clears its mark. -/
theorem change_replaces_verified_safe :
    ∃ trace stop, Run Cup.start trace stop ∧ ∃ moment, trace.getLast? = some moment ∧
      (∃ write ∈ passwordWrite? moment, write.mustChange = false) ∧
      (∃ old ∈ moment.before.db.players, old.mustChangePassword = true) ∧
      ReplacesVerified moment ∧ ClearsKnown moment := by
  obtain ⟨trace, stop, run, found⟩ := bunkerScript.exists_run Cup.start Safe.replaced
    (fun trace _ => trace.getLast?.any fun moment => decide
      (Undisturbed trace.dropLast moment ∧
        (∃ write ∈ passwordWrite? moment, write.mustChange = false) ∧
        ∃ old ∈ moment.before.db.players, old.mustChangePassword = true)) (by decide +kernel)
  obtain ⟨moment, last, tested⟩ := (Option.any_eq_true _ _).mp found
  obtain ⟨undisturbed, change, marked⟩ := of_decide_eq_true tested
  exact ⟨trace, stop, run, moment, last, change, marked, change_replaces_verified run _ _ []
    (List.dropLast_append_getLast? moment last).symm undisturbed⟩

set_option maxRecDepth 10000 in
/-- A change that a reset overtook undoes the reset and clears its mark. -/
theorem change_undoes_reset :
    ∃ trace stop, Run Cup.start trace stop ∧
      ∃ moment ∈ trace, ¬ReplacesVerified moment ∧ ¬ClearsKnown moment := by
  obtain ⟨trace, stop, run, found⟩ := bunkerScript.exists_run Cup.start Safe.overtaken
    (fun trace _ => trace.any fun moment => decide (¬ReplacesVerified moment ∧ ¬ClearsKnown moment))
    (by decide +kernel)
  obtain ⟨moment, member, undone⟩ := List.any_eq_true.mp found
  exact ⟨trace, stop, run, moment, member, of_decide_eq_true undone⟩

end LanBunker
