import LanBunker.Accounts.Moves

/-!
# The credentials of a run

The hash of a player, the mark of a reset and the second of the last change are written by a change
or a reset of the password and by nothing else.
-/

namespace LanBunker

open Interleaving PlayerStorage

/-- A password that a request set: who it was, and the passwords it had verified by then. -/
structure PasswordWrite where
  name : Nat
  request : Request
  verified : List (Password × String)
  id : PlayerId
  passwordHash : String
  mustChange : Bool
  changedAt : Instant
  deriving DecidableEq, Repr

/-- The passwords of a history that matched, each with the hash it matched. -/
def Past.verified (past : Past) : List (Password × String) :=
  past.filterMap fun
    | ⟨.crypto (.verify password passwordHash), some true⟩ => some (password, passwordHash)
    | _ => none

/-- The password that a moment sets. -/
def passwordWrite? (moment : Moment bunker) : Option PasswordWrite :=
  match moment.label with
  | .call name request past
      (.store (.players (.setPassword id passwordHash mustChange changedAt))) (.ok true) =>
      some ⟨name, request, Past.verified past, id, passwordHash, mustChange, changedAt⟩
  | _ => none

/-- The moment reads the hash of an account, for this request. -/
def readsHash? (moment : Moment bunker) : Option Nat :=
  match moment.label with
  | .call name _ _ (.store (.players (.credentialsById _))) _ => some name
  | .call name _ _ (.store (.players (.credentialsByHandle _))) _ => some name
  | _ => none

/-- The moments after a request read a hash. -/
def afterRead (name : Nat) (moments : List (Moment bunker)) : List (Moment bunker) :=
  (moments.dropWhile fun moment => readsHash? moment ≠ some name).tail

/-- The row a password write leaves. -/
structure PasswordWrite.Wrote (write : PasswordWrite) (row : PlayerRow) : Prop where
  id : row.id = write.id
  passwordHash : row.passwordHash = write.passwordHash
  mustChange : row.mustChangePassword = write.mustChange
  changedAt : row.credentialsChangedAt = unixSeconds write.changedAt

/-- Two rows of a player between which no password was set. -/
structure PlayerRow.SameCredentials (old row : PlayerRow) : Prop where
  id : row.id = old.id
  passwordHash : row.passwordHash = old.passwordHash
  mustChange : row.mustChangePassword = old.mustChangePassword
  changedAt : row.credentialsChangedAt = old.credentialsChangedAt

section Moment

variable {moment : Moment bunker} {write : PasswordWrite}

theorem passwordWrite?_eq_some (written : passwordWrite? moment = some write) :
    ∃ past, write.verified = Past.verified past ∧
      moment.label = .call write.name write.request past
        (.store (.players (.setPassword write.id write.passwordHash write.mustChange
          write.changedAt))) (.ok true) := by
  simp only [passwordWrite?] at written
  split at written
  · rename_i label
    obtain rfl := Option.some.inj written
    exact ⟨_, rfl, label⟩
  · cases written

theorem Accounts.SetPassword.exists_write {id : PlayerId} {passwordHash : String}
    {mustChange : Bool} {changedAt : Instant}
    (set : Accounts.SetPassword moment.label id passwordHash mustChange changedAt) :
    ∃ write, passwordWrite? moment = some write ∧ write.id = id ∧
      write.passwordHash = passwordHash ∧ write.mustChange = mustChange ∧
      write.changedAt = changedAt := by
  obtain ⟨name, request, past, label⟩ := set
  refine ⟨⟨name, request, Past.verified past, id, passwordHash, mustChange, changedAt⟩, ?_, rfl,
    rfl, rfl, rfl⟩
  simp only [passwordWrite?, label]

/-- Where the credentials of a row come from: the row was there with the same, its player is new,
or the step set the password. -/
theorem Accounts.Move.row_cases {fresh : List Nat} {after : List PlayerRow}
    (move : Accounts.Move moment.label fresh moment.before.db after) {row : PlayerRow}
    (member : row ∈ after) :
    (∃ old ∈ moment.before.db.players, old.SameCredentials row) ∨ row.id.uuid ∈ fresh ∨
      ∃ write, passwordWrite? moment = some write ∧ write.Wrote row := by
  have mapped : ∀ turn : PlayerRow → PlayerRow,
      (∀ old, PlayerRow.SameCredentials old (turn old)) →
      row ∈ moment.before.db.players.map turn →
      ∃ old ∈ moment.before.db.players, old.SameCredentials row := by
    intro turn same there
    obtain ⟨old, old_mem, rfl⟩ := List.mem_map.mp there
    exact ⟨old, old_mem, same old⟩
  cases move with
  | stay => exact Or.inl ⟨row, member, rfl, rfl, rfl, rfl⟩
  | joined player new generated =>
      rcases List.mem_append.mp member with old | last
      · exact Or.inl ⟨row, old, rfl, rfl, rfl, rfl⟩
      · obtain rfl := List.mem_singleton.mp last
        exact Or.inr (Or.inl generated)
  | ranked id role =>
      refine Or.inl (mapped _ (fun old => ?_) member)
      split_ifs <;> exact ⟨rfl, rfl, rfl, rfl⟩
  | promoted id =>
      refine Or.inl (mapped _ (fun old => ?_) member)
      split_ifs <;> exact ⟨rfl, rfl, rfl, rfl⟩
  | left id => exact Or.inl ⟨row, (List.mem_filter.mp member).1, rfl, rfl, rfl, rfl⟩
  | secured set =>
      obtain ⟨write, written, rfl, rfl, rfl, rfl⟩ := Accounts.SetPassword.exists_write set
      obtain ⟨old, old_mem, rfl⟩ := List.mem_map.mp member
      by_cases own : old.id = write.id
      · rw [Accounts.secured, if_pos own]
        exact Or.inr (Or.inr ⟨write, written, own, rfl, rfl, rfl⟩)
      · rw [Accounts.secured, if_neg own]
        exact Or.inl ⟨old, old_mem, rfl, rfl, rfl, rfl⟩

end Moment

/-! ## What a request reads of an account -/

theorem Database.player?_some {db : Database} {id : PlayerId} {row : PlayerRow}
    (found : db.player? id = some row) : row ∈ db.players ∧ row.id = id := by
  have named := List.find?_some found
  exact ⟨List.mem_of_find?_eq_some found, of_decide_eq_true named⟩

section Read

variable {moment : Moment bunker} {request : Request} {past : Past} {credentials : Credentials}

theorem Stored.credentialsById {id : PlayerId}
    (stored : Stored moment request past (.players (.credentialsById id))
      (.ok (some credentials))) :
    moment.after.db = moment.before.db ∧ ∃ row ∈ moment.before.db.players,
      row.id = id ∧ credentials = { id := row.id, passwordHash := row.passwordHash } := by
  obtain ⟨answered, same⟩ := Prod.mk.inj stored.called
  obtain ⟨row, found, rfl⟩ := Option.map_eq_some_iff.mp (Except.ok.inj answered)
  obtain ⟨member, row_id⟩ := Database.player?_some found
  exact ⟨same.symm, row, member, row_id, rfl⟩

theorem Stored.access {id : PlayerId} {access : StoredAccess}
    (stored : Stored moment request past (.players (.access id)) (.ok (some access))) :
    moment.after.db = moment.before.db ∧ ∃ row ∈ moment.before.db.players,
      row.id = id ∧ access.credentialsChangedAt = row.credentialsChangedAt := by
  obtain ⟨answered, same⟩ := Prod.mk.inj stored.called
  obtain ⟨row, found, rfl⟩ := Option.map_eq_some_iff.mp (Except.ok.inj answered)
  obtain ⟨member, row_id⟩ := Database.player?_some found
  exact ⟨same.symm, row, member, row_id, rfl⟩

/-- Every moment after one that read is a moment after the first that did. -/
theorem mem_afterRead {name : Nat} {early between : List (Moment bunker)} {read : Moment bunker}
    (reads : readsHash? read = some name) (member : moment ∈ between) :
    moment ∈ afterRead name (early ++ read :: between) :=
  Run.mem_tail_dropWhile (by simp [reads]) member

end Read

/-! ## Along a run -/

section Run

variable {there here : Config bunker} {between : List (Moment bunker)}

/-- What every password write on an account brings about, and no other step can undo, the account
keeps. -/
theorem credentials_along {id : PlayerId} {accepted : PlayerRow → Prop}
    (respects : ∀ old row, PlayerRow.SameCredentials old row → accepted old → accepted row)
    (run : Run there between here) (sound : ∀ moment ∈ between, discipline.Sound moment)
    (writes : ∀ moment ∈ between, ∀ write, passwordWrite? moment = some write → write.id = id →
      ∀ row, write.Wrote row → accepted row)
    (known : id.uuid ∈ there.state.used)
    (start : ∀ row ∈ there.state.db.players, row.id = id → accepted row) :
    ∀ row ∈ here.state.db.players, row.id = id → accepted row := by
  let kept : bunker.State → Prop := fun world =>
    id.uuid ∈ World.used world ∧
      ∀ row ∈ Database.players (World.db world), row.id = id → accepted row
  have step : ∀ moment ∈ between, kept moment.before → kept moment.after := by
    rintro moment member ⟨known, before⟩
    obtain ⟨fresh, used_eq, new, move⟩ := accounts_move moment (sound moment member)
    refine ⟨?_, fun row row_mem row_id => ?_⟩
    · rw [used_eq]
      exact List.mem_append_left _ known
    · rcases move.row_cases row_mem with
        ⟨old, old_mem, same⟩ | generated | ⟨write, written, wrote⟩
      · exact respects old row same (before old old_mem (same.id.symm.trans row_id))
      · exact absurd known (new _ (row_id ▸ generated))
      · exact writes moment member write written (wrote.id.symm.trans row_id) row wrote
  have initial : kept there.state := ⟨known, start⟩
  exact (run.invariant initial step).1.2

/-- With a clock that never goes back, it shows no earlier instant than at the start. -/
theorem clock_along (run : Run there between here)
    (forward : ∀ moment ∈ between, moment.before.clock ≤ moment.after.clock) :
    there.state.clock ≤ here.state.clock ∧
      ∀ moment ∈ between, there.state.clock ≤ moment.before.clock := by
  let kept : bunker.State → Prop := fun world => there.state.clock ≤ World.clock world
  have initial : kept there.state := Int.le_refl _
  have step : ∀ moment ∈ between, kept moment.before → kept moment.after :=
    fun moment member before => Int.le_trans before (forward moment member)
  obtain ⟨last, along⟩ := run.invariant initial step
  exact ⟨last, fun moment member => (along moment member).1⟩

/-- With a clock that never goes back, it shows no earlier instant at a later moment. -/
theorem clock_le {start stop : Config bunker} {first last : List (Moment bunker)}
    {earlier moment : Moment bunker} (run : Run start (first ++ moment :: last) stop)
    (forward : ∀ moment ∈ first, moment.before.clock ≤ moment.after.clock)
    (member : earlier ∈ first) : earlier.before.clock ≤ moment.before.clock := by
  obtain ⟨early, between, rfl⟩ := List.append_of_mem member
  obtain ⟨here, _, front, step, _⟩ := run.at_moment
  obtain ⟨_, there, -, left, rest⟩ := front.at_moment
  have later := (clock_along rest fun moment member => forward moment (by simp [member])).1
  rw [← left.after_eq, ← step.before_eq] at later
  exact Int.le_trans (forward earlier (by simp)) later

end Run
end LanBunker
