import LanBunker.Accounts.Moves

/-!
# Entries and their accounts

An entry names a player that is there.  Only a delete of the account takes the name from an entry.
-/

namespace LanBunker

open Interleaving TournamentStorage

/-- The moment deletes an account. -/
def removesAccount (moment : Moment bunker) : Bool :=
  match moment.label with
  | .call _ _ _ (.store (.players (.delete _))) (.ok .removed) => true
  | _ => false

namespace Database

/-- Every entry with a player names one that is there. -/
def Referenced (db : Database) : Prop :=
  ∀ entry ∈ db.tournamentEntrants, ∀ player, entry.player = some player → db.hasPlayer player

/-- Every entry still has its player. -/
def Complete (db : Database) : Prop := ∀ entry ∈ db.tournamentEntrants, entry.player.isSome

end Database

/-! ## Every step -/

/-- An entry after the account of a player went. -/
def unnamed (player : PlayerId) (entry : EntrantRow) : EntrantRow :=
  if entry.player = some player then { entry with player := none } else entry

theorem PlayerOp.entries (op : PlayerOp) {db after : Database} {name : Nat} {request : Request}
    {past : Past} {answer : Except StorageError op.Ans} {moment : Moment bunker}
    (label : moment.label = .call name request past (.store (.players op)) answer)
    (called : op.method db = (answer, after)) :
    after.tournamentEntrants = db.tournamentEntrants ∧
        (∀ player, db.hasPlayer player → after.hasPlayer player) ∨
      removesAccount moment ∧ ∃ id,
        after.tournamentEntrants = db.tournamentEntrants.map (unnamed id) ∧
          ∀ player, player ≠ id → db.hasPlayer player → after.hasPlayer player := by
  have unchanged : after = db → after.tournamentEntrants = db.tournamentEntrants ∧
      ∀ player, db.hasPlayer player → after.hasPlayer player :=
    fun same => same ▸ ⟨rfl, fun _ there => there⟩
  cases op with
  | create player =>
      rcases PlayerStorage.create_cases called with same | ⟨-, rfl⟩
      · exact Or.inl (unchanged same)
      · refine Or.inl ⟨rfl, fun other there => ?_⟩
        rw [Database.hasPlayer] at there ⊢
        simp [there]
  | access id => exact Or.inl (unchanged (congrArg Prod.snd called).symm)
  | credentialsById id => exact Or.inl (unchanged (congrArg Prod.snd called).symm)
  | credentialsByHandle handle => exact Or.inl (unchanged (congrArg Prod.snd called).symm)
  | setPassword id passwordHash mustChange changedAt =>
      rcases PlayerStorage.setPassword_cases called with ⟨-, -, rfl⟩ | ⟨same, -⟩
      · refine Or.inl ⟨rfl, fun other there => ?_⟩
        rw [PlayerStorage.hasPlayer_map fun row => by split_ifs <;> rfl]
        exact there
      · exact Or.inl (unchanged same)
  | isThere id => exact Or.inl (unchanged (congrArg Prod.snd called).symm)
  | setRole id role =>
      rcases PlayerStorage.setRole_cases called with ⟨-, -, rfl⟩ | ⟨-, -, same⟩
      · refine Or.inl ⟨rfl, fun other there => ?_⟩
        rw [PlayerStorage.hasPlayer_withRole]
        exact there
      · exact Or.inl (unchanged same)
  | delete id =>
      rcases PlayerStorage.delete_cases called with ⟨rfl, -, rfl⟩ | ⟨-, -, same⟩
      · refine Or.inr ⟨by rw [removesAccount, label], id, rfl, fun player other there => ?_⟩
        obtain ⟨row, member, row_id⟩ := List.any_eq_true.mp there
        obtain rfl := of_decide_eq_true row_id
        refine List.any_eq_true.mpr ⟨row, List.mem_filter.mpr ⟨member, ?_⟩, row_id⟩
        simp [PlayerStorage.takesLeave, other]
      · exact Or.inl (unchanged same)
  | list query term active order => exact Or.inl (unchanged (congrArg Prod.snd called).symm)
  | addAdjustment adjustment =>
      rcases PointStorage.addAdjustment_cases called with same | ⟨-, rfl⟩
      · exact Or.inl (unchanged same)
      · exact Or.inl ⟨rfl, fun _ there => there⟩
  | history player query => exact Or.inl (unchanged (congrArg Prod.snd called).symm)
  | totals player => exact Or.inl (unchanged (congrArg Prod.snd called).symm)

/-- The entries and the accounts after a step: no account goes, or one goes and leaves its
entries. -/
theorem moment_entries {moment : Moment bunker} (sound : discipline.Sound moment) :
    EntriesFrom moment.before.db moment.after.db ∧
        (∀ player, moment.before.db.hasPlayer player → moment.after.db.hasPlayer player) ∨
      removesAccount moment ∧ ∃ id,
        moment.after.db.tournamentEntrants =
            moment.before.db.tournamentEntrants.map (unnamed id) ∧
          ∀ player, player ≠ id → moment.before.db.hasPlayer player →
            moment.after.db.hasPlayer player := by
  rcases moment_cases moment sound with
    same | ⟨clock, same⟩ | ⟨id, promoted⟩ | ⟨name, request, past, op, answer, label, stored⟩
  · rw [same]
    exact Or.inl ⟨.same rfl, fun _ there => there⟩
  · rw [same]
    exact Or.inl ⟨.same rfl, fun _ there => there⟩
  · rw [promoted]
    refine Or.inl ⟨.same rfl, fun player there => ?_⟩
    rw [World.promote, PlayerStorage.hasPlayer_map fun row => by split_ifs <;> rfl]
    exact there
  · have called := stored.called
    have stays : moment.after.db.players = moment.before.db.players →
        ∀ player, moment.before.db.hasPlayer player → moment.after.db.hasPlayer player := by
      intro same player there
      rw [Database.hasPlayer, same]
      exact there
    cases op with
    | tournaments op =>
        have effect := op.effect called
        exact Or.inl ⟨effect.entries, stays effect.players⟩
    | events op =>
        refine Or.inl ⟨.same ?_, stays (op.players_eq called)⟩
        rw [op.tables_eq called]
    | players op =>
        rcases op.entries label called with ⟨same, players⟩ | gone
        · exact Or.inl ⟨.same same, players⟩
        · exact Or.inr gone

section Run

variable {clock : Instant} {trace : List (Moment bunker)} {stop : Config bunker}

/-- In every run the entries name players that are there. -/
theorem referenced_along (run : Run (Config.quiet (World.initial clock)) trace stop) :
    stop.state.db.Referenced ∧
      ∀ moment ∈ trace, moment.before.db.Referenced ∧ moment.after.db.Referenced := by
  let kept : bunker.State → Prop := fun world => Database.Referenced (World.db world)
  have start : kept (World.initial clock) := fun entry member => by cases member
  apply run.invariant start
  intro moment member before entry entry_mem player named
  rcases moment_entries (discipline.sound run moment member) with
    ⟨entries, stays⟩ | ⟨-, id, entries, stays⟩
  · rcases entries entry entry_mem with ⟨old, old_mem, same⟩ | ⟨new, new_eq, there⟩
    · exact stays player (before old old_mem player (same.trans named))
    · obtain rfl := Option.some.inj (new_eq.symm.trans named)
      exact stays new there
  · rw [entries] at entry_mem
    obtain ⟨old, old_mem, rfl⟩ := List.mem_map.mp entry_mem
    rw [unnamed] at named
    split_ifs at named with gone
    exact stays player (fun same => gone (same ▸ named)) (before old old_mem player named)

/-- Where no account was deleted, every entry has its player. -/
theorem complete_along (run : Run (Config.quiet (World.initial clock)) trace stop)
    (kept : ∀ moment ∈ trace, ¬removesAccount moment) : stop.state.db.Complete := by
  let complete : bunker.State → Prop := fun world => Database.Complete (World.db world)
  have start : complete (World.initial clock) := fun entry member => by cases member
  refine (run.invariant start ?_).1
  intro moment member before entry entry_mem
  rcases moment_entries (discipline.sound run moment member) with ⟨entries, -⟩ | ⟨gone, -⟩
  · rcases entries entry entry_mem with ⟨old, old_mem, same⟩ | ⟨new, new_eq, -⟩
    · exact same ▸ before old old_mem
    · rw [new_eq]
      rfl
  · exact absurd gone (kept moment member)

end Run
end LanBunker
