import LanBunker.Services.Provenance
import LanBunker.Effects.Operations

/-!
# The players of a run

Every way one step can change the players table.  Only a signup adds a row and only a delete takes
one; a role change and a promotion write the role, and a change or a reset of a password the three
columns of the credentials.
-/

namespace LanBunker

open Interleaving PlayerStorage

namespace Accounts

/-- The row of a player after a password was set. -/
def secured (id : PlayerId) (passwordHash : String) (mustChange : Bool) (changedAt : Instant)
    (row : PlayerRow) : PlayerRow :=
  if row.id = id then
    { row with
      passwordHash, mustChangePassword := mustChange
      credentialsChangedAt := unixSeconds changedAt }
  else row

/-- A password that a request set. -/
def SetPassword (label : Label bunker) (id : PlayerId) (passwordHash : String)
    (mustChange : Bool) (changedAt : Instant) : Prop :=
  ∃ name request past,
    label = .call name request past
      (.store (.players (.setPassword id passwordHash mustChange changedAt))) (.ok true)

/-- One step, from a database to the players after it. -/
inductive Move (label : Label bunker) (fresh : List Nat) (db : Database) :
    List PlayerRow → Prop where
  | stay : Move label fresh db db.players
  | joined (player : NewPlayer) (new : ∀ other ∈ db.players, other.id ≠ player.id)
      (generated : player.id.uuid ∈ fresh) :
      Move label fresh db (db.players ++ [playerRow player])
  | ranked (id : PlayerId) (role : Role) : Move label fresh db (withRole db id role).players
  | promoted (id : PlayerId) :
      Move label fresh db
        (db.players.map fun row => if row.id = id then { row with role := .admin } else row)
  | left (id : PlayerId) :
      Move label fresh db (db.players.filter fun row => !takesLeave db id row)
  | secured {id : PlayerId} {passwordHash : String} {mustChange : Bool} {changedAt : Instant}
      (set : SetPassword label id passwordHash mustChange changedAt) :
      Move label fresh db
        (db.players.map (Accounts.secured id passwordHash mustChange changedAt))

/-! ## What the players table keeps -/

/-- Every player has an id of its own, and it was generated. -/
structure Registered (used : List Nat) (players : List PlayerRow) : Prop where
  ids : (players.map PlayerRow.id).Nodup
  generated : ∀ row ∈ players, row.id.uuid ∈ used

theorem registered_nil (used : List Nat) : Registered used [] where
  ids := List.nodup_nil
  generated row member := by cases member

theorem Registered.row_eq {used : List Nat} {players : List PlayerRow}
    (registered : Registered used players) {row other : PlayerRow} (row_mem : row ∈ players)
    (other_mem : other ∈ players) (same : row.id = other.id) : row = other :=
  List.inj_on_of_nodup_map registered.ids row_mem other_mem same

@[simp]
theorem secured_id (id : PlayerId) (passwordHash : String) (mustChange : Bool)
    (changedAt : Instant) (row : PlayerRow) :
    (secured id passwordHash mustChange changedAt row).id = row.id := by
  unfold secured
  split_ifs <;> rfl

@[simp]
theorem secured_role (id : PlayerId) (passwordHash : String) (mustChange : Bool)
    (changedAt : Instant) (row : PlayerRow) :
    (secured id passwordHash mustChange changedAt row).role = row.role := by
  unfold secured
  split_ifs <;> rfl

section Move

variable {label : Label bunker} {fresh used : List Nat} {db : Database} {after : List PlayerRow}

private theorem registered_map (fresh : List Nat) {write : PlayerRow → PlayerRow}
    {players : List PlayerRow} (same : ∀ row, (write row).id = row.id)
    (registered : Registered used players) : Registered (used ++ fresh) (players.map write) where
  ids := by
    rw [List.map_map, show PlayerRow.id ∘ write = PlayerRow.id from funext same]
    exact registered.ids
  generated row member := by
    obtain ⟨old, old_mem, rfl⟩ := List.mem_map.mp member
    rw [same]
    exact List.mem_append_left _ (registered.generated old old_mem)

theorem Move.registered (move : Move label fresh db after)
    (registered : Registered used db.players) : Registered (used ++ fresh) after := by
  cases move with
  | stay =>
      have kept := registered_map fresh (fun _ => rfl) registered
      rwa [List.map_id'] at kept
  | joined player new generated =>
      refine ⟨?_, fun row member => ?_⟩
      · rw [List.map_append, List.map_singleton]
        refine List.Nodup.append registered.ids (List.nodup_singleton _) ?_
        rw [List.disjoint_singleton]
        intro taken
        obtain ⟨other, member, same⟩ := List.mem_map.mp taken
        exact new other member same
      · rcases List.mem_append.mp member with old | last
        · exact List.mem_append_left _ (registered.generated row old)
        · obtain rfl := List.mem_singleton.mp last
          exact List.mem_append_right _ generated
  | ranked id role => exact registered_map fresh (fun row => by split_ifs <;> rfl) registered
  | promoted id => exact registered_map fresh (fun row => by split_ifs <;> rfl) registered
  | left id =>
      refine ⟨registered.ids.sublist (List.filter_sublist.map _), fun row member => ?_⟩
      exact List.mem_append_left _ (registered.generated row (List.mem_filter.mp member).1)
  | secured set => exact registered_map fresh (secured_id _ _ _ _) registered

end Move

theorem Move.same {label : Label bunker} {fresh : List Nat} {db : Database}
    {after : List PlayerRow} (same : after = db.players) : Move label fresh db after :=
  same ▸ .stay

end Accounts

/-! ## Every step is a move of the players -/

section Moves

variable {db after : Database} {label : Label bunker} {fresh : List Nat}

theorem PlayerOp.accounts (op : PlayerOp) {name : Nat} {request : Request} {past : Past}
    {answer : Except StorageError op.Ans} (called : op.method db = (answer, after)) :
    Accounts.Move (.call name request past (.store (.players op)) answer) op.generated db
      after.players := by
  have unchanged : after = db →
      Accounts.Move (.call name request past (.store (.players op)) answer) op.generated db
        after.players := fun same => .same (congrArg Database.players same)
  cases op with
  | create player =>
      rcases create_cases called with same | ⟨new, rfl⟩
      · exact unchanged same
      · exact .joined player new List.mem_cons_self
  | access id => exact unchanged (congrArg Prod.snd called).symm
  | credentialsById id => exact unchanged (congrArg Prod.snd called).symm
  | credentialsByHandle handle => exact unchanged (congrArg Prod.snd called).symm
  | setPassword id passwordHash mustChange changedAt =>
      rcases setPassword_cases called with ⟨rfl, -, rfl⟩ | ⟨same, -⟩
      · exact .secured ⟨name, request, past, rfl⟩
      · exact unchanged same
  | isThere id => exact unchanged (congrArg Prod.snd called).symm
  | setRole id role =>
      rcases setRole_cases called with ⟨-, -, rfl⟩ | ⟨-, -, same⟩
      · exact .ranked id role
      · exact unchanged same
  | delete id =>
      rcases delete_cases called with ⟨-, -, rfl⟩ | ⟨-, -, same⟩
      · exact .left id
      · exact unchanged same
  | list query term active order => exact unchanged (congrArg Prod.snd called).symm
  | addAdjustment adjustment =>
      rcases PointStorage.addAdjustment_cases called with same | ⟨-, rfl⟩
      · exact unchanged same
      · exact .stay
  | history player query => exact unchanged (congrArg Prod.snd called).symm
  | totals player => exact unchanged (congrArg Prod.snd called).symm

/-- One step of a run, for the players: what it generated is new, and the players make a move. -/
theorem accounts_move (moment : Moment bunker) (sound : discipline.Sound moment) :
    ∃ fresh, moment.after.used = moment.before.used ++ fresh ∧
      (∀ uuid ∈ fresh, uuid ∉ moment.before.used) ∧
      Accounts.Move moment.label fresh moment.before.db moment.after.db.players := by
  rcases moment_cases moment sound with
    same | ⟨clock, same⟩ | ⟨id, promoted⟩ | ⟨name, request, past, op, answer, label, stored⟩
  · rw [same]
    exact ⟨[], by simp, by simp, .stay⟩
  · rw [same]
    exact ⟨[], by simp, by simp, .stay⟩
  · rw [promoted]
    exact ⟨[], by simp [World.promote], by simp, .promoted id⟩
  · refine ⟨op.generated, stored.used, stored.fresh.2, ?_⟩
    rw [label]
    have called := stored.called
    cases op with
    | tournaments op => exact .same (op.effect called).players
    | events op => exact .same (op.players_eq called)
    | players op => exact op.accounts called

end Moves

/-! ## Runs -/

namespace World

/-- The players of a world are registered under generated ids. -/
def Registered (world : World) : Prop := Accounts.Registered world.used world.db.players

end World

theorem registered_step {moment : Moment bunker} (sound : discipline.Sound moment)
    (registered : moment.before.Registered) : moment.after.Registered := by
  obtain ⟨fresh, used_eq, -, move⟩ := accounts_move moment sound
  rw [World.Registered, used_eq]
  exact move.registered registered

/-- In every run the players are registered. -/
theorem registered_along {clock : Instant} {trace : List (Moment bunker)} {stop : Config bunker}
    (run : Run (Config.quiet (World.initial clock)) trace stop) :
    stop.state.Registered ∧
      ∀ moment ∈ trace, moment.before.Registered ∧ moment.after.Registered :=
  run.invariant (Accounts.registered_nil _) fun moment member =>
    registered_step (discipline.sound run moment member)

end LanBunker
