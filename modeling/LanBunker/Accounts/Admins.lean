import LanBunker.Accounts.Moves
import LanBunker.Tournaments.Runs

/-!
# The last admin

A demotion and a delete look for a second admin inside the statement that writes, so whatever runs
beside them, one admin is left.
-/

namespace LanBunker

open Interleaving PlayerStorage

/-- Somebody of the crew is an admin. -/
def Database.HasAdmin (db : Database) : Prop := ∃ row ∈ db.players, row.role = .admin

/-- This player is an admin, and nobody else is. -/
def Database.IsOnlyAdmin (db : Database) (id : PlayerId) : Prop :=
  ∃ row ∈ db.players, row.id = id ∧ row.role = .admin ∧
    ∀ other ∈ db.players, other.role = .admin → other = row

namespace Accounts

variable {used : List Nat} {db : Database} {id : PlayerId}

private theorem mem_admins {row : PlayerRow} :
    row ∈ db.players.filter (fun row => row.role = .admin) ↔
      row ∈ db.players ∧ row.role = .admin := by
  rw [List.mem_filter, decide_eq_true_eq]

private theorem adminCount_eq :
    db.adminCount = (db.players.filter fun row => row.role = .admin).length :=
  List.countP_eq_length_filter

/-- Of two admins, one is not this player. -/
theorem exists_other_admin (registered : Registered used db.players) (two : 1 < db.adminCount)
    (id : PlayerId) : ∃ row ∈ db.players, row.role = .admin ∧ row.id ≠ id := by
  by_contra nobody
  have all_id : ∀ row ∈ db.players.filter (fun row => row.role = .admin), row.id = id := by
    intro row member
    obtain ⟨there, admin⟩ := mem_admins.mp member
    by_contra other
    exact nobody ⟨row, there, admin, other⟩
  have ids : ((db.players.filter fun row => row.role = .admin).map PlayerRow.id).Nodup :=
    registered.ids.sublist (List.filter_sublist.map PlayerRow.id)
  rw [List.map_eq_replicate_iff.mpr all_id, List.nodup_replicate, ← adminCount_eq] at ids
  omega

/-- The only admin is a registered admin where no second one is counted. -/
theorem isOnlyAdmin_iff (registered : Registered used db.players) :
    db.IsOnlyAdmin id ↔
      db.hasPlayer id ∧
        ∀ row ∈ db.players, row.id = id → row.role = .admin ∧ ¬1 < db.adminCount := by
  constructor
  · rintro ⟨row, member, row_id, admin, only⟩
    refine ⟨List.any_eq_true.mpr ⟨row, member, decide_eq_true row_id⟩, ?_⟩
    intro same same_mem same_id
    obtain rfl := registered.row_eq same_mem member (same_id.trans row_id.symm)
    refine ⟨admin, fun two => ?_⟩
    obtain ⟨other, other_mem, other_admin, other_id⟩ := exists_other_admin registered two id
    rw [only other other_mem other_admin] at other_id
    exact other_id row_id
  · rintro ⟨there, all⟩
    obtain ⟨row, member, row_id⟩ := List.any_eq_true.mp there
    obtain ⟨admin, single⟩ := all row member (of_decide_eq_true row_id)
    refine ⟨row, member, of_decide_eq_true row_id, admin, fun other other_mem other_admin => ?_⟩
    have counted := mem_admins.mpr ⟨member, admin⟩
    have one : (db.players.filter fun row => row.role = .admin).length = 1 := by
      have some_admin := List.length_pos_of_mem counted
      rw [adminCount_eq] at single
      omega
    obtain ⟨only, admins_eq⟩ := List.length_eq_one_iff.mp one
    have alone := mem_admins.mpr ⟨other_mem, other_admin⟩
    rw [admins_eq, List.mem_singleton] at counted alone
    rw [alone, counted]

/-- A role change answers `lastAdmin` when it would take the role of the only admin. -/
theorem setRole_lastAdmin_iff (registered : Registered used db.players) (role : Role) :
    (setRole id role db).1 = .ok .lastAdmin ↔ role ≠ .admin ∧ db.IsOnlyAdmin id := by
  rw [isOnlyAdmin_iff registered]
  generalize called : setRole id role db = result
  obtain ⟨answer, after⟩ := result
  rcases setRole_cases called with ⟨⟨player, rfl⟩, taken, -⟩ | ⟨rfl, untouched, -⟩
  · refine iff_of_false (by simp) ?_
    rintro ⟨demoted, -, only⟩
    obtain ⟨row, member, takes⟩ := List.any_eq_true.mp taken
    obtain ⟨row_id, promoted | other | second⟩ := of_decide_eq_true takes
    · exact demoted promoted
    · exact other (only row member row_id).1
    · exact (only row member row_id).2 second
  · have stays : ∀ row ∈ db.players, row.id = id →
        role ≠ .admin ∧ row.role = .admin ∧ ¬1 < db.adminCount := by
      simpa [takesRole] using untouched
    by_cases there : db.hasPlayer id
    · obtain ⟨row, member, row_id⟩ := List.any_eq_true.mp there
      have demoted := (stays row member (of_decide_eq_true row_id)).1
      rw [if_pos there]
      exact iff_of_true rfl ⟨demoted, there, fun row member row_id => (stays row member row_id).2⟩
    · rw [if_neg there]
      exact iff_of_false (by simp) fun only => there only.2.1

/-- A delete answers `lastAdmin` when it would take the only admin. -/
theorem delete_lastAdmin_iff (registered : Registered used db.players) :
    (delete id db).1 = .ok .lastAdmin ↔ db.IsOnlyAdmin id := by
  rw [isOnlyAdmin_iff registered]
  generalize called : delete id db = result
  obtain ⟨answer, after⟩ := result
  rcases delete_cases called with ⟨rfl, taken, -⟩ | ⟨rfl, untouched, -⟩
  · refine iff_of_false (by simp) ?_
    rintro ⟨-, only⟩
    obtain ⟨row, member, takes⟩ := List.any_eq_true.mp taken
    obtain ⟨row_id, other | second⟩ := of_decide_eq_true takes
    · exact other (only row member row_id).1
    · exact (only row member row_id).2 second
  · have stays : ∀ row ∈ db.players, row.id = id → row.role = .admin ∧ ¬1 < db.adminCount := by
      simpa [takesLeave] using untouched
    by_cases there : db.hasPlayer id
    · rw [if_pos there]
      exact iff_of_true rfl ⟨there, stays⟩
    · rw [if_neg there]
      exact iff_of_false (by simp) fun only => there only.1

/-! ## One step, and every run -/

section Move

variable {label : Label bunker} {fresh : List Nat} {after : List PlayerRow}

/-- An admin that a statement passes over stays one.  It passes over the last. -/
private theorem hasAdmin_of_guarded (registered : Registered used db.players)
    (someone : db.HasAdmin) {touched : PlayerRow → Bool} {id : PlayerId}
    (spares : ∀ row, touched row → row.id = id ∧ (row.role ≠ .admin ∨ 1 < db.adminCount)) :
    ∃ row ∈ db.players, row.role = .admin ∧ touched row = false := by
  obtain ⟨row, member, admin⟩ := someone
  by_cases hit : touched row
  · obtain ⟨row_id, other | second⟩ := spares row hit
    · exact absurd admin other
    · obtain ⟨other, other_mem, other_admin, other_id⟩ := exists_other_admin registered second id
      refine ⟨other, other_mem, other_admin, Bool.eq_false_iff.mpr fun other_hit => ?_⟩
      exact other_id (spares other other_hit).1
  · exact ⟨row, member, admin, Bool.eq_false_iff.mpr hit⟩

theorem Move.hasAdmin (move : Move label fresh db after)
    (registered : Registered used db.players) (someone : db.HasAdmin) :
    ∃ row ∈ after, row.role = .admin := by
  have mapped : ∀ write : PlayerRow → PlayerRow,
      (∀ row, row.role = .admin → (write row).role = .admin) →
      ∃ row ∈ db.players.map write, row.role = .admin := by
    intro write keeps
    obtain ⟨row, member, admin⟩ := someone
    exact ⟨write row, List.mem_map_of_mem member, keeps row admin⟩
  cases move with
  | stay => exact someone
  | joined player new generated =>
      obtain ⟨row, member, admin⟩ := someone
      exact ⟨row, List.mem_append_left _ member, admin⟩
  | ranked id role =>
      by_cases promoted : role = .admin
      · refine mapped _ fun row admin => ?_
        split_ifs
        · exact promoted
        · exact admin
      · obtain ⟨row, member, admin, untouched⟩ := hasAdmin_of_guarded registered someone
          fun row (takes : takesRole db id role row) =>
            ⟨(of_decide_eq_true takes).1, (of_decide_eq_true takes).2.resolve_left promoted⟩
        refine ⟨row, List.mem_map.mpr ⟨row, member, ?_⟩, admin⟩
        rw [untouched, if_neg Bool.false_ne_true]
  | promoted id =>
      refine mapped _ fun row admin => ?_
      split_ifs
      · rfl
      · exact admin
  | left id =>
      obtain ⟨row, member, admin, untouched⟩ := hasAdmin_of_guarded registered someone
        fun row (takes : takesLeave db id row) => of_decide_eq_true takes
      refine ⟨row, List.mem_filter.mpr ⟨member, ?_⟩, admin⟩
      rw [untouched, Bool.not_false]
  | secured set =>
      refine mapped _ fun row admin => ?_
      rw [secured_role]
      exact admin

end Move

end Accounts

section Run

variable {clock : Instant} {trace further : List (Moment bunker)} {middle stop : Config bunker}

/-- The crew keeps an admin.  Whatever requests run side by side, an admin in one state leaves an
admin in every later one; and a role change or a delete answers `lastAdmin` exactly when the state
its transaction sees has this player for its only admin and the request would take it. -/
theorem crew_keeps_admin (run : Run (Config.quiet (World.initial clock)) trace middle) :
    (middle.state.db.HasAdmin →
      ∀ further stop, Run middle further stop → stop.state.db.HasAdmin) ∧
    ∀ id,
      (∀ role, (setRole id role middle.state.db).1 = .ok .lastAdmin ↔
        role ≠ .admin ∧ middle.state.db.IsOnlyAdmin id) ∧
      ((delete id middle.state.db).1 = .ok .lastAdmin ↔ middle.state.db.IsOnlyAdmin id) := by
  have registered := (registered_along run).1
  refine ⟨fun someone further stop later => ?_, fun id => ⟨fun role => ?_, ?_⟩⟩
  · have sound := discipline.sound (run.trans later)
    have along := (registered_along (run.trans later)).2
    let kept : bunker.State → Prop := fun world => Database.HasAdmin world.db
    have step : ∀ moment ∈ further, kept moment.before → kept moment.after := by
      intro moment member before
      have in_run := List.mem_append_right trace member
      obtain ⟨fresh, -, -, move⟩ := accounts_move moment (sound moment in_run)
      exact move.hasAdmin (along moment in_run).1 before
    exact (later.invariant someone step).1
  · exact Accounts.setRole_lastAdmin_iff registered role
  · exact Accounts.delete_lastAdmin_iff registered

end Run

set_option maxRecDepth 10000 in
/-- Two admins demote each other at once, and one demotion is refused. -/
theorem crew_keeps_admin_pair :
    ∃ trace middle, Run Cup.start trace middle ∧ middle.state.db.adminCount = 2 ∧
      ∃ further stop, Run middle further stop ∧ stop.state.db.adminCount = 1 ∧
        stop.state.db.HasAdmin := by
  obtain ⟨trace, middle, run, found⟩ := bunkerScript.exists_run Cup.start
    (Cup.signup 'a' (by decide) 1 ++ Cup.signup 'b' (by decide) 2 ++
      [.drift { promoted := some ⟨1⟩ }, .drift { promoted := some ⟨2⟩ }])
    (fun _ middle => middle.state.db.adminCount = 2 ∧
      (bunkerScript.play middle
        [.arrive (.setRole ⟨1⟩ ⟨2⟩ .user), .arrive (.setRole ⟨2⟩ ⟨1⟩ .user), .advance 0 {},
          .advance 1 {}, .advance 1 {}]).any fun outcome =>
            decide (outcome.2.state.db.adminCount = 1)) (by decide +kernel)
  obtain ⟨two, raced⟩ := of_decide_eq_true found
  obtain ⟨⟨further, stop⟩, played, one⟩ := (Option.any_eq_true _ _).mp raced
  have later := Simulator.run_of_play played
  have someone : middle.state.db.HasAdmin := by
    obtain ⟨row, member, admin⟩ := List.countP_pos_iff.mp (two ▸ Nat.two_pos)
    exact ⟨row, member, of_decide_eq_true admin⟩
  exact ⟨trace, middle, run, two, further, stop, later, of_decide_eq_true one,
    (crew_keeps_admin run).1 someone further stop later⟩

end LanBunker
