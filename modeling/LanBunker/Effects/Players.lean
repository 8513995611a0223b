import LanBunker.Relational.Lookup
import LanBunker.Storage.Players
import LanBunker.Storage.Transactions

/-!
# What the account writes do
-/

namespace LanBunker

open Transaction

namespace PlayerStorage

variable {db after : Database} {id : PlayerId}

/-- The row of a new player. -/
def playerRow (player : NewPlayer) : PlayerRow :=
  { id := player.id, handle := player.handle, passwordHash := player.passwordHash
    role := .user, mustChangePassword := false, credentialsChangedAt := 0
    createdAt := toMicros player.createdAt }

theorem create_cases {player : NewPlayer} {answer : Except StorageError Created}
    (called : create player db = (answer, after)) :
    after = db ∨
      (∀ other ∈ db.players, other.id ≠ player.id) ∧
        after = { db with players := db.players ++ [playerRow player] } := by
  apply commit_effect called (Or.inl rfl)
  rw [ends_bind, ends_attempt]
  refine ⟨fun affected middle inserted => ?_, fun error _ => ?_⟩
  · simp only [insertPlayer, guarded_cons_ok, guarded_nil_ok, Except.ok.injEq, Prod.mk.injEq,
      List.all_eq_true, decide_eq_true_eq] at inserted
    obtain ⟨-, new, -, -, rfl⟩ := inserted
    rw [ends_bind, ends_read]
    split
    · rw [ends_pure]
      exact Or.inr ⟨new, rfl⟩
    · trivial
  · split <;> trivial

/-- A new player has a handle of its own, in every letter case. -/
theorem create_handle {player : NewPlayer} {answer : Except StorageError Created}
    (called : create player db = (answer, after)) :
    after = db ∨ ∀ other ∈ db.players, other.handle.folded ≠ player.handle.folded := by
  apply commit_effect called (Or.inl rfl)
  rw [ends_bind, ends_attempt]
  refine ⟨fun affected middle inserted => ?_, fun error _ => ?_⟩
  · simp only [insertPlayer, guarded_cons_ok, guarded_nil_ok, Except.ok.injEq, Prod.mk.injEq,
      List.all_eq_true, decide_eq_true_eq] at inserted
    obtain ⟨-, -, new, -, -⟩ := inserted
    rw [ends_bind, ends_read]
    split
    · rw [ends_pure]
      exact Or.inr new
    · trivial
  · split <;> trivial

/-- A signup answers the player it made, or makes none. -/
theorem create_outcome {player : NewPlayer} {answer : Except StorageError Created}
    (called : create player db = (answer, after)) :
    (∃ stored, answer = .ok (.player stored) ∧ stored.id = player.id) ∧
        (∀ other ∈ db.players, other.id ≠ player.id) ∧
        after = { db with players := db.players ++ [playerRow player] } ∨
      (∀ stored, answer ≠ .ok (.player stored)) ∧ after = db := by
  apply commit_outcome called
  rw [ends_bind, ends_attempt]
  refine ⟨fun affected middle inserted => ?_, fun error _ => ?_⟩
  · simp only [insertPlayer, guarded_cons_ok, guarded_nil_ok, Except.ok.injEq, Prod.mk.injEq,
      List.all_eq_true, decide_eq_true_eq] at inserted
    obtain ⟨-, new, -, -, rfl⟩ := inserted
    rw [ends_bind, ends_read]
    split
    · rename_i stored found
      obtain ⟨row, row_found, rfl⟩ := Option.map_eq_some_iff.mp found
      rw [ends_pure]
      exact Or.inl ⟨⟨_, rfl, (Relational.find?_key_eq_some row_found).2⟩, new, rfl⟩
    · exact Or.inr ⟨fun stored impossible => (by cases impossible), rfl⟩
  · split
    · rw [ends_rollback]
      exact Or.inr ⟨fun stored impossible => (by cases impossible), rfl⟩
    · exact Or.inr ⟨fun stored impossible => (by cases impossible), rfl⟩
    · rename_i impossible
      cases impossible

/-- A new password is written to the row of its player, if there is one. -/
theorem setPassword_cases {passwordHash : String} {mustChange : Bool} {changedAt : Instant}
    {answer : Except StorageError Bool}
    (called : setPassword id passwordHash mustChange changedAt db = (answer, after)) :
    (answer = .ok true ∧ (∃ row ∈ db.players, row.id = id) ∧
      after = { db with
        players := db.players.map fun row =>
          if row.id = id then
            { row with
              passwordHash, mustChangePassword := mustChange
              credentialsChangedAt := unixSeconds changedAt }
          else row }) ∨
      after = db ∧ answer ≠ .ok true := by
  rcases Method.single_cases called with ⟨affected, updated, rfl⟩ | ⟨rfl, error, -, rfl⟩
  · simp only [updatePassword, guarded_cons_ok, guarded_nil_ok, Except.ok.injEq, Prod.mk.injEq]
      at updated
    obtain ⟨-, rfl, rfl⟩ := updated
    by_cases there : ∃ row ∈ db.players, row.id = id
    · refine Or.inl ⟨?_, there, by simp⟩
      simpa [List.countP_pos_iff] using there
    · have nobody : ∀ row ∈ db.players, row.id ≠ id :=
        fun row member same => there ⟨row, member, same⟩
      refine Or.inr ⟨?_, ?_⟩
      · have same : db.players.map (fun row =>
            if row.id = id then
              { row with
                passwordHash, mustChangePassword := mustChange
                credentialsChangedAt := unixSeconds changedAt }
            else row) = db.players := by
          refine (List.map_congr_left fun row member => ?_).trans (List.map_id _)
          rw [if_neg (nobody row member)]
          rfl
        simp [same]
      · simpa [List.countP_eq_zero] using nobody
  · exact Or.inr ⟨rfl, by simp⟩

/-- The rows a role change touches: the player, but never the last admin. -/
def takesRole (db : Database) (id : PlayerId) (role : Role) (row : PlayerRow) : Bool :=
  decide (row.id = id ∧ (role = .admin ∨ row.role ≠ .admin ∨ 1 < db.adminCount))

theorem hasPlayer_map {write : PlayerRow → PlayerRow} (same : ∀ row, (write row).id = row.id) :
    Database.hasPlayer { db with players := db.players.map write } id = db.hasPlayer id := by
  simp [Database.hasPlayer, List.any_map, Function.comp_def, same]

theorem publicById_isSome : (publicById id db).isSome = db.hasPlayer id := by
  rw [publicById, Option.isSome_map, Database.player?, Bool.eq_iff_iff, List.find?_isSome,
    Database.hasPlayer, List.any_eq_true]

/-- The players after a role change. -/
def withRole (db : Database) (id : PlayerId) (role : Role) : Database :=
  { db with
    players := db.players.map fun row =>
      if takesRole db id role row then { row with role } else row }

theorem hasPlayer_withRole (role : Role) (player : PlayerId) :
    (withRole db id role).hasPlayer player = db.hasPlayer player :=
  hasPlayer_map fun row => by split_ifs <;> rfl

theorem updateRole_eq (role : Role) :
    updateRole id role db =
      .ok (db.players.countP (takesRole db id role), withRole db id role) := by
  simp only [updateRole, withRole, takesRole, decide_eq_true_eq]
  rfl

/-- A role change writes the role, or says why it touches no row. -/
theorem setRole_cases {role : Role} {answer : Except StorageError RoleChanged}
    (called : setRole id role db = (answer, after)) :
    (∃ player, answer = .ok (.player player)) ∧ db.players.any (takesRole db id role) ∧
        after = withRole db id role ∨
      answer = .ok (if db.hasPlayer id then .lastAdmin else .notFound) ∧
        db.players.any (takesRole db id role) = false ∧ after = db := by
  apply commit_outcome called
  rw [ends_bind, ends_execute, updateRole_eq]
  refine ⟨fun affected middle updated => ?_, fun error failed => by cases failed⟩
  obtain ⟨rfl, rfl⟩ := Prod.mk.inj (Except.ok.inj updated)
  by_cases nobody : db.players.countP (takesRole db id role) = 0
  · rw [if_pos nobody, ends_bind, ends_read, ends_rollback, hasPlayer_withRole]
    exact Or.inr ⟨rfl, by simpa using List.countP_eq_zero.mp nobody, rfl⟩
  · rw [if_neg nobody, ends_bind, ends_read, ends_pure]
    obtain ⟨row, member, taken⟩ := List.countP_pos_iff.mp (Nat.pos_of_ne_zero nobody)
    have there : db.hasPlayer id = true :=
      List.any_eq_true.mpr ⟨row, member, decide_eq_true (of_decide_eq_true taken).1⟩
    obtain ⟨player, found⟩ := Option.isSome_iff_exists.mp
      (publicById_isSome.trans ((hasPlayer_withRole role id).trans there))
    rw [found]
    exact Or.inl ⟨⟨player, rfl⟩, List.any_eq_true.mpr ⟨row, member, taken⟩, rfl⟩

/-- The players after a rename. -/
def withHandle (db : Database) (id : PlayerId) (handle : Handle) : Database :=
  { db with
    players := db.players.map fun row => if row.id = id then { row with handle } else row }

theorem hasPlayer_withHandle (handle : Handle) (player : PlayerId) :
    (withHandle db id handle).hasPlayer player = db.hasPlayer player :=
  hasPlayer_map fun row => by split_ifs <;> rfl

/-- A handle that another player holds, in any letter case. -/
def Holds (db : Database) (id : PlayerId) (handle : Handle) : Prop :=
  ∃ row ∈ db.players, row.id ≠ id ∧ row.handle.folded = handle.folded

/-- A rename writes the handle, or says why it does not. -/
theorem rename_cases {handle : Handle} {answer : Except StorageError Renamed}
    (called : rename id handle db = (answer, after)) :
    (∃ player, answer = .ok (.player player)) ∧ db.hasPlayer id ∧ ¬ Holds db id handle ∧
        after = withHandle db id handle ∨
      answer = .ok .handleTaken ∧ db.hasPlayer id ∧ Holds db id handle ∧ after = db ∨
      answer = .ok .notFound ∧ db.hasPlayer id = false ∧ after = db := by
  apply commit_outcome called
  rw [ends_bind, ends_attempt]
  refine ⟨fun affected middle updated => ?_, fun error failed => ?_⟩
  · simp only [updateHandle, guarded_cons_ok, guarded_nil_ok, Except.ok.injEq, Prod.mk.injEq]
      at updated
    obtain ⟨free, rfl, rfl⟩ := updated
    change Ends _ (withHandle db id handle) _ _
    dsimp only
    by_cases nobody : db.players.countP (fun row => row.id = id) = 0
    · rw [if_pos nobody, ends_rollback]
      have absent : db.hasPlayer id = false :=
        List.any_eq_false.mpr (List.countP_eq_zero.mp nobody)
      exact Or.inr (Or.inr ⟨rfl, absent, rfl⟩)
    · rw [if_neg nobody, ends_bind, ends_read, ends_pure]
      have there : db.hasPlayer id = true :=
        List.any_eq_true.mpr (List.countP_pos_iff.mp (Nat.pos_of_ne_zero nobody))
      obtain ⟨player, found⟩ := Option.isSome_iff_exists.mp
        (publicById_isSome.trans ((hasPlayer_withHandle handle id).trans there))
      rw [found]
      refine Or.inl ⟨⟨player, rfl⟩, there, ?_, rfl⟩
      rintro ⟨row, member, other, same⟩
      simp only [Bool.or_eq_true, Bool.not_eq_true', List.all_eq_true, decide_eq_true_eq] at free
      rcases free with absent | free
      · exact absurd there (Bool.eq_false_iff.mp absent)
      · exact (free row member).elim other (absurd same)
  · simp only [updateHandle] at failed
    obtain ⟨check, listed, refused, rfl⟩ := guarded_error failed
    obtain rfl := List.mem_singleton.mp listed
    simp only [Bool.or_eq_false_iff, Bool.not_eq_false', List.all_eq_false, decide_eq_true_eq,
      not_or, not_not] at refused
    obtain ⟨there, row, member, other, same⟩ := refused
    rw [ends_rollback]
    exact Or.inr (Or.inl ⟨rfl, there, ⟨row, member, other, same⟩, rfl⟩)

/-- The rows a delete takes: the player, but never the last admin. -/
def takesLeave (db : Database) (id : PlayerId) (row : PlayerRow) : Bool :=
  decide (row.id = id ∧ (row.role ≠ .admin ∨ 1 < db.adminCount))

/-- A delete takes the account out of every table, or says why it takes none. -/
theorem delete_cases {answer : Except StorageError Removal}
    (called : delete id db = (answer, after)) :
    answer = .ok .removed ∧ db.players.any (takesLeave db id) ∧
        after = { db with
          players := db.players.filter fun row => !takesLeave db id row
          eventCheckins := db.eventCheckins.filter fun row => row.player ≠ id
          pointEntries := (db.pointEntries.filter fun row => row.player ≠ id).map fun row =>
            if row.createdBy = some id then { row with createdBy := none } else row
          tournamentEntrants := db.tournamentEntrants.map fun row =>
            if row.player = some id then { row with player := none } else row } ∨
      answer = .ok (if db.hasPlayer id then .lastAdmin else .absent) ∧
        db.players.any (takesLeave db id) = false ∧ after = db := by
  apply commit_outcome called
  rw [ends_bind, ends_execute]
  refine ⟨fun affected middle removed => ?_, fun error failed => ?_⟩
  · simp only [deletePlayer] at removed
    split_ifs at removed with somebody
    · obtain ⟨rfl, rfl⟩ := Prod.mk.inj (Except.ok.inj removed)
      obtain ⟨row, member, gone⟩ := List.any_eq_true.mp somebody
      rw [if_pos (List.countP_pos_iff.mpr ⟨row, member, gone⟩), ends_pure]
      exact Or.inl ⟨rfl, somebody, rfl⟩
    · obtain ⟨rfl, rfl⟩ := Prod.mk.inj (Except.ok.inj removed)
      rw [if_neg (Nat.lt_irrefl 0), ends_bind, ends_read, ends_pure]
      exact Or.inr ⟨rfl, Bool.eq_false_iff.mpr somebody, rfl⟩
  · simp only [deletePlayer] at failed
    split_ifs at failed

end PlayerStorage
end LanBunker
