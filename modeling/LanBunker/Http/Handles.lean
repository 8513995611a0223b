import LanBunker.Http.Runs
import LanBunker.Relational.Lookup

/-!
# Handles

A handle belongs to one player, whatever the case of its letters, over every run of a server.
-/

namespace LanBunker

open Interleaving PlayerStorage

namespace Accounts

/-- No two players share a handle, in any case of its letters. -/
def HandlesApart (players : List PlayerRow) : Prop :=
  (players.map fun row => row.handle.folded).Nodup

section HandlesApart

variable {players : List PlayerRow} {db after : Database} {id : PlayerId}

theorem HandlesApart.map (apart : HandlesApart players) {write : PlayerRow → PlayerRow}
    (same : ∀ row, (write row).handle = row.handle) : HandlesApart (players.map write) :=
  Relational.nodup_keys_map apart fun row => congrArg Handle.folded (same row)

theorem HandlesApart.filter (apart : HandlesApart players) (kept : PlayerRow → Bool) :
    HandlesApart (players.filter kept) :=
  Relational.nodup_keys_filter apart kept

theorem HandlesApart.concat (apart : HandlesApart players) {row : PlayerRow}
    (new : ∀ other ∈ players, other.handle.folded ≠ row.handle.folded) :
    HandlesApart (players ++ [row]) :=
  Relational.nodup_keys_concat apart new

/-- A rename writes one row, to a handle that no other row has. -/
theorem HandlesApart.withHandle (apart : HandlesApart db.players)
    (ids : (db.players.map PlayerRow.id).Nodup) {handle : Handle} (free : ¬ Holds db id handle) :
    HandlesApart (withHandle db id handle).players := by
  have pairs : db.players.Pairwise fun row other =>
      row.handle.folded ≠ other.handle.folded ∧ row.id ≠ other.id :=
    (List.pairwise_map.mp apart).and (List.pairwise_map.mp ids)
  refine List.pairwise_map.mpr (List.pairwise_map.mpr (pairs.imp_of_mem ?_))
  intro row other row_mem other_mem both
  obtain ⟨different, ids⟩ := both
  by_cases row_id : row.id = id
  · have other_id : other.id ≠ id := fun same => ids (row_id.trans same.symm)
    rw [if_pos row_id, if_neg other_id]
    exact fun same => free ⟨other, other_mem, other_id, same.symm⟩
  · by_cases other_id : other.id = id
    · rw [if_neg row_id, if_pos other_id]
      exact fun same => free ⟨row, row_mem, row_id, same⟩
    · rw [if_neg row_id, if_neg other_id]
      exact different

theorem HandlesApart.call (apart : HandlesApart db.players) (op : PlayerOp)
    {answer : Except StorageError op.Ans} (called : op.method db = (answer, after)) :
    HandlesApart after.players := by
  have unchanged : after = db → HandlesApart after.players := fun same => same ▸ apart
  cases op with
  | create player =>
      rcases create_cases called with same | ⟨-, rfl⟩
      · exact unchanged same
      · rcases create_handle called with same | new
        · exact unchanged same
        · exact apart.concat new
  | setPassword id passwordHash mustChange changedAt =>
      rcases setPassword_cases called with ⟨-, -, rfl⟩ | ⟨same, -⟩
      · exact apart.map fun row => by split_ifs <;> rfl
      · exact unchanged same
  | setRole id role =>
      rcases setRole_cases called with ⟨-, -, rfl⟩ | ⟨-, -, same⟩
      · exact apart.map fun row => by split_ifs <;> rfl
      · exact unchanged same
  | delete id =>
      rcases delete_cases called with ⟨-, -, rfl⟩ | ⟨-, -, same⟩
      · exact apart.filter _
      · exact unchanged same
  | addAdjustment adjustment =>
      rcases PointStorage.addAdjustment_cases called with same | ⟨-, rfl⟩
      · exact unchanged same
      · exact apart
  | access id => exact unchanged (congrArg Prod.snd called).symm
  | credentialsById id => exact unchanged (congrArg Prod.snd called).symm
  | credentialsByHandle handle => exact unchanged (congrArg Prod.snd called).symm
  | isThere id => exact unchanged (congrArg Prod.snd called).symm
  | list query term active order => exact unchanged (congrArg Prod.snd called).symm
  | history player query => exact unchanged (congrArg Prod.snd called).symm
  | totals player => exact unchanged (congrArg Prod.snd called).symm

end HandlesApart

end Accounts

open Accounts

theorem handlesApart_step {moment : Moment bunker} (sound : discipline.Sound moment)
    (apart : HandlesApart moment.before.db.players) : HandlesApart moment.after.db.players := by
  rcases moment_cases moment sound with
    same | ⟨clock, same⟩ | ⟨id, promoted⟩ | ⟨name, request, past, op, answer, -, stored⟩
  · rwa [same]
  · rwa [same]
  · rw [promoted]
    exact apart.map fun row => by split_ifs <;> rfl
  · have called := stored.called
    cases op with
    | tournaments op => rwa [(op.effect called).players]
    | events op => rwa [op.players_eq called]
    | players op => exact apart.call op called

theorem registered_withHandle {used : List Nat} {db : Database} {id : PlayerId} {handle : Handle}
    (registered : Registered used db.players) :
    Registered used (withHandle db id handle).players := by
  have same : ∀ row : PlayerRow, (if row.id = id then { row with handle } else row).id = row.id :=
    fun row => by split_ifs <;> rfl
  refine ⟨?_, fun row member => ?_⟩
  · rw [withHandle, List.map_map]
    simpa only [Function.comp_def, same] using registered.ids
  · obtain ⟨old, old_mem, rfl⟩ := List.mem_map.mp member
    rw [same]
    exact registered.generated old old_mem

/-- Every account has an id and a handle of its own. -/
structure World.AccountsApart (world : World) : Prop where
  registered : world.Registered
  handles : HandlesApart world.db.players

variable {secrets : Secrets}

theorem accounts_apart {clock : Instant} {trace : List (Moment (server secrets))}
    {stop : Config (server secrets)}
    (run : Run (Config.quiet (World.initial clock)) trace stop) : stop.state.AccountsApart := by
  have initial : (World.initial clock).AccountsApart := ⟨registered_nil _, List.nodup_nil⟩
  refine (server_invariant run initial ?_ ?_).1
  · intro lower sound apart
    exact ⟨registered_step sound apart.registered, handlesApart_step sound apart.handles⟩
  · intro world id handle answer db apart ran
    rcases rename_cases ran with ⟨-, -, free, rfl⟩ | ⟨-, -, -, rfl⟩ | ⟨-, -, rfl⟩
    · exact ⟨registered_withHandle apart.registered,
        apart.handles.withHandle apart.registered.ids free⟩
    · exact apart
    · exact apart

/-- In every run no two players share a handle in any case of its letters, and a lookup or a login
under a handle, however it is spelled, is that of the player who has it. -/
theorem handles_apart {clock : Instant} {trace : List (Moment (server secrets))}
    {stop : Config (server secrets)}
    (run : Run (Config.quiet (World.initial clock)) trace stop) :
    stop.state.db.players.Pairwise (fun row other =>
        row.id ≠ other.id ∧ row.handle.folded ≠ other.handle.folded) ∧
      ∀ row ∈ stop.state.db.players, ∀ handle : Handle, handle.folded = row.handle.folded →
        getByHandle handle stop.state.db =
            (.ok (some (stop.state.db.toPlayer row)), stop.state.db) ∧
          credentialsByHandle handle stop.state.db =
            (.ok (some ⟨row.id, row.passwordHash⟩), stop.state.db) := by
  obtain ⟨registered, apart⟩ := accounts_apart run
  refine ⟨(List.pairwise_map.mp registered.ids).and (List.pairwise_map.mp apart), ?_⟩
  intro row member handle spelled
  have found : stop.state.db.players.find? (fun other => other.handle.folded = handle.folded) =
      some row := by
    rw [spelled]
    exact Relational.find?_key_of_mem apart member
  exact ⟨by rw [getByHandle, Method.query, found]; rfl,
    by rw [credentialsByHandle, Method.query, found]; rfl⟩

namespace HttpRequest

/-- The player 2 asks for a handle of one letter. -/
def claim (letter : Char) (valid : [letter, letter, letter].all isHandleChar) :
    List (serverScript .letters).Command :=
  alone 4 (keyed (some "Bearer pps") (.own (.ok (.changeHandle
    ⟨[letter, letter, letter], valid, Handle.triple_long letter, Handle.triple_short letter⟩)))) 0

/-- The player 2 asks for the handle of the player 1 in capitals, and then for a free one. -/
def contested : List (serverScript .letters).Command :=
  signup 'a' rfl 1 ++ signup 'b' rfl 2 ++ claim 'A' rfl ++ claim 'c' rfl

end HttpRequest

set_option maxRecDepth 10000 in
/-- The handle in capitals is taken, the free one is not. -/
theorem handles_apart_contested :
    ∃ (trace : List (Moment (server .letters))) (stop : Config (server .letters)),
      Run (Config.quiet (World.initial 2000000000)) trace stop ∧
      (stop.state.db.players.map fun row => String.ofList row.handle.chars) = ["aaa", "ccc"] ∧
      stop.state.db.players.Pairwise fun row other =>
        row.id ≠ other.id ∧ row.handle.folded ≠ other.handle.folded := by
  obtain ⟨trace, stop, run, found⟩ := (serverScript .letters).exists_run
    (Config.quiet (World.initial 2000000000)) HttpRequest.contested
    (fun _ stop => decide ((stop.state.db.players.map fun row =>
      String.ofList row.handle.chars) = ["aaa", "ccc"])) (by decide +kernel)
  exact ⟨trace, stop, run, of_decide_eq_true found, (handles_apart run).1⟩

end LanBunker
