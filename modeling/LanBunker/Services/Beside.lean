import LanBunker.Interleaving.Beside
import LanBunker.Services.Alone

/-!
# Two services side by side

The proof rules of a service whose outcome stands whatever another request does between its calls,
as long as it keeps to a relation between the worlds before and after.
-/

namespace LanBunker

open Interleaving

namespace Service

variable {α β : Type}

/-- Two requests run side by side, with no third one beside them. -/
def Beside (first : Service α) (second : Service β) (world : World)
    (result : Except ServiceError α) (other : Except ServiceError β) (after : World) : Prop :=
  Program.Beside World.Undisturbed first second world result other after

/-- Every answer meets `post`, whatever steps of `rely` come between the calls. -/
def Stands (rely : World → World → Prop) (service : Service α) (world : World)
    (post : Except ServiceError α → World → Prop) : Prop :=
  Program.Robust World.Undisturbed rely service world post

section Rules

variable {rely : World → World → Prop} {world : World}

theorem stands_pure {value : α} {post : Except ServiceError α → World → Prop} :
    Stands rely (pure value : Service α) world post ↔
      ∀ later, rely world later → post (.ok value) later := Iff.rfl

theorem stands_fail {error : ServiceError} {post : Except ServiceError α → World → Prop} :
    Stands rely (fail error : Service α) world post ↔
      ∀ later, rely world later → post (.error error) later := Iff.rfl

theorem stands_ofExcept {result : Except ServiceError α}
    {post : Except ServiceError α → World → Prop} :
    Stands rely (ofExcept result) world post ↔
      ∀ later, rely world later → post result later := Iff.rfl

/-- The rule of sequence: an error goes through. -/
theorem stands_bind {service : Service α} {rest : α → Service β}
    {post : Except ServiceError β → World → Prop} (refl : ∀ world, rely world world)
    (stands : Stands rely service world fun result middle =>
      match result with
      | .ok value => Stands rely (rest value) middle post
      | .error error => ∀ later, rely middle later → post (.error error) later) :
    Stands rely (service >>= rest) world post := by
  refine Program.robust_bind (Program.Robust.mono stands fun result middle holds => ?_) refl
  cases result with
  | ok value => exact holds
  | error error => exact holds

theorem stands_ask {op : Op} {post : Except ServiceError op.Ans → World → Prop} :
    Stands rely (ask op) world post ↔ ∀ later, rely world later → ∀ answer after,
      World.Undisturbed op later answer after →
        rely later after ∧ ∀ last, rely after last → post (.ok answer) last := Iff.rfl

/-- A method that only reads answers what is stored then, or that it is malformed. -/
theorem stands_reading {op : StorageOp} {post : Except ServiceError op.Ans → World → Prop}
    (read : Database → Except StorageError op.Ans)
    (called : ∀ db, op.method db = (read db, db)) (none_drawn : op.generated = [])
    (ticks : ∀ (world : World) clock, World.earliest ≤ clock → rely world { world with clock })
    (trans : ∀ first second third, rely first second → rely second third → rely first third)
    (holds : ∀ later last, rely world later → rely later last →
      post ((read later.db).mapError ServiceError.ofStorage) last) :
    Stands rely (store op) world post := by
  rintro later step answer after ⟨done, clock, performed, le, rfl⟩
  have same : later.store op = (read later.db, later) := by
    rw [World.store, called, none_drawn, List.append_nil]
  obtain ⟨rfl, rfl⟩ := Prod.mk.inj (same.symm.trans performed)
  exact ⟨ticks later clock le, fun last further =>
    holds later last step (trans _ _ _ (ticks later clock le) further)⟩

theorem stands_read {op : StorageOp} {post : Except ServiceError op.Ans → World → Prop}
    (read : Database → op.Ans) (called : ∀ db, op.method db = (.ok (read db), db))
    (none_drawn : op.generated = [])
    (ticks : ∀ (world : World) clock, World.earliest ≤ clock → rely world { world with clock })
    (trans : ∀ first second third, rely first second → rely second third → rely first third)
    (holds : ∀ later last, rely world later → rely later last →
      post (.ok (read later.db)) last) : Stands rely (store op) world post :=
  stands_reading (fun db => .ok (read db)) called none_drawn ticks trans holds

theorem Stands.mono {service : Service α} {post post' : Except ServiceError α → World → Prop}
    (stands : Stands rely service world post)
    (weaker : ∀ result after, post result after → post' result after) :
    Stands rely service world post' :=
  Program.Robust.mono stands weaker

theorem Stands.reached {service : Service α} {post : Except ServiceError α → World → Prop}
    (stands : Stands rely service world post)
    (trans : ∀ first second third, rely first second → rely second third → rely first third) :
    Stands rely service world fun result after => rely world after ∧ post result after :=
  Program.Robust.reached stands trans

end Rules
end Service
end LanBunker
