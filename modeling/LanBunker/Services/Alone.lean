import LanBunker.Interleaving.Alone
import LanBunker.Services.Service

/-!
# A service with no other request beside it

Every storage method runs and is never busy, identifiers are new, and only time passes between two
calls.
-/

namespace LanBunker

open Interleaving

namespace World

/-- One operation while no other request runs.  An identifier is drawn new. -/
def Performs : (op : Op) → World → op.Ans → World → Prop
  | .store op, world, answer, after => world.store op = (answer, after)
  | .now, world, answer, after => answer = world.clock ∧ after = world
  | .draw _, world, answer, after =>
      Function.Injective answer ∧ (∀ index, (answer index).uuid ∉ world.used) ∧ after = world
  | .drawCode, world, _, after => after = world
  | .shuffle entrants, world, answer, after => answer.Perm entrants ∧ after = world
  | .crypto _, world, _, after => after = world

/-- The earliest instant whose micros a column of instants takes. -/
def earliest : Instant := 1000

/-- One operation, after which the clock goes on to another instant. -/
def Undisturbed (op : Op) (world : World) (answer : op.Ans) (after : World) : Prop :=
  ∃ done clock, Performs op world answer done ∧ earliest ≤ clock ∧ after = { done with clock }

/-- A performed operation is one the system can take. -/
theorem Performs.exec {op : Op} {world after : World} {answer : op.Ans}
    (performs : Performs op world answer after)
    (fresh : ∀ storage, op = .store storage → world.IsFresh storage) :
    Exec op world answer after := by
  cases op with
  | store op => exact Or.inl ⟨fresh op rfl, performs⟩
  | now => exact performs
  | draw kind => exact performs.2.2
  | drawCode => exact performs
  | shuffle entrants => exact performs
  | crypto op => exact performs

/-- There are always identifiers left. -/
private theorem exists_fresh (used : List Nat) : ∃ first, ∀ uuid, first ≤ uuid → uuid ∉ used := by
  induction used with
  | nil => exact ⟨0, fun _ _ => by simp⟩
  | cons taken used ih =>
      obtain ⟨first, fresh⟩ := ih
      refine ⟨max first (taken + 1), fun uuid le => ?_⟩
      rw [List.mem_cons, not_or]
      exact ⟨by omega, fresh uuid (by omega)⟩

theorem exists_undisturbed (op : Op) (world : World) :
    ∃ answer after, Undisturbed op world answer after := by
  have performed : ∃ answer after, Performs op world answer after := by
    cases op with
    | store op => exact ⟨_, _, rfl⟩
    | now => exact ⟨_, _, rfl, rfl⟩
    | draw kind =>
        obtain ⟨first, fresh⟩ := exists_fresh world.used
        refine ⟨fun index => ⟨first + index⟩, _, fun left right same => ?_, fun index => ?_, rfl⟩
        · simpa using same
        · exact fresh _ (Nat.le_add_right _ _)
    | drawCode => exact ⟨⟨List.replicate 12 'a', rfl, rfl⟩, _, rfl⟩
    | shuffle entrants => exact ⟨_, _, .refl _, rfl⟩
    | crypto op =>
        cases op with
        | hash password => exact ⟨none, _, rfl⟩
        | verify password passwordHash => exact ⟨none, _, rfl⟩
        | encode claims => exact ⟨none, _, rfl⟩
        | decode token => exact ⟨none, _, rfl⟩
        | temporary => exact ⟨[], _, rfl⟩
  obtain ⟨answer, done, performs⟩ := performed
  exact ⟨answer, _, done, earliest, performs, le_rfl, rfl⟩

end World

namespace Service

variable {α β : Type}

/-- The service, on its own, answers `result` and leaves `after` behind. -/
def Answers (service : Service α) (world : World) (result : Except ServiceError α)
    (after : World) : Prop :=
  Program.Runs World.Undisturbed service world result after

/-- Every answer of the service on its own meets `post`. -/
def Settles (service : Service α) (world : World)
    (post : Except ServiceError α → World → Prop) : Prop :=
  Program.Always World.Undisturbed service world post

theorem settles_iff {service : Service α} {world : World}
    {post : Except ServiceError α → World → Prop} :
    Settles service world post ↔
      ∀ result after, service.Answers world result after → post result after :=
  Program.always_iff

/-- A service on its own always answers. -/
theorem exists_answers (service : Service α) (world : World) :
    ∃ result after, service.Answers world result after :=
  Program.exists_runs World.exists_undisturbed service world

section Rules

variable {world : World}

theorem settles_pure {value : α} {post : Except ServiceError α → World → Prop} :
    Settles (pure value : Service α) world post ↔ post (.ok value) world := Iff.rfl

theorem settles_ofExcept {result : Except ServiceError α}
    {post : Except ServiceError α → World → Prop} :
    Settles (ofExcept result) world post ↔ post result world := Iff.rfl

/-- The rule of sequence: an error goes through. -/
theorem settles_bind {service : Service α} {rest : α → Service β}
    {post : Except ServiceError β → World → Prop} :
    Settles (service >>= rest) world post ↔ Settles service world fun result middle =>
      match result with
      | .ok value => Settles (rest value) middle post
      | .error error => post (.error error) middle := by
  refine Iff.trans Program.always_bind ?_
  constructor
  · intro always
    refine Program.Always.mono always fun result middle holds => ?_
    cases result with
    | ok value => exact holds
    | error error => exact holds
  · intro always
    refine Program.Always.mono always fun result middle holds => ?_
    cases result with
    | ok value => exact holds
    | error error => exact holds

theorem settles_now {post : Except ServiceError Instant → World → Prop} :
    Settles (ask .now) world post ↔
      ∀ clock, World.earliest ≤ clock → post (.ok world.clock) { world with clock } := by
  constructor
  · intro always clock le
    exact always _ _ ⟨world, clock, ⟨rfl, rfl⟩, le, rfl⟩
  · rintro all answer after ⟨done, clock, ⟨rfl, rfl⟩, le, rfl⟩
    exact all clock le

theorem settles_draw {kind : IdKind} {post : Except ServiceError (Nat → Id kind) → World → Prop} :
    Settles (ask (.draw kind)) world post ↔ ∀ draw : Nat → Id kind, Function.Injective draw →
      (∀ index, (draw index).uuid ∉ world.used) →
        ∀ clock, World.earliest ≤ clock → post (.ok draw) { world with clock } := by
  constructor
  · intro always draw injective fresh clock le
    exact always _ _ ⟨world, clock, ⟨injective, fresh, rfl⟩, le, rfl⟩
  · rintro all answer after ⟨done, clock, ⟨injective, fresh, rfl⟩, le, rfl⟩
    exact all answer injective fresh clock le

section Stores

variable {db after : Database} {clock : Instant} {used : List Nat} {op : StorageOp}

theorem store_eq {answer : Except StorageError op.Ans}
    (called : op.method db = (answer, after)) : World.store { db, clock, used } op =
      (answer, { db := after, clock, used := used ++ op.generated }) := by
  rw [World.store, called]

theorem settles_attempt {answer : Except StorageError op.Ans}
    (called : op.method db = (answer, after))
    {post : Except ServiceError (Except StorageError op.Ans) → World → Prop} :
    Settles (attempt op) { db, clock, used } post ↔ ∀ later, World.earliest ≤ later →
      post (.ok answer) { db := after, clock := later, used := used ++ op.generated } := by
  constructor
  · intro always later le
    exact always _ _ ⟨_, later, store_eq called, le, rfl⟩
  · rintro all answer' after' ⟨done, later, performed, le, rfl⟩
    obtain ⟨rfl, rfl⟩ := Prod.mk.inj ((store_eq called).symm.trans performed)
    exact all later le

theorem settles_store {answer : Except StorageError op.Ans}
    (called : op.method db = (answer, after))
    {post : Except ServiceError op.Ans → World → Prop} :
    Settles (store op) { db, clock, used } post ↔ ∀ later, World.earliest ≤ later →
      post (answer.mapError ServiceError.ofStorage)
        { db := after, clock := later, used := used ++ op.generated } := by
  constructor
  · intro always later le
    exact always _ _ ⟨_, later, store_eq called, le, rfl⟩
  · rintro all answer' after' ⟨done, later, performed, le, rfl⟩
    obtain ⟨rfl, rfl⟩ := Prod.mk.inj ((store_eq called).symm.trans performed)
    exact all later le

/-- A method that only reads leaves the world as it is, but for the clock. -/
theorem settles_read {answer : op.Ans} (called : op.method db = (.ok answer, db))
    (none_drawn : op.generated = []) {post : Except ServiceError op.Ans → World → Prop} :
    Settles (store op) { db, clock, used } post ↔ ∀ later, World.earliest ≤ later →
      post (.ok answer) { db, clock := later, used } := by
  rw [settles_store called, none_drawn, List.append_nil]
  rfl

end Stores

theorem Settles.mono {service : Service α} {post post' : Except ServiceError α → World → Prop}
    (settles : Settles service world post)
    (weaker : ∀ result after, post result after → post' result after) :
    Settles service world post' :=
  Program.Always.mono settles weaker

end Rules
end Service
end LanBunker
