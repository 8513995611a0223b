import LanBunker.Interleaving.Serial

/-!
# Scripts

A run on fixed requests, written as the list of its commands and played by evaluation.
-/

namespace Interleaving

/-- Operations as functions.  A choice stands for what the operation leaves open. -/
structure Simulator (sys : System) where
  Choice : Type
  perform : (op : sys.Op) → Choice → sys.State → Option (sys.Ans op × sys.State)
  exec_perform : ∀ op choice state answer after,
    perform op choice state = some (answer, after) → sys.exec op state answer after
  move : Choice → sys.State → sys.State
  drift_move : ∀ choice state, sys.drift state (move choice state)

namespace Simulator

variable {sys : System} (simulator : Simulator sys)

/-- A request arrives, the request at an index of the pool takes its next step, or the state moves
by itself. -/
inductive Command where
  | arrive (request : sys.Request)
  | advance (index : Nat) (choice : simulator.Choice)
  | drift (choice : simulator.Choice)

/-- The next step of a running request: one call, or the reply. -/
def advance (config : Config sys) (index : Nat) (choice : simulator.Choice) :
    Option (Moment sys × Config sys) :=
  match config.pool[index]? with
  | none => none
  | some ⟨name, request, past, .answer response⟩ =>
      some (⟨config.state, .reply name request past response, config.state⟩,
        { config with pool := config.pool.eraseIdx index })
  | some ⟨name, request, past, .call op next⟩ =>
      match simulator.perform op choice config.state with
      | none => none
      | some (answer, after) =>
          some (⟨config.state, .call name request past op answer, after⟩,
            { config with
              state := after
              pool := config.pool.set index
                ⟨name, request, past ++ [⟨op, answer⟩], next answer⟩ })

def obey (config : Config sys) : simulator.Command → Option (Moment sys × Config sys)
  | .arrive request =>
      some (⟨config.state, .arrive config.arrivals request, config.state⟩,
        { config with
          arrivals := config.arrivals + 1
          pool := config.pool ++ [⟨config.arrivals, request, [], sys.serve request⟩] })
  | .advance index choice => simulator.advance config index choice
  | .drift choice =>
      some (⟨config.state, .drift, simulator.move choice config.state⟩,
        { config with state := simulator.move choice config.state })

/-- The trace and the configuration after every command, if each can be obeyed. -/
def play (config : Config sys) : List simulator.Command → Option (List (Moment sys) × Config sys)
  | [] => some ([], config)
  | command :: commands =>
      match simulator.obey config command with
      | none => none
      | some (moment, next) => (play next commands).map fun (trace, stop) => (moment :: trace, stop)

/-- A request that arrives at an index of the pool and takes its next `steps` steps at once. -/
def alone (index steps : Nat) (request : sys.Request) (choice : simulator.Choice) :
    List simulator.Command :=
  .arrive request :: List.replicate steps (.advance index choice)

variable {simulator} {config stop : Config sys}

theorem step_of_obey {command : simulator.Command} {moment : Moment sys}
    (obeyed : simulator.obey config command = some (moment, stop)) : Step config moment stop := by
  cases command with
  | arrive request =>
      obtain ⟨rfl, rfl⟩ := Prod.mk.inj (Option.some.inj obeyed)
      exact .arrive config request
  | advance index choice =>
      simp only [obey, advance] at obeyed
      split at obeyed
      · cases obeyed
      · rename_i running
        obtain ⟨rfl, rfl⟩ := Prod.mk.inj (Option.some.inj obeyed)
        exact .reply running
      · rename_i running
        split at obeyed
        · cases obeyed
        · rename_i performed
          obtain ⟨rfl, rfl⟩ := Prod.mk.inj (Option.some.inj obeyed)
          exact .call running (simulator.exec_perform _ _ _ _ _ performed)
  | drift choice =>
      obtain ⟨rfl, rfl⟩ := Prod.mk.inj (Option.some.inj obeyed)
      exact .drift (simulator.drift_move choice config.state)

theorem run_of_play {commands : List simulator.Command} {trace : List (Moment sys)}
    (played : simulator.play config commands = some (trace, stop)) : Run config trace stop := by
  induction commands generalizing config trace with
  | nil =>
      obtain ⟨rfl, rfl⟩ := Prod.mk.inj (Option.some.inj played)
      exact .nil config
  | cons command commands ih =>
      simp only [play] at played
      split at played
      · cases played
      · rename_i moment next obeyed
        obtain ⟨⟨rest, last⟩, rest_played, pair_eq⟩ := Option.map_eq_some_iff.mp played
        obtain ⟨rfl, rfl⟩ := Prod.mk.inj pair_eq
        exact ((Run.nil config).snoc (step_of_obey obeyed)).trans (ih rest_played)

/-- A script whose outcome passes a test is a run whose outcome does. -/
theorem exists_run (start : Config sys) (commands : List simulator.Command)
    (test : List (Moment sys) → Config sys → Bool)
    (passes : (simulator.play start commands).any (fun outcome => test outcome.1 outcome.2)) :
    ∃ trace stop, Run start trace stop ∧ test trace stop := by
  cases played : simulator.play start commands with
  | none =>
      rw [played] at passes
      cases passes
  | some outcome =>
      rw [played, Option.any_some] at passes
      exact ⟨outcome.1, outcome.2, run_of_play played, passes⟩

/-! ## Scripts of requests one at a time -/

/-- No request of a script arrives while another runs. -/
def oneByOne (config : Config sys) : List simulator.Command → Bool
  | [] => true
  | command :: commands =>
      (match command with
        | .arrive _ => config.pool.isEmpty
        | _ => true) &&
        match simulator.obey config command with
        | none => true
        | some (_, next) => oneByOne next commands

private theorem label_of_advance {index : Nat} {choice : simulator.Choice} {moment : Moment sys}
    (advanced : simulator.advance config index choice = some (moment, stop)) {name : Nat}
    {request : sys.Request} : moment.label ≠ .arrive name request := by
  simp only [advance] at advanced
  split at advanced
  · cases advanced
  · obtain ⟨rfl, -⟩ := Prod.mk.inj (Option.some.inj advanced)
    simp
  · split at advanced
    · cases advanced
    · obtain ⟨rfl, -⟩ := Prod.mk.inj (Option.some.inj advanced)
      simp

theorem serial_of_play {commands : List simulator.Command} {trace : List (Moment sys)}
    (played : simulator.play config commands = some (trace, stop))
    (apart : simulator.oneByOne config commands) : SerialRun config trace stop := by
  induction commands generalizing config trace with
  | nil =>
      obtain ⟨rfl, rfl⟩ := Prod.mk.inj (Option.some.inj played)
      exact .nil config
  | cons command commands ih =>
      simp only [play] at played
      simp only [oneByOne, Bool.and_eq_true] at apart
      obtain ⟨first, rest⟩ := apart
      split at played
      · cases played
      · rename_i moment next obeyed
        rw [obeyed] at rest
        obtain ⟨⟨further, last⟩, further_played, pair_eq⟩ := Option.map_eq_some_iff.mp played
        obtain ⟨rfl, rfl⟩ := Prod.mk.inj pair_eq
        refine ((SerialRun.nil config).snoc (step_of_obey obeyed) ?_).trans (ih further_played rest)
        intro name request label
        cases command with
        | arrive request => exact List.isEmpty_iff.mp first
        | advance index choice => exact absurd label (label_of_advance obeyed)
        | drift choice =>
            obtain ⟨rfl, -⟩ := Prod.mk.inj (Option.some.inj obeyed)
            cases label

/-- A script of requests one at a time whose outcome passes a test. -/
theorem exists_serial (start : Config sys) (commands : List simulator.Command)
    (test : List (Moment sys) → Config sys → Bool) (apart : simulator.oneByOne start commands)
    (passes : (simulator.play start commands).any (fun outcome => test outcome.1 outcome.2)) :
    ∃ trace stop, SerialRun start trace stop ∧ test trace stop := by
  cases played : simulator.play start commands with
  | none =>
      rw [played] at passes
      cases passes
  | some outcome =>
      rw [played, Option.any_some] at passes
      exact ⟨outcome.1, outcome.2, serial_of_play played apart, passes⟩

end Simulator
end Interleaving
