import LanBunker.Interleaving.Serial
import LanBunker.Tournaments.Capacity
import LanBunker.Tournaments.Conclusion

/-!
# A conclusion that runs alone

A change of the status writes the status and the ledger, and nothing that its conclusion was
computed from.  With no request beside it, what it read is what is stored when it writes.
-/

namespace LanBunker

open Interleaving Service TournamentService

/-! ## The calls of a status change -/

/-- A call that leaves the entrants, their accounts and the matches as they are. -/
def Op.keepsField : Op → Bool
  | .store (.tournaments (.get _)) => true
  | .store (.tournaments (.entrants _)) => true
  | .store (.tournaments (.matchesOf _)) => true
  | .store (.tournaments (.setStatus _ _ _ _ _ _ _)) => true
  | .store _ => false
  | _ => true

/-- Every call of a service keeps the field. -/
abbrev KeepsField {α : Type} (past : Past) (service : Service α) : Prop :=
  Yields (fun _ op => op.keepsField) past service fun _ _ => True

section Calls

variable {α β : Type} {past : Past}

theorem keepsField_bind {service : Service α} {rest : α → Service β}
    (first : KeepsField past service) (then_rest : ∀ value past, KeepsField past (rest value)) :
    KeepsField past (service >>= rest) :=
  yields_bind.mpr (first.mono fun value past _ => then_rest value past)

theorem keepsField_fail (error : ServiceError) : KeepsField past (fail error : Service α) :=
  yields_fail.mpr trivial

theorem keepsField_pure (value : α) : KeepsField past (pure value : Service α) :=
  yields_pure.mpr trivial

theorem keepsField_ofExcept (result : Except ServiceError α) :
    KeepsField past (ofExcept result) := yields_ofExcept.mpr fun _ _ => trivial

theorem keepsField_ask {op : Op} (keeps : op.keepsField) : KeepsField past (ask op) :=
  yields_ask.mpr ⟨keeps, fun _ => trivial⟩

theorem keepsField_store {op : StorageOp} (keeps : (Op.store op).keepsField) :
    KeepsField past (store op) :=
  yields_store.mpr ⟨keeps, fun _ => trivial⟩

theorem keepsField_load (id : TournamentId) : KeepsField past (load id) :=
  keepsField_bind (keepsField_store rfl) fun _ _ => yields_okOr.mpr fun _ _ => trivial

theorem keepsField_conclusion (id : TournamentId) (named : Option EntrantId) :
    KeepsField past (conclusion id named) := by
  refine keepsField_bind (keepsField_store rfl) fun entrants past => ?_
  refine keepsField_bind (keepsField_bind (keepsField_store rfl) fun rows past => ?_)
    fun _ past => ?_
  · exact keepsField_ofExcept _
  · exact keepsField_ofExcept _

theorem keepsField_planTransition (tournament : Tournament) (change : StatusChange) :
    KeepsField past (planTransition tournament change) := by
  have move : KeepsField past (do
      ofExcept (refuseWinner change)
      pure ((none, []) : Option EntrantId × List Award)) :=
    keepsField_bind (keepsField_ofExcept _) fun _ _ => keepsField_pure _
  simp only [planTransition]
  split
  · exact move
  · exact move
  · exact move
  · exact yields_ite.mpr ⟨fun _ => keepsField_fail _, fun _ => move⟩
  · exact keepsField_conclusion _ _
  · exact keepsField_conclusion _ _
  · exact keepsField_conclusion _ _
  · exact keepsField_fail _

theorem keepsField_changeStatus (id : TournamentId) (change : StatusChange) :
    KeepsField [] (changeStatus id change) := by
  refine keepsField_bind (keepsField_load id) fun tournament past => ?_
  refine yields_ite.mpr ⟨fun _ => keepsField_pure _, fun _ => ?_⟩
  refine keepsField_bind (keepsField_planTransition tournament change) fun plan past => ?_
  refine keepsField_bind (keepsField_ask rfl) fun now past => ?_
  refine keepsField_bind (keepsField_ask rfl) fun draw past => ?_
  refine keepsField_bind (keepsField_ask rfl) fun written past => ?_
  have moved : ∀ past, KeepsField past (statusMoved id change) := fun past =>
    keepsField_bind (keepsField_load id) fun _ _ =>
      yields_ite.mpr ⟨fun _ => keepsField_pure _, fun _ => keepsField_fail _⟩
  split
  · exact keepsField_load id
  · exact moved past
  · exact moved past
  · exact keepsField_fail _

end Calls

/-- What a change of the status may call. -/
def statusCalls : Discipline bunker where
  may request _ op := ∀ id change, request = .changeStatus id change → op.keepsField
  answers _ _ _ := True
  follows request := by
    cases request with
    | changeStatus id change =>
        have calls : (Request.changeStatus id change).serve.Follows (fun _ op => op.keepsField) []
            fun _ _ => True :=
          Program.follows_bind.mpr
            (Program.Follows.mono (keepsField_changeStatus id change) fun _ _ _ => trivial)
        exact calls.weaken fun _ _ keeps _ _ _ => keeps
    | _ =>
        refine Program.follows_of_forall (fun _ _ _ _ impossible => ?_) fun _ _ => trivial
        cases impossible

/-! ## What was read stays what is stored -/

/-- Two databases with the same entrants, accounts and matches. -/
structure SameField (db after : Database) : Prop where
  payees : ∀ id, (after.entrantsOf id).map Entrant.payee = (db.entrantsOf id).map Entrant.payee
  matches_eq : ∀ id, (after.board id).matchList = (db.board id).matchList

section SameField

variable {db after : Database} {id : TournamentId}

theorem SameField.refl (db : Database) : SameField db db := ⟨fun _ => rfl, fun _ => rfl⟩

theorem SameField.of_tables (entrants : after.tournamentEntrants = db.tournamentEntrants)
    (players : ∀ player, (after.player? player).map PlayerRow.id =
      (db.player? player).map PlayerRow.id)
    (rows : after.matchRows = db.matchRows) : SameField db after where
  payees id := by
    rw [payee_entrantsOf, payee_entrantsOf, TournamentStorage.entrantRows,
      TournamentStorage.entrantRows, entrants]
    refine List.map_congr_left fun row _ => ?_
    cases row.player with
    | none => rfl
    | some player => rw [Option.bind_some, Option.bind_some, players]
  matches_eq id := by
    rw [Board.matchList, Board.matchList, Database.board, Database.board,
      TournamentStorage.matchRowsOf, TournamentStorage.matchRowsOf, rows]

theorem isStored_of_same (same : SameField db after) {entry : Entry Op Op.Ans}
    (stored : isStored db id entry) : isStored after id entry := by
  unfold isStored at stored ⊢
  split at stored
  · rw [same.payees]
    exact stored
  · rw [same.matches_eq]
    exact stored
  · rfl

end SameField

section Step

variable {moment : Moment bunker}

theorem sameField_of_call (sound : discipline.Sound moment) {name : Nat} {request : Request}
    {past : Past} {op : Op} {answer : op.Ans}
    (label : moment.label = .call name request past op answer) (keeps : op.keepsField) :
    SameField moment.before.db moment.after.db := by
  have unchanged : moment.after.db = moment.before.db →
      SameField moment.before.db moment.after.db := fun same => same ▸ .refl _
  obtain ⟨before, _, after⟩ := moment
  subst label
  obtain ⟨-, exec⟩ := sound
  cases op with
  | store op =>
      rcases exec with ⟨-, stored⟩ | ⟨-, same⟩
      · have called := World.store_eq stored
        cases op with
        | tournaments op =>
            cases op with
            | get id => exact unchanged (congrArg Prod.snd called).symm
            | entrants id => exact unchanged (congrArg Prod.snd called).symm
            | matchesOf id => exact unchanged (congrArg Prod.snd called).symm
            | setStatus id source target winner awards instant draw =>
                rcases TournamentStorage.setStatus_cases called with ⟨-, moved⟩ | ⟨same, -⟩
                · rw [moved.paid.after_eq]
                  exact .of_tables rfl (fun _ => rfl) rfl
                · exact unchanged same
            | _ => cases keeps
        | _ => cases keeps
      · exact unchanged (congrArg World.db same)
  | now => exact unchanged (congrArg World.db exec.2)
  | draw kind => exact unchanged (congrArg World.db exec)
  | drawCode => exact unchanged (congrArg World.db exec)
  | shuffle entrants => exact unchanged (congrArg World.db exec.2)
  | crypto op => exact unchanged (congrArg World.db exec)

theorem sameField_of_drift (sound : discipline.Sound moment) (label : moment.label = .drift) :
    SameField moment.before.db moment.after.db := by
  obtain ⟨before, _, after⟩ := moment
  subst label
  have drift : World.Drift before after := sound
  cases drift with
  | clock clock => exact .refl _
  | promote id =>
      refine .of_tables rfl (fun player => ?_) rfl
      rw [World.promote, Database.player?, Database.player?, List.find?_map]
      have same : (fun row : PlayerRow => decide (row.id = player)) ∘
          (fun row : PlayerRow => if row.id = id then { row with role := .admin } else row) =
          fun row => decide (row.id = player) := by
        funext row
        simp only [Function.comp_apply]
        split_ifs <;> rfl
      rw [same, Option.map_map]
      congr 1
      funext row
      simp only [Function.comp_apply]
      split_ifs <;> rfl

/-- What a call read is what is stored. -/
theorem isStored_of_call (bounded : ∀ id, (moment.before.db.board id).Bounded)
    (sound : discipline.Sound moment) {name : Nat} {request : Request} {past : Past} {op : Op}
    {answer : op.Ans} (label : moment.label = .call name request past op answer)
    (id : TournamentId) : isStored moment.before.db id ⟨op, answer⟩ := by
  unfold isStored
  split
  · rename_i read entrants same
    obtain ⟨rfl, answers⟩ := Entry.mk.inj same
    obtain rfl := eq_of_heq answers
    have answered := congrArg Prod.fst (Stored.of_ok sound label).called
    obtain ⟨listed, read_eq, perm⟩ := entrants_whole (bounded read).size
    obtain rfl := Except.ok.inj (read_eq.symm.trans answered)
    by_cases here : read = id
    · subst here
      have payees := perm.map Entrant.payee
      rw [← Database.entrantsOf] at payees
      simpa using payees
    · simp [here]
  · rename_i read rows same
    obtain ⟨rfl, answers⟩ := Entry.mk.inj same
    obtain rfl := eq_of_heq answers
    have answered := congrArg Prod.fst (Stored.of_ok sound label).called
    by_cases here : read = id
    · subst here
      simpa using matches_answer answered
    · simp [here]
  · rfl

end Step

/-- In a run of requests one at a time, every conclusion was computed from what is stored when it
commits. -/
theorem current_of_serial {clock : Instant} {trace : List (Moment bunker)} {stop : Config bunker}
    (serial : SerialRun (Config.quiet (World.initial clock)) trace stop) :
    ∀ moment ∈ trace, ∀ id named, conclusion? moment = some (id, named) → isCurrent moment := by
  have sound := discipline.sound serial.run
  let holds : bunker.Request → History bunker.Op bunker.Ans → bunker.State → Prop :=
    fun request past world => ∀ id change, request = Request.changeStatus id change →
      ∀ other, ∀ entry ∈ past, isStored (World.db world) other entry
  have calls : ∀ moment ∈ trace, ∀ name request past op answer,
      moment.label = .call name request past op answer → holds request past moment.before →
        holds request (past ++ [⟨op, answer⟩]) moment.after := by
    intro moment member name request past op answer label before id change requested other
    have keeps : Op.keepsField op := by
      have calls := statusCalls.sound serial.run moment member
      simp only [Discipline.Sound, label] at calls
      exact calls.1 id change requested
    have same := sameField_of_call (sound moment member) label keeps
    intro entry entry_mem
    rcases List.mem_append.mp entry_mem with earlier | last
    · exact isStored_of_same same (before id change requested other entry earlier)
    · obtain rfl := List.mem_singleton.mp last
      have bounded := fun id => ((bounded_along serial.run id).2 moment member).1
      exact isStored_of_same same (isStored_of_call bounded (sound moment member) label other)
  have drifts : ∀ moment ∈ trace, moment.label = .drift → ∀ request past,
      holds request past moment.before → holds request past moment.after := by
    intro moment member label request past before id change requested other entry entry_mem
    have same := sameField_of_drift (sound moment member) label
    exact isStored_of_same same (before id change requested other entry entry_mem)
  have lone : ∀ moment ∈ trace, ∀ name request past,
      moment.label.caller = some (name, request, past) → holds request past moment.before := by
    apply serial.history_invariant rfl _ calls drifts
    intro request state id change _ other entry impossible
    cases impossible
  intro moment member id named committed
  obtain ⟨name, source_id, change, past, source, winner, awards, instant, draw, -, label⟩ :=
    conclusion?_eq_some committed
  simp only [isCurrent, label, List.all_eq_true]
  exact lone moment member name _ past (congrArg Label.caller label) source_id change rfl id

end LanBunker
