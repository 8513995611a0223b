import LanBunker.Brackets.Elimination
import LanBunker.Tournaments.Refinement

/-!
# Boards along a run

Every step of every run moves every board, whatever runs beside it.  A write that was planned on
old reads is a move because the world it writes to still relies on the worlds that were read.
-/

namespace LanBunker

open Interleaving TournamentStorage

/-! ## What a run keeps -/

/-- Every board is in order. -/
def World.Good (world : World) : Prop := world.db.Good world.used

/-- What the later world still says about the boards of the earlier one. -/
def World.Relies (world later : World) : Prop :=
  world.used ⊆ later.used ∧
    ∀ id, Board.Later world.used id (world.db.board id) (later.db.board id)

/-- What holds of the boards along every run. -/
def boards : Guarantee bunker where
  holds := World.Good
  relies := World.Relies
  refl _ := ⟨List.Subset.refl _, fun _ => .refl _ _ _⟩
  trans early late :=
    ⟨List.Subset.trans early.1 late.1, fun id => (early.2 id).trans early.1 (late.2 id)⟩

theorem good_initial (clock : Instant) : (World.initial clock).Good where
  tournaments := List.nodup_nil
  entrants := List.nodup_nil
  boards id := Board.ok_empty [] id

/-! ## What a request has read -/

section Reads

variable {guarantee : Guarantee bunker} {past : Past} {world : World} {id : TournamentId}

/-- An answered read in a history: the world that gave the answer. -/
theorem Past.Read.seen {op : StorageOp} {answer : op.Ans} (read : past.Read op answer)
    (lived : guarantee.Lived past world) :
    ∃ earlier : World, guarantee.holds earlier ∧ (op.method earlier.db).1 = .ok answer ∧
      guarantee.relies earlier world := by
  obtain ⟨before, after, holds, exec, -, step, rest⟩ := lived.seen _ read
  rcases exec with ⟨-, stored⟩ | ⟨busy, -⟩
  · exact ⟨before, holds, congrArg Prod.fst stored, guarantee.trans step rest⟩
  · cases busy

/-- A tournament that was read. -/
theorem get_answer {db : Database} {tournament : Tournament}
    (answered : ((TournamentStorage.get id) db).1 = .ok (some tournament)) :
    ∃ row, (db.board id).row = some row ∧ tournament = tournamentOf db row ∧ row.id = id := by
  obtain ⟨row, found, -, rfl⟩ := get_eq_ok.mp answered
  exact ⟨row, found, rfl, (tournament?_eq_some found).2⟩

theorem Past.Read.tournament_id {tournament : Tournament}
    (read : past.Read (.tournaments (.get id)) (some tournament))
    (lived : guarantee.Lived past world) : tournament.id = id := by
  obtain ⟨earlier, -, answered, -⟩ := read.seen lived
  obtain ⟨row, -, rfl, row_id⟩ := get_answer answered
  exact row_id

/-- The entrants that were read: entrants of the board, each once. -/
theorem entrants_answer {used : List Nat} {db : Database} (good : db.Good used)
    {entrants : List Entrant} (answered : ((TournamentStorage.entrants id) db).1 = .ok entrants) :
    (entrants.map Entrant.id).Nodup ∧ ∀ entrant ∈ entrants, (db.board id).Seats entrant.id := by
  obtain rfl := Except.ok.inj answered
  have listed := List.take_sublist readLimit
    ((entrantRows id db).insertionSort fun left right => entrantOrder left right)
  have sorted := List.perm_insertionSort (fun left right => entrantOrder left right)
    (entrantRows id db)
  constructor
  · have ids : (((entrantRows id db).insertionSort fun left right =>
        entrantOrder left right).map EntrantRow.id).Nodup :=
      (sorted.map EntrantRow.id).nodup_iff.mpr
        (List.Nodup.sublist (List.filter_sublist.map EntrantRow.id) good.entrants)
    rw [List.map_map]
    exact ids.sublist (listed.map EntrantRow.id)
  · intro entrant member
    obtain ⟨row, row_mem, rfl⟩ := List.mem_map.mp member
    exact ⟨row, sorted.subset (listed.subset row_mem), rfl⟩

/-- The matches that were read are those of the board. -/
theorem matches_answer {db : Database} {rows : List Match}
    (answered : ((TournamentStorage.matchesOf id) db).1 = .ok rows) :
    rows = (db.board id).matchList := (Except.ok.inj answered).symm

/-- An entrant that was seated on an earlier board, and is stored now, sits where it sat. -/
theorem seats_of_there {earlier : World} (earlier_good : earlier.Good)
    (relies : earlier.Relies world) {entrant : EntrantId}
    (seated : (earlier.db.board id).Seats entrant)
    (there : world.db.tournamentEntrants.any fun row => row.id = entrant) :
    (world.db.board id).Seats entrant := by
  obtain ⟨row, row_mem, row_id⟩ := List.any_eq_true.mp there
  obtain rfl := of_decide_eq_true row_id
  refine ⟨row, List.mem_filter.mpr ⟨row_mem, ?_⟩, rfl⟩
  -- The entrant was generated by then, so it was on the earlier board of its tournament.
  obtain ⟨old, old_mem, old_id⟩ := seated
  have known : row.id.uuid ∈ earlier.used :=
    old_id ▸ (earlier_good.boards id).entrants_used old old_mem
  have on_board : row ∈ (world.db.board row.tournament).entrants :=
    List.mem_filter.mpr ⟨row_mem, decide_eq_true rfl⟩
  obtain ⟨other, other_mem, other_id⟩ := (relies.2 row.tournament).entrants row on_board known
  obtain ⟨old_there, old_here⟩ := List.mem_filter.mp old_mem
  obtain ⟨other_there, other_here⟩ := List.mem_filter.mp other_mem
  obtain rfl := List.inj_on_of_nodup_map earlier_good.entrants other_there old_there
    (other_id.trans old_id.symm)
  rw [← of_decide_eq_true other_here]
  exact old_here

end Reads

/-! ## The plan of a conclusion -/

/-- The champion of a bracket was drawn into it. -/
theorem Bracket.Drawn.champion_mem {order : List EntrantId} {bracket : Bracket}
    (drawn : bracket.Drawn order) {champion : EntrantId}
    (crowned : bracket.champion = some champion) : champion ∈ order := by
  have perm := drawn.coherent.losers_perm crowned
  exact perm.subset (by simp)

/-- What a conclusion was computed from. -/
theorem concluded_ok {id : TournamentId} {entrants : List Entrant} {bracket : Option Bracket}
    {named winner : Option EntrantId} {awards : List Award}
    (computed : concluded id entrants bracket named = .ok (winner, awards)) :
    awards = tournamentAwards id entrants bracket named ∧
      ((∃ drawn, bracket = some drawn ∧ named = none ∧ winner.isSome ∧ drawn.champion = winner) ∨
        bracket = none ∧ winner = named ∧
          ∀ entrant, winner = some entrant → ∃ e ∈ entrants, e.id = entrant) := by
  cases bracket with
  | some drawn =>
      simp only [concluded] at computed
      split_ifs at computed with somebody
      obtain rfl := Option.not_isSome_iff_eq_none.mp somebody
      cases crowned : drawn.champion with
      | none => simp [crowned] at computed
      | some champion =>
          simp only [crowned, Except.ok.injEq, Prod.mk.injEq] at computed
          obtain ⟨rfl, rfl⟩ := computed
          exact ⟨rfl, Or.inl ⟨drawn, rfl, rfl, rfl, crowned⟩⟩
  | none =>
      cases named with
      | none =>
          obtain ⟨rfl, rfl⟩ := Prod.mk.inj (Except.ok.inj computed)
          exact ⟨rfl, Or.inr ⟨rfl, rfl, by simp⟩⟩
      | some champion =>
          simp only [concluded] at computed
          split_ifs at computed with listed
          obtain ⟨rfl, rfl⟩ := Prod.mk.inj (Except.ok.inj computed)
          refine ⟨rfl, Or.inr ⟨rfl, rfl, ?_⟩⟩
          intro entrant same
          obtain rfl := Option.some.inj same
          simpa using listed

/-! ## Every write is a move of its board -/

section Writes

variable {label : Label bunker} {past : Past} {world : World} {after : Database}
  {id : TournamentId}

/-- The winner of a conclusion is on the board it is written to. -/
theorem winner_seated (lived : boards.Lived past world) {tournament : Tournament}
    (loaded : past.Read (.tournaments (.get id)) (some tournament)) {entrants : List Entrant}
    (entrants_read : past.Read (.tournaments (.entrants tournament.id)) entrants)
    {rows : List Match} (rows_read : past.Read (.tournaments (.matchesOf tournament.id)) rows)
    {bracket : Option Bracket} (read_eq : bracketOf rows = .ok bracket)
    {named winner : Option EntrantId} {awards : List Award}
    (computed : concluded tournament.id entrants bracket named = .ok (winner, awards))
    (there : hasWinner world.db winner) {entrant : EntrantId} (won : winner = some entrant) :
    (world.db.board id).Seats entrant := by
  subst won
  rw [loaded.tournament_id lived] at entrants_read rows_read computed
  rcases (concluded_ok computed).2 with ⟨drawn, rfl, -, -, crowned⟩ | ⟨-, -, listed⟩
  · obtain ⟨earlier, good, answered, relies⟩ := rows_read.seen lived
    obtain rfl := matches_answer answered
    rcases (good.boards id).bracketOf_matchList with ⟨-, no_bracket⟩ | ⟨order, other, holds, found⟩
    · rw [no_bracket] at read_eq
      cases read_eq
    · rw [found] at read_eq
      obtain rfl := Option.some.inj (Except.ok.inj read_eq)
      exact seats_of_there good relies (holds.2.1 entrant (holds.1.champion_mem crowned)) there
  · obtain ⟨earlier, good, answered, relies⟩ := entrants_read.seen lived
    obtain ⟨e, member, rfl⟩ := listed entrant rfl
    exact seats_of_there good relies ((entrants_answer good answered).2 e member) there

theorem steps_setStatus (good : world.Good) (lived : boards.Lived past world)
    {change : StatusChange} {source : TournamentStatus} {winner : Option EntrantId}
    {awards : List Award} {instant : Instant} {draw : Nat → PointEntryId} {fresh : List Nat}
    (planned : Planned past id change source winner awards)
    (moved : Moved id source change.status winner (awardRows (.tournament id) instant draw 0 awards)
      world.db after)
    (answered : Board.Answered label
      (.setStatus id source change.status winner awards instant draw) true) :
    Steps label fresh world.db after := by
  refine .status_written good moved fun row found row_status => ?_
  obtain ⟨tournament, loaded, -, ⟨move, -, rfl, rfl⟩ | ⟨open_source, target, entrants, rows,
    bracket, entrants_read, rows_read, read_eq, computed⟩⟩ := planned
  · subst row_status
    rw [awardRows, List.append_nil]
    exact .moved found move answered
  · subst row_status
    rw [target] at answered ⊢
    refine .concluded found open_source (fun entrant won => ?_)
      (fun entry member => (mem_awardRows member).2) answered
    exact winner_seated lived loaded entrants_read rows_read read_eq computed moved.winner_there won

theorem steps_replaceBracket (good : world.Good) (lived : boards.Lived past world)
    {order : List EntrantId} {bracket : Bracket} (drawn : DrawnFrom past id order bracket)
    (fresh : world.IsFresh (.tournaments (.replaceBracket id .live order bracket)))
    (seated : Seated id .live order bracket.flat world.db after)
    (answered : Board.Answered label (.replaceBracket id .live order bracket) .done) :
    Steps label (bracket.flat.map fun m => m.id.uuid) world.db after := by
  obtain ⟨source, tournament, entrants, listed, loaded, rfl, entrants_read, listed_eq, perm, draw,
    generated⟩ := drawn
  have order_nodup : order.Nodup := by
    obtain ⟨earlier, earlier_good, answered, -⟩ := entrants_read.seen lived
    have read_nodup := (entrants_answer earlier_good answered).1
    refine perm.nodup_iff.mpr ?_
    rcases listed_eq with rfl | shuffled
    · exact read_nodup
    · obtain ⟨before, _, -, exec, -⟩ := lived.seen _ shuffled
      exact (exec.1.map Entrant.id).nodup_iff.mpr read_nodup
  have ids : bracket.DistinctIds := by
    have uuids : ((bracket.flat.map Match.id).map Id.uuid).Nodup := by
      rw [List.map_map]
      exact fresh.1
    exact List.Nodup.of_map _ uuids
  exact .drawn good seated generated ids (fun m member => List.mem_map_of_mem member) order_nodup
    answered

theorem steps_updateMatches (good : world.Good) (lived : boards.Lived past world)
    {request : Request} {expected : TournamentStatus} {changes : List (Match × Match)}
    {fresh : List Nat} (open_status : expected ≠ .concluded)
    (called : CalledOn request past id changes)
    (resulted : Resulted id expected changes world.db after) :
    Steps label fresh world.db after := by
  obtain ⟨source, call, tournament, rows, read, changed, -, loaded, id_eq, rows_read, read_eq,
    result_eq, rfl⟩ := called
  obtain rfl : source = id := (loaded.tournament_id lived).symm.trans id_eq
  cases changed with
  | nil => exact .same good resulted.after_eq
  | cons first changed =>
      obtain ⟨earlier, earlier_good, answered, relies⟩ := rows_read.seen lived
      obtain rfl := matches_answer answered
      rcases (earlier_good.boards source).bracketOf_matchList with
        ⟨-, no_bracket⟩ | ⟨read_order, other, read_holds, found⟩
      · rw [no_bracket] at read_eq
        cases read_eq
      · rw [found] at read_eq
        obtain rfl := Option.some.inj (Except.ok.inj read_eq)
        obtain ⟨row, row_found, -, row_status⟩ := row_of_found good resulted.found
        obtain ⟨order, bracket, holds, -, rows_eq⟩ :=
          resulted_board resulted (good.boards source) (earlier_good.boards source) read_holds
            (relies.2 source) result_eq (List.cons_ne_nil _ _)
        refine .resulted good resulted ?_
        rw [rows_eq]
        exact .resulted row_found (row_status ▸ open_status) holds

/-- One tournament method of a request. -/
theorem TournamentOp.steps (op : TournamentOp) (good : world.Good) (lived : boards.Lived past world)
    {name : Nat} {request : Request} (allowed : op.Allowed request past)
    (fresh : world.IsFresh (.tournaments op)) {answer : Except StorageError op.Ans}
    (called : op.method world.db = (answer, after)) :
    Steps (.call name request past (.store (.tournaments op)) answer) op.generated world.db
      after := by
  cases op with
  | create row =>
      rcases create_cases called with same | ⟨new, stored, same_id, draft, unwon, rfl⟩
      · exact .same good same
      · exact .created good (same_id ▸ new) (by simp [TournamentOp.generated, same_id]) draft unwon
  | get id => exact .same good (congrArg Prod.snd called).symm
  | update id expected fields =>
      rcases update_cases called with same | rfl
      · exact .same good same
      · exact .edited good allowed fields
  | setStatus id source target winner awards instant draw =>
      obtain ⟨change, -, rfl, planned⟩ := allowed
      rcases setStatus_cases called with ⟨rfl, moved⟩ | ⟨same, -⟩
      · exact steps_setStatus good lived planned moved ⟨name, request, past, rfl⟩
      · exact .same good same
  | delete id =>
      rcases delete_cases called with same | rfl
      · exact .same good same
      · exact .deleted good id
  | entrants id => exact .same good (congrArg Prod.snd called).symm
  | entrantOf id player => exact .same good (congrArg Prod.snd called).symm
  | addEntrant entrant guard =>
      rcases addEntrant_cases called with same | ⟨editable, place, new, alone, -, rfl⟩
      · exact .same good same
      · exact .entered good editable allowed place new alone List.mem_cons_self
  | setSkill id player skill guard =>
      rcases setSkill_cases called with same | ⟨editable, rfl⟩
      · exact .same good same
      · exact .rated good editable allowed player skill
  | removeEntrant id entrant guard =>
      rcases removeEntrant_cases called with same | ⟨editable, left⟩
      · exact .same good same
      · exact .left good editable allowed left
  | removeEntrantOf id player guard =>
      rcases removeEntrantOf_cases called with same | ⟨editable, left⟩
      · exact .same good same
      · exact .left good editable allowed left
  | matchesOf id => exact .same good (congrArg Prod.snd called).symm
  | replaceBracket id expected order bracket =>
      obtain ⟨rfl, drawn⟩ := allowed
      rcases replaceBracket_cases called with ⟨rfl, seated⟩ | ⟨same, -⟩
      · exact steps_replaceBracket good lived drawn fresh seated ⟨name, request, past, rfl⟩
      · exact .same good same
  | deleteBracket id expected =>
      rcases deleteBracket_cases called with ⟨-, unseated⟩ | ⟨same, -⟩
      · exact .undrawn good unseated allowed
      · exact .same good same
  | updateMatches id expected changes =>
      rcases updateMatches_cases called with ⟨-, resulted⟩ | ⟨same, -⟩
      · exact steps_updateMatches good lived allowed.1 allowed.2 resulted
      · exact .same good same

/-- One event method.  The ledger rows of an event belong to no tournament. -/
theorem EventOp.steps (op : EventOp) (good : world.Good) {fresh : List Nat}
    {answer : Except StorageError op.Ans} (called : op.method world.db = (answer, after)) :
    Steps label fresh world.db after := by
  cases op with
  | create row =>
      rcases EventStorage.create_cases called with same | ⟨stored, -, -, rfl⟩
      · exact .same good same
      · exact .of_boards good rfl rfl fun id => rfl
  | get id => exact .same good (congrArg Prod.snd called).symm
  | getByCode code => exact .same good (congrArg Prod.snd called).symm
  | update id fields =>
      rcases EventStorage.update_cases called with same | ⟨write, -, rfl⟩
      · exact .same good same
      · exact .of_boards good rfl rfl fun id => rfl
  | setStatus id status =>
      rcases EventStorage.setStatus_cases called with same | ⟨write, -, rfl⟩
      · exact .same good same
      · exact .of_boards good rfl rfl fun id => rfl
  | delete id =>
      rcases EventStorage.delete_cases called with same | rfl
      · exact .same good same
      · exact .ledger_filter good fun row no_event => by simp [no_event]
  | removeCheckin id player =>
      obtain ⟨-, rfl⟩ := Prod.mk.inj ((EventStorage.removeCheckin_eq id player world.db).symm.trans
        called)
      exact .ledger_filter good fun row no_event => by simp [no_event]
  | checkins id => exact .same good (congrArg Prod.snd called).symm
  | checkIn id player instant award draw =>
      rcases EventStorage.checkIn_cases called with ⟨-, entered⟩ | ⟨-, -, -, same⟩ | ⟨-, -, same, -⟩
      · rw [entered.after_eq]
        exact .ledger_append good rfl
      · exact .same good same
      · exact .same good same

/-- One method of the accounts and their adjustments. -/
theorem PlayerOp.steps (op : PlayerOp) (good : world.Good) {fresh : List Nat}
    {answer : Except StorageError op.Ans} (called : op.method world.db = (answer, after)) :
    Steps label fresh world.db after := by
  cases op with
  | create player =>
      rcases PlayerStorage.create_cases called with same | ⟨-, rfl⟩
      · exact .same good same
      · exact .of_boards good rfl rfl fun id => rfl
  | access id => exact .same good (congrArg Prod.snd called).symm
  | credentialsById id => exact .same good (congrArg Prod.snd called).symm
  | credentialsByHandle handle => exact .same good (congrArg Prod.snd called).symm
  | setPassword id passwordHash mustChange changedAt =>
      rcases PlayerStorage.setPassword_cases called with ⟨-, -, rfl⟩ | ⟨same, -⟩
      · exact .of_boards good rfl rfl fun id => rfl
      · exact .same good same
  | isThere id => exact .same good (congrArg Prod.snd called).symm
  | setRole id role =>
      rcases PlayerStorage.setRole_cases called with ⟨-, -, rfl⟩ | ⟨-, -, same⟩
      · exact .of_boards good rfl rfl fun id => rfl
      · exact .same good same
  | delete id =>
      rcases PlayerStorage.delete_cases called with ⟨-, -, rfl⟩ | ⟨-, -, same⟩
      · exact .anonymised good id
      · exact .same good same
  | list query term active order => exact .same good (congrArg Prod.snd called).symm
  | addAdjustment adjustment =>
      rcases PointStorage.addAdjustment_cases called with same | ⟨-, rfl⟩
      · exact .same good same
      · exact .ledger_append good rfl
  | history player query => exact .same good (congrArg Prod.snd called).symm
  | totals player => exact .same good (congrArg Prod.snd called).symm

end Writes

/-! ## Every step moves every board -/

/-- One step of a run, for the boards: the identifiers it generated are new, and every board makes
a move. -/
def Stepped (moment : Moment bunker) : Prop :=
  ∃ fresh, moment.after.used = moment.before.used ++ fresh ∧
    (∀ uuid ∈ fresh, uuid ∉ moment.before.used) ∧
    Steps moment.label fresh moment.before.db moment.after.db

theorem stepped (moment : Moment bunker) (good : moment.before.Good)
    (informed : boards.Informed moment) (sound : discipline.Sound moment) : Stepped moment := by
  rcases moment_cases moment sound with
    same | ⟨clock, same⟩ | ⟨id, promoted⟩ | ⟨name, request, past, op, answer, label, stored⟩
  · refine ⟨[], ?_, by simp, .same good (congrArg World.db same)⟩
    rw [same, List.append_nil]
  · rw [Stepped, same]
    exact ⟨[], by simp, by simp, .same good rfl⟩
  · rw [Stepped, promoted]
    exact ⟨[], by simp [World.promote], by simp, .of_boards good rfl rfl fun id => rfl⟩
  · refine ⟨op.generated, stored.used, stored.fresh.2, ?_⟩
    have lived := informed name request past (by rw [label]; rfl)
    have called := stored.called
    rw [label]
    cases op with
    | tournaments op => exact op.steps good lived stored.may stored.fresh called
    | events op => exact op.steps good called
    | players op => exact op.steps good called

/-- Every step keeps every board in order, and keeps what was said of it. -/
theorem boards_kept (condition : Moment bunker → Prop) : boards.KeptBy discipline condition := by
  intro moment good informed sound _
  obtain ⟨fresh, used_eq, new_ids, steps⟩ := stepped moment good informed sound
  refine ⟨⟨steps.tournaments, steps.entrants, fun id => ?_⟩, ?_, fun id => ?_⟩
  · rw [used_eq]
    exact (steps.moves id).ok (good.boards id)
  · rw [used_eq]
    exact List.subset_append_left _ _
  · exact (steps.moves id).later (good.boards id) new_ids

/-- What is known of every moment of every run. -/
theorem boards_along {clock : Instant} {trace : List (Moment bunker)} {stop : Config bunker}
    (run : Run (Config.quiet (World.initial clock)) trace stop) :
    stop.state.Good ∧ ∀ moment ∈ trace, boards.Along stop.state moment :=
  Guarantee.along_run (boards_kept fun _ => True) (good_initial clock) run fun _ _ => trivial

/-- What is known of a storage method that answered in a run. -/
structure Observed (moment : Moment bunker) (request : Request) (past : Past) (op : StorageOp)
    (answer : op.Ans) : Prop where
  good : moment.before.Good
  lived : boards.Lived past moment.before
  may : May request past (.store op)
  called : op.method moment.before.db = (.ok answer, moment.after.db)

section Run

variable {clock : Instant} {trace : List (Moment bunker)} {stop : Config bunker}
  {moment : Moment bunker}

theorem observed (run : Run (Config.quiet (World.initial clock)) trace stop)
    (member : moment ∈ trace) {name : Nat} {request : Request} {past : Past} {op : StorageOp}
    {answer : op.Ans} (label : moment.label = .call name request past (.store op) (.ok answer)) :
    Observed moment request past op answer := by
  have along := (boards_along run).2 moment member
  have sound := discipline.sound run moment member
  simp only [Discipline.Sound, label] at sound
  obtain ⟨may, ⟨-, stored⟩ | ⟨busy, -⟩⟩ := sound
  · have lived := along.informed name request past (by rw [label]; rfl)
    exact ⟨along.before, lived, may, World.store_eq stored⟩
  · cases busy

/-- Every step of a run moves every board. -/
theorem moves_along (run : Run (Config.quiet (World.initial clock)) trace stop)
    (member : moment ∈ trace) (id : TournamentId) :
    moment.before.Good ∧ ∃ fresh, Board.Move moment.label fresh id (moment.before.db.board id)
      (moment.after.db.board id) := by
  have along := (boards_along run).2 moment member
  obtain ⟨fresh, -, -, steps⟩ :=
    stepped moment along.before along.informed (discipline.sound run moment member)
  exact ⟨along.before, fresh, steps.moves id⟩

/-- What every move of a board keeps, under a condition on the steps, every run keeps. -/
theorem board_invariant {holds : TournamentId → Board → Prop} {condition : Moment bunker → Prop}
    (empty : ∀ id, holds id .empty)
    (keeps : ∀ (moment : Moment bunker) fresh id, condition moment → moment.before.Good →
      Board.Move moment.label fresh id (moment.before.db.board id) (moment.after.db.board id) →
      holds id (moment.before.db.board id) → holds id (moment.after.db.board id))
    (run : Run (Config.quiet (World.initial clock)) trace stop)
    (meets : ∀ moment ∈ trace, condition moment) (id : TournamentId) :
    holds id (stop.state.db.board id) ∧ ∀ moment ∈ trace,
      holds id (moment.before.db.board id) ∧ holds id (moment.after.db.board id) := by
  let kept : bunker.State → Prop := fun world => holds id (Database.board world.db id)
  have start : kept (World.initial clock) := empty id
  have step : ∀ moment ∈ trace, kept moment.before → kept moment.after := by
    intro moment member before
    obtain ⟨good, fresh, move⟩ := moves_along run member id
    exact keeps moment fresh id (meets moment member) good move before
  exact run.invariant start step

end Run

/-! ## A cup of two -/

namespace Cup

/-- Nothing is stored, and the clock is past the epoch. -/
def start : Config bunker := Config.quiet (World.initial 1000000)

def id : TournamentId := ⟨10⟩

def new : NewTournament where
  name := ⟨['c', 'u', 'p'], by decide, by decide, by decide⟩
  game := ⟨['q', '3'], by decide, by decide, by decide⟩
  mode := ⟨['1', 'v', '1'], by decide, by decide, by decide⟩
  description := .empty
  date := ⟨2026, 5, 1, by decide, by decide, by decide, by decide, by decide, by decide⟩
  registrationClosesAt := 9000000

def signup (letter : Char) (valid : [letter, letter, letter].all isHandleChar) (uuid : Nat) :
    List bunkerScript.Command :=
  alone 4 (.signup ⟨[letter, letter, letter], valid, by simp, by simp⟩ "") uuid

/-- The players 1 and 2 are the entrants 21 and 22 of a live tournament. -/
def entered : List bunkerScript.Command :=
  signup 'a' (by decide) 1 ++ signup 'b' (by decide) 2 ++ alone 5 (.createTournament new) 10 ++
    alone 6 (.changeStatus id ⟨.live, none⟩) 100 ++ alone 7 (.addEntrant id ⟨1⟩ none) 21 ++
    alone 7 (.addEntrant id ⟨2⟩ none) 22

/-- The match 31 is their final. -/
def drawn : List bunkerScript.Command := entered ++ alone 7 (.generateBracket id) 31

end Cup
end LanBunker
