import LanBunker.Services.Beside
import LanBunker.Tournaments.Entries

/-!
# A double click is one click

Two equal status changes side by side.  The first write of either one is the only one: whatever the
other request reads, it reads it before that write or after it.
-/

namespace LanBunker

open Interleaving Relational Service TournamentStorage TournamentService

/-! ## What a status change would write -/

/-- The answer of a reading method. -/
def Database.reads {α : Type} (db : Database) (method : Method α) (default : α) : α :=
  match (method db).1 with
  | .ok value => value
  | .error _ => default

/-- The winner and the awards of a conclusion, from the rows of the database. -/
def concludedOn (db : Database) (id : TournamentId) (named : Option EntrantId) :
    Except ServiceError (Option EntrantId × List Award) := do
  let bracket ← bracketOf (db.reads (matchesOf id) [])
  concluded id (db.reads (entrants id) []) bracket named

/-- The winner and the awards of a move, from the rows of the database. -/
def planned (db : Database) (tournament : Tournament) (change : StatusChange) :
    Except ServiceError (Option EntrantId × List Award) :=
  match tournament.status, change.status with
  | .draft, .opened | .draft, .live | .opened, .live => do
      refuseWinner change
      return (none, [])
  | .live, .opened =>
      if tournament.hasBracket then .error (.invalidTransition .live .opened)
      else do
        refuseWinner change
        return (none, [])
  | .draft, .concluded | .opened, .concluded | .live, .concluded =>
      concludedOn db tournament.id change.winner
  | source, target => .error (.invalidTransition source target)

/-- The database takes the move that a request plans on it. -/
structure Feasible (id : TournamentId) (change : StatusChange) (db : Database) (row : TournamentRow)
    (winner : Option EntrantId) (awards : List Award) : Prop where
  found : tournament? id db = some row
  readable : row.IsReadable
  other : row.status ≠ change.status
  plan : planned db (tournamentOf db row) change = .ok (winner, awards)
  accepts : Accepts id row.status change.status winner awards db

/-- The move is made. -/
def Wrote (id : TournamentId) (change : StatusChange) (db after : Database) : Prop :=
  ∃ row winner awards instant draw, Feasible id change db row winner awards ∧
    setStatus id row.status change.status winner awards instant draw db = (.ok true, after)

section Wrote

variable {id : TournamentId} {change : StatusChange} {db after : Database} {row : TournamentRow}
  {winner : Option EntrantId} {awards : List Award}

/-- A move writes the row of the tournament and the ledger, and what it pays is planned. -/
theorem Wrote.eq (wrote : Wrote id change db after)
    (feasible : Feasible id change db row winner awards) :
    ∃ instant draw, after = { db with
      tournaments := db.tournaments.map fun other =>
        if other.id = id ∧ other.status = row.status
          then { other with status := change.status, winner } else other
      pointEntries := db.pointEntries ++ awardRows (.tournament id) instant draw 0 awards } := by
  obtain ⟨row', winner', awards', instant, draw, moved, called⟩ := wrote
  obtain rfl := Option.some.inj (feasible.found.symm.trans moved.found)
  obtain ⟨rfl, rfl⟩ := Prod.mk.inj (Except.ok.inj (feasible.plan.symm.trans moved.plan))
  rcases setStatus_cases called with ⟨-, written⟩ | ⟨-, no⟩
  · exact ⟨instant, draw, written.paid.after_eq⟩
  · exact absurd rfl no

/-- After the move the tournament has the status, and a read still knows it. -/
theorem Wrote.found (wrote : Wrote id change db after) :
    ∃ fresh, tournament? id after = some fresh ∧ fresh.IsReadable ∧
      fresh.status = change.status := by
  have kept := wrote
  obtain ⟨row, winner, awards, -, -, feasible, -⟩ := kept
  obtain ⟨instant, draw, rfl⟩ := wrote.eq feasible
  refine ⟨{ row with status := change.status, winner }, ?_, feasible.readable, rfl⟩
  have row_id := (tournament?_eq_some feasible.found).2
  rw [tournament?, find?_map_write fun other => by split_ifs <;> rfl]
  exact (congrArg (Option.map _) feasible.found).trans
    (by rw [Option.map_some, if_pos ⟨row_id, rfl⟩])

/-- No row has the status the move started from. -/
theorem Wrote.moved (wrote : Wrote id change db after) (found : tournament? id db = some row) :
    ∀ stored ∈ after.tournaments, stored.id = id → stored.status ≠ row.status := by
  have kept := wrote
  obtain ⟨row', winner, awards, -, -, feasible, -⟩ := kept
  obtain rfl := Option.some.inj (found.symm.trans feasible.found)
  obtain ⟨instant, draw, rfl⟩ := wrote.eq feasible
  intro stored member stored_id
  obtain ⟨before, -, rfl⟩ := List.mem_map.mp member
  split_ifs at stored_id ⊢ with touched
  · exact fun same => feasible.other same.symm
  · exact fun same => touched ⟨stored_id, same⟩

/-- A move leaves the matches alone. -/
theorem Wrote.matches_eq (wrote : Wrote id change db after) (tournament : TournamentId) :
    after.reads (matchesOf tournament) [] = db.reads (matchesOf tournament) [] := by
  have kept := wrote
  obtain ⟨row, winner, awards, -, -, feasible, -⟩ := kept
  obtain ⟨instant, draw, rfl⟩ := wrote.eq feasible
  rfl

/-- No second move follows the first. -/
theorem Wrote.last (wrote : Wrote id change db after) (later : Database) :
    ¬Wrote id change after later := by
  rintro ⟨row, winner, awards, _, _, feasible, -⟩
  obtain ⟨fresh, found, -, status⟩ := wrote.found
  obtain rfl := Option.some.inj (feasible.found.symm.trans found)
  exact feasible.other status

end Wrote

/-! ## One request while the other one runs -/

/-- What the other click may do: the one move, from the database both started on. -/
structure Clicked (id : TournamentId) (change : StatusChange) (db : Database)
    (world later : World) : Prop where
  db_eq : later.db = world.db ∨ world.db = db ∧ Wrote id change db later.db
  used : ∀ uuid ∈ world.used, uuid ∈ later.used
  clock : World.earliest ≤ world.clock → World.earliest ≤ later.clock

section Clicked

variable {id : TournamentId} {change : StatusChange} {db : Database} {world later last : World}

theorem Clicked.refl (world : World) : Clicked id change db world world :=
  ⟨Or.inl rfl, fun _ member => member, fun le => le⟩

theorem Clicked.trans (first second third : World) (step : Clicked id change db first second)
    (next : Clicked id change db second third) : Clicked id change db first third where
  db_eq := by
    rcases next.db_eq with same | ⟨second_eq, wrote⟩
    · rw [same]
      exact step.db_eq
    · rcases step.db_eq with same | ⟨first_eq, -⟩
      · exact Or.inr ⟨same.symm.trans second_eq, wrote⟩
      · exact Or.inr ⟨first_eq, wrote⟩
  used uuid member := next.used uuid (step.used uuid member)
  clock le := next.clock (step.clock le)

theorem Clicked.ticks (world : World) (clock : Instant) (le : World.earliest ≤ clock) :
    Clicked id change db world { world with clock } :=
  ⟨Or.inl rfl, fun _ member => member, fun _ => le⟩

/-- Nothing was written yet, or the one move was made. -/
def Seen (id : TournamentId) (change : StatusChange) (db : Database) (world : World) : Prop :=
  world.db = db ∨ Wrote id change db world.db

/-- After the move nothing is written. -/
theorem Clicked.same (step : Clicked id change db world later)
    (wrote : Wrote id change db world.db) : later.db = world.db := by
  rcases step.db_eq with same | ⟨start, -⟩
  · exact same
  · rw [start] at wrote
    exact absurd wrote (wrote.last _)

theorem Clicked.seen (step : Clicked id change db world later) (seen : Seen id change db world) :
    Seen id change db later := by
  rcases seen with start | wrote
  · rcases step.db_eq with same | ⟨-, wrote⟩
    · exact Or.inl (same.trans start)
    · exact Or.inr wrote
  · refine Or.inr ?_
    rw [step.same wrote]
    exact wrote

/-- Where nothing is written, nothing was written before. -/
theorem Clicked.unwritten (step : Clicked id change db world later)
    (seen : Seen id change db world) (unwritten : later.db = db) : world.db = db := by
  rcases seen with start | wrote
  · exact start
  · exact (step.same wrote).symm.trans unwritten

/-- What a request that loads the tournament is answered. -/
def loaded (id : TournamentId) (db : Database) : Except ServiceError Tournament :=
  match tournament? id db with
  | none => .error (.tournamentNotFound id)
  | some row =>
      if row.IsReadable then .ok (tournamentOf db row) else .error (.ofStorage .malformedRow)

theorem loaded_of_found {row : TournamentRow} (found : tournament? id db = some row)
    (readable : row.IsReadable) : loaded id db = .ok (tournamentOf db row) := by
  rw [loaded, found]
  exact if_pos readable

theorem loaded_cases (id : TournamentId) (db : Database) :
    (∃ row, tournament? id db = some row ∧ row.IsReadable ∧
        loaded id db = .ok (tournamentOf db row)) ∨
      ∃ error, loaded id db = .error error ∧
        ∀ row, tournament? id db = some row → ¬row.IsReadable := by
  rw [loaded]
  cases found : tournament? id db with
  | none => exact Or.inr ⟨_, rfl, fun _ impossible => by cases impossible⟩
  | some row =>
      by_cases readable : row.IsReadable
      · exact Or.inl ⟨row, rfl, readable, if_pos readable⟩
      · refine Or.inr ⟨_, if_neg readable, fun other same => ?_⟩
        obtain rfl := Option.some.inj same
        exact readable

theorem stands_load {post : Except ServiceError Tournament → World → Prop}
    (holds : ∀ later last, Clicked id change db world later → Clicked id change db later last →
      post (loaded id later.db) last) :
    Stands (Clicked id change db) (load id) world post := by
  rw [load]
  refine stands_bind Clicked.refl ?_
  refine stands_reading (fun db => converted (toTournament db) (tournament? id db)) (fun db => rfl)
    rfl Clicked.ticks Clicked.trans fun later last step further => ?_
  have answered := fun last further => holds later last step further
  rw [loaded] at answered
  cases found : tournament? id later.db with
  | none =>
      rw [found] at answered
      exact fun final next => answered final (Clicked.trans _ _ _ further next)
  | some row =>
      rw [found] at answered
      dsimp only at answered
      by_cases readable : row.IsReadable
      · rw [if_pos readable] at answered
        have read : toTournament later.db row = some (tournamentOf later.db row) :=
          toTournament_eq_some.mpr ⟨readable, rfl⟩
        rw [converted, converting, read]
        exact fun final next => answered final (Clicked.trans _ _ _ further next)
      · rw [if_neg readable] at answered
        have unread : toTournament later.db row = none := toTournament_eq_none.mpr readable
        rw [converted, converting, unread]
        exact fun final next => answered final (Clicked.trans _ _ _ further next)

/-- Whether a conclusion without a named winner goes through is a matter of the matches. -/
private theorem concluded_of_ok {tournament : TournamentId} {listed other : List Entrant}
    {bracket : Option Bracket} {plan : Option EntrantId × List Award}
    (ok : concluded tournament listed bracket none = .ok plan) :
    ∃ plan, concluded tournament other bracket none = .ok plan := by
  cases bracket with
  | none => exact ⟨_, rfl⟩
  | some bracket =>
      rw [concluded, if_neg (by simp)] at ok ⊢
      cases champion : bracket.champion with
      | none =>
          rw [champion] at ok
          cases ok
      | some champion => exact ⟨_, rfl⟩

/-- The plan of one click is the plan on the database both started on, unless the other one has
moved the status by then. -/
def Plans (id : TournamentId) (change : StatusChange) (db : Database) (tournament : Tournament)
    (result : Except ServiceError (Option EntrantId × List Award)) (last : World) : Prop :=
  (last.db = db → result = planned db tournament change) ∧
    (Wrote id change db last.db → ∃ plan, result = .ok plan)

theorem stands_conclusion {row : TournamentRow} (seen : Seen id change db world)
    (found : tournament? id db = some row)
    (plan_eq : planned db (tournamentOf db row) change = concludedOn db row.id none) :
    Stands (Clicked id change db) (conclusion row.id none) world
      (Plans id change db (tournamentOf db row)) := by
  rw [conclusion]
  refine stands_bind Clicked.refl ?_
  refine stands_read (fun db => db.reads (entrants row.id) []) (fun db => rfl) rfl
    Clicked.ticks Clicked.trans fun first middle to_first to_middle => ?_
  dsimp only
  rw [bracket]
  refine stands_bind Clicked.refl (stands_bind Clicked.refl ?_)
  refine stands_read (fun db => db.reads (matchesOf row.id) []) (fun db => rfl) rfl
    Clicked.ticks Clicked.trans fun second last to_second to_last => ?_
  have seen_first := to_first.seen seen
  have seen_second := to_second.seen (to_middle.seen seen_first)
  have rows_eq : second.db.reads (matchesOf row.id) [] = db.reads (matchesOf row.id) [] := by
    rcases seen_second with same | wrote
    · rw [same]
    · exact wrote.matches_eq row.id
  have planned_ok : ∀ final, Wrote id change db final →
      ∃ plan, planned db (tournamentOf db row) change = .ok plan := by
    rintro final ⟨other, winner, awards, -, -, feasible, -⟩
    obtain rfl := Option.some.inj (found.symm.trans feasible.found)
    exact ⟨_, feasible.plan⟩
  dsimp only
  rw [rows_eq]
  intro third to_third
  cases drawn : bracketOf (db.reads (matchesOf row.id) []) with
  | error error =>
      have plan_error : planned db (tournamentOf db row) change = .error error := by
        rw [plan_eq, concludedOn, drawn]
        rfl
      intro final to_final
      refine ⟨fun _ => plan_error.symm, fun wrote => ?_⟩
      obtain ⟨plan, ok⟩ := planned_ok _ wrote
      rw [plan_error] at ok
      cases ok
  | ok drawing =>
      have plan_of : planned db (tournamentOf db row) change =
          concluded row.id (db.reads (entrants row.id) []) drawing none := by
        rw [plan_eq, concludedOn, drawn]
        rfl
      intro final to_final
      have from_first : Clicked id change db first final :=
        .trans _ _ _ to_middle (.trans _ _ _ to_second (.trans _ _ _ to_last
          (.trans _ _ _ to_third to_final)))
      refine ⟨fun unwritten => ?_, fun wrote => ?_⟩
      · rw [from_first.unwritten seen_first unwritten, plan_of]
      · obtain ⟨plan, ok⟩ := planned_ok _ wrote
        rw [plan_of] at ok
        exact concluded_of_ok ok

/-- A plan that reads nothing. -/
private theorem plans_of_eq {tournament : Tournament}
    {result : Except ServiceError (Option EntrantId × List Award)} {last : World}
    {row : TournamentRow} (found : tournament? id db = some row)
    (tournament_eq : tournament = tournamentOf db row)
    (same : result = planned db tournament change) :
    Plans id change db tournament result last := by
  refine ⟨fun _ => same, ?_⟩
  rintro ⟨other, winner, awards, -, -, feasible, -⟩
  obtain rfl := Option.some.inj (found.symm.trans feasible.found)
  rw [same, tournament_eq]
  exact ⟨_, feasible.plan⟩

/-- The plan of a conclusion reads the rows, any other plan reads nothing. -/
private theorem planTransition_eq (db : Database) (tournament : Tournament)
    (target : TournamentStatus) :
    planTransition tournament ⟨target, none⟩ = conclusion tournament.id none ∧
        planned db tournament ⟨target, none⟩ = concludedOn db tournament.id none ∨
      planTransition tournament ⟨target, none⟩ =
        ofExcept (planned db tournament ⟨target, none⟩) := by
  rw [planTransition, planned]
  cases tournament.status with
  | draft =>
      cases target with
      | concluded => exact Or.inl ⟨rfl, rfl⟩
      | draft | opened | live => exact Or.inr rfl
  | opened =>
      cases target with
      | concluded => exact Or.inl ⟨rfl, rfl⟩
      | draft | opened | live => exact Or.inr rfl
  | live =>
      cases target with
      | concluded => exact Or.inl ⟨rfl, rfl⟩
      | draft | live => exact Or.inr rfl
      | opened =>
          refine Or.inr ?_
          dsimp only
          split_ifs <;> rfl
  | concluded =>
      cases target with
      | draft | opened | live | concluded => exact Or.inr rfl

theorem stands_planTransition {row : TournamentRow} (seen : Seen id change db world)
    (found : tournament? id db = some row) (nobody : change.winner = none) :
    Stands (Clicked id change db) (planTransition (tournamentOf db row) change) world
      (Plans id change db (tournamentOf db row)) := by
  obtain ⟨target, winner⟩ := change
  obtain rfl : winner = none := nobody
  rcases planTransition_eq db (tournamentOf db row) target with ⟨reading, plan_eq⟩ | at_once
  · rw [reading]
    exact stands_conclusion seen found plan_eq
  · rw [at_once]
    exact stands_ofExcept.mpr fun last _ => plans_of_eq found rfl rfl

/-- A click goes through where the status is there already or the move can be made, and then the
move is made once. -/
structure Clicks (id : TournamentId) (change : StatusChange) (db : Database)
    (result : Except ServiceError Tournament) (last : World) : Prop where
  ok_iff : (∃ tournament, result = .ok tournament) ↔
    (∃ row, tournament? id db = some row ∧ row.IsReadable ∧ row.status = change.status) ∨
      ∃ row winner awards, Feasible id change db row winner awards
  wrote : (∃ row winner awards, Feasible id change db row winner awards) →
    Wrote id change db last.db
  unwritten : (¬∃ row winner awards, Feasible id change db row winner awards) → last.db = db

theorem Wrote.feasible {after : Database} (wrote : Wrote id change db after) :
    ∃ row winner awards, Feasible id change db row winner awards := by
  obtain ⟨row, winner, awards, -, -, feasible, -⟩ := wrote
  exact ⟨row, winner, awards, feasible⟩

/-- A click that found the move made. -/
private theorem clicks_after {tournament : Tournament} (wrote : Wrote id change db last.db) :
    Clicks id change db (.ok tournament) last where
  ok_iff := iff_of_true ⟨tournament, rfl⟩ (Or.inr wrote.feasible)
  wrote := fun _ => wrote
  unwritten := fun never => absurd wrote.feasible never

/-- A click on a move that cannot be made. -/
private theorem clicks_never {error : ServiceError} {row : Option TournamentRow}
    (found : tournament? id db = row) (other : ∀ stored, row = some stored →
      stored.IsReadable → stored.status ≠ change.status) (seen : Seen id change db last)
    (never : ¬∃ row winner awards, Feasible id change db row winner awards) :
    Clicks id change db (.error error) last where
  ok_iff := by
    refine iff_of_false (by simp) ?_
    rintro (⟨stored, stored_eq, readable, status⟩ | feasible)
    · exact other stored (found.symm.trans stored_eq) readable status
    · exact never feasible
  wrote := fun feasible => absurd feasible never
  unwritten := fun _ => seen.resolve_right fun wrote => never wrote.feasible

/-- A reload after the move was made. -/
private theorem stands_reload (wrote : Wrote id change db world.db) :
    Stands (Clicked id change db) (load id) world (Clicks id change db) := by
  refine stands_load fun later last to_later to_last => ?_
  have later_eq := to_later.same wrote
  rw [← later_eq] at wrote
  have last_eq := to_last.same wrote
  obtain ⟨fresh, fresh_found, readable, -⟩ := wrote.found
  rw [loaded_of_found fresh_found readable]
  refine clicks_after ?_
  rw [last_eq]
  exact wrote

/-- A click whose write was refused looks at the tournament again. -/
private theorem stands_statusMoved {row : TournamentRow} (found : tournament? id db = some row)
    (readable : row.IsReadable) (other : row.status ≠ change.status) (nobody : change.winner = none)
    (settled : Wrote id change db world.db ∨
      world.db = db ∧ ¬∃ row winner awards, Feasible id change db row winner awards) :
    Stands (Clicked id change db) (statusMoved id change) world (Clicks id change db) := by
  rw [statusMoved]
  refine stands_bind Clicked.refl (stands_load fun later last to_later to_last => ?_)
  have to_both := Clicked.trans _ _ _ to_later to_last
  rcases settled with wrote | ⟨start, never⟩
  · have later_eq := to_later.same wrote
    have last_eq := to_both.same wrote
    obtain ⟨fresh, fresh_found, readable, status⟩ := wrote.found
    rw [later_eq, loaded_of_found fresh_found readable]
    dsimp only
    rw [if_pos ⟨status, by rw [nobody]; rfl⟩]
    refine stands_pure.mpr fun final to_final => clicks_after ?_
    rw [(Clicked.trans _ _ _ to_both to_final).same wrote]
    exact wrote
  · have unwritten : later.db = db :=
      (to_later.seen (Or.inl start)).resolve_right fun wrote => never wrote.feasible
    rw [unwritten, loaded_of_found found readable]
    dsimp only
    rw [if_neg fun same => other same.1]
    refine stands_fail.mpr fun final to_final => clicks_never found ?_ ?_ never
    · rintro stored stored_eq -
      obtain rfl := Option.some.inj stored_eq
      exact other
    · exact (Clicked.trans _ _ _ to_both to_final).seen (Or.inl start)

/-- The answers to a status write that was refused, on a database that takes no such move. -/
private theorem stands_refused {row : TournamentRow} (found : tournament? id db = some row)
    (readable : row.IsReadable) (other : row.status ≠ change.status) (nobody : change.winner = none)
    (seen : Seen id change db world)
    (never : ¬∃ row winner awards, Feasible id change db row winner awards) :
    Stands (Clicked id change db) (statusMoved id change) world (Clicks id change db) ∧
      ∀ error : ServiceError,
        Stands (Clicked id change db) (fail error) world (Clicks id change db) := by
  have same := seen.resolve_right fun wrote => never wrote.feasible
  refine ⟨stands_statusMoved found readable other nobody (Or.inr ⟨same, never⟩), fun error => ?_⟩
  refine stands_fail.mpr fun final to_final => clicks_never found ?_ (to_final.seen seen) never
  rintro stored stored_eq -
  obtain rfl := Option.some.inj stored_eq
  exact other

/-- The status write of one click, and what it answers. -/
private theorem stands_written {row : TournamentRow} {tournament : Tournament}
    (found : tournament? id db = some row) (readable : row.IsReadable)
    (tournament_eq : tournament = tournamentOf db row) (other : row.status ≠ change.status)
    (nobody : change.winner = none)
    {winner : Option EntrantId} {awards : List Award} (seen : Seen id change db world)
    (plan : world.db = db → planned db (tournamentOf db row) change = .ok (winner, awards))
    {instant : Instant} {draw : Nat → PointEntryId} (positive : 0 < toMicros instant)
    (injective : Function.Injective draw)
    (fresh : ∀ entry ∈ db.pointEntries, ∀ index, entry.id ≠ draw index) :
    Stands (Clicked id change db) (do
        let written ← attempt <| .tournaments <|
          .setStatus id tournament.status change.status winner awards instant draw
        match written with
        | .ok true => load id
        | .ok false | .error .foreignKeyViolation => statusMoved id change
        | .error error => fail (.ofStorage error)) world (Clicks id change db) := by
  refine stands_bind Clicked.refl (stands_ask.mpr ?_)
  subst tournament_eq
  rintro later to_later answer after ⟨done, clock, performed, le, rfl⟩
  have called : setStatus id row.status change.status winner awards instant draw later.db =
    (answer, done.db) := World.store_eq performed
  have used_kept : ∀ uuid ∈ later.used, uuid ∈ done.used := by
    obtain ⟨-, rfl⟩ := Prod.mk.inj performed
    exact fun uuid member => List.mem_append_left _ member
  rcases to_later.seen seen with unwritten | wrote
  · have planned_here := plan (to_later.unwritten seen unwritten)
    rw [unwritten] at called
    by_cases accepts : Accepts id row.status change.status winner awards db
    · have committed := (setStatus_true_iff positive injective fresh).mpr accepts
      rw [called] at committed
      obtain rfl : answer = .ok true := committed
      have wrote : Wrote id change db done.db :=
        ⟨row, winner, awards, instant, draw, ⟨found, readable, other, planned_here, accepts⟩,
          called⟩
      refine ⟨⟨Or.inr ⟨unwritten, wrote⟩, used_kept, fun _ => le⟩, fun last to_last => ?_⟩
      refine stands_reload ?_
      rw [to_last.same wrote]
      exact wrote
    · have never : ¬∃ row winner awards, Feasible id change db row winner awards := by
        rintro ⟨row', winner', awards', feasible⟩
        obtain rfl := Option.some.inj (found.symm.trans feasible.found)
        obtain ⟨rfl, rfl⟩ := Prod.mk.inj (Except.ok.inj (planned_here.symm.trans feasible.plan))
        exact accepts feasible.accepts
      obtain ⟨done_eq, refused⟩ : done.db = db ∧ answer ≠ .ok true := by
        rcases setStatus_cases called with ⟨rfl, -⟩ | refused
        · exact absurd ((setStatus_true_iff positive injective fresh).mp
            (congrArg Prod.fst called)) accepts
        · exact refused
      refine ⟨⟨Or.inl (done_eq.trans unwritten.symm), used_kept, fun _ => le⟩,
        fun last to_last => ?_⟩
      obtain ⟨moved, failed⟩ :=
        stands_refused found readable other nobody (to_last.seen (Or.inl done_eq)) never
      cases answer with
      | ok committed =>
          cases committed with
          | true => exact absurd rfl refused
          | false => exact moved
      | error error =>
          cases error with
          | foreignKeyViolation => exact moved
          | busy | uniqueViolation _ | malformedRow | query => exact failed _
  · have already : setStatus id row.status change.status winner awards instant draw later.db =
      (.ok false, later.db) := setStatus_of_moved (wrote.moved found)
    obtain ⟨rfl, done_eq⟩ := Prod.mk.inj (called.symm.trans already)
    refine ⟨⟨Or.inl done_eq, used_kept, fun _ => le⟩, fun last to_last => ?_⟩
    have done_wrote : Wrote id change db done.db := by rwa [done_eq]
    refine stands_statusMoved found readable other nobody (Or.inl ?_)
    rw [to_last.same done_wrote]
    exact done_wrote

/-- The write of one click, at an instant and with identifiers of its own. -/
private theorem stands_write {row : TournamentRow} {tournament : Tournament}
    (found : tournament? id db = some row) (readable : row.IsReadable)
    (tournament_eq : tournament = tournamentOf db row) (other : row.status ≠ change.status)
    (nobody : change.winner = none)
    {winner : Option EntrantId} {awards : List Award} (seen : Seen id change db world)
    (plan : world.db = db → planned db (tournamentOf db row) change = .ok (winner, awards))
    (entries_used : ∀ entry ∈ db.pointEntries, entry.id.uuid ∈ world.used)
    (le : World.earliest ≤ world.clock) :
    Stands (Clicked id change db) (do
        let now ← ask .now
        let draw ← ask (.draw .pointEntry)
        let written ← attempt <| .tournaments <|
          .setStatus id tournament.status change.status winner awards now draw
        match written with
        | .ok true => load id
        | .ok false | .error .foreignKeyViolation => statusMoved id change
        | .error error => fail (.ofStorage error)) world (Clicks id change db) := by
  refine stands_bind Clicked.refl (stands_ask.mpr ?_)
  rintro asked to_asked instant timed ⟨done, clock, ⟨rfl, done_eq⟩, clock_le, rfl⟩
  obtain rfl : done = asked := done_eq
  have ticked : Clicked id change db done { done with clock } := .ticks _ _ clock_le
  refine ⟨ticked, fun middle to_middle => ?_⟩
  have to_timed := Clicked.trans _ _ _ (.trans _ _ _ to_asked ticked) to_middle
  refine stands_bind Clicked.refl (stands_ask.mpr ?_)
  rintro drawing to_drawing draw drawn ⟨drawn, clock', ⟨injective, fresh, drawn_eq⟩, clock_le', rfl⟩
  obtain rfl : drawn = drawing := drawn_eq
  have ticked' : Clicked id change db drawn { drawn with clock := clock' } := .ticks _ _ clock_le'
  refine ⟨ticked', fun last to_last => ?_⟩
  have to_drawn := Clicked.trans _ _ _ to_timed to_drawing
  have to_here := Clicked.trans _ _ _ (.trans _ _ _ to_drawn ticked') to_last
  refine stands_written found readable tournament_eq other nobody (to_here.seen seen)
    (fun unwritten => ?_) (toMicros_pos_iff.mpr (to_asked.clock le)) injective
    fun entry member index same => ?_
  · exact plan (to_here.unwritten seen unwritten)
  · exact fresh index (same ▸ to_drawn.used _ (entries_used entry member))

theorem stands_changeStatus (start : world.db = db) (nobody : change.winner = none)
    (entries_used : ∀ entry ∈ db.pointEntries, entry.id.uuid ∈ world.used)
    (le : World.earliest ≤ world.clock) :
    Stands (Clicked id change db) (changeStatus id change) world (Clicks id change db) := by
  have seen : Seen id change db world := Or.inl start
  rw [changeStatus]
  refine stands_bind Clicked.refl (stands_load fun later reached to_later to_reached => ?_)
  have reached_seen := to_reached.seen (to_later.seen seen)
  rcases to_later.seen seen with unwritten | wrote
  · rw [unwritten]
    rcases loaded_cases id db with ⟨row, found, readable, answered⟩ | ⟨error, failed, unreadable⟩
    · rw [answered]
      dsimp only
      have status_eq : (tournamentOf db row).status = row.status := rfl
      rw [nobody, status_eq]
      by_cases there : row.status = change.status
      · rw [if_pos ⟨there, rfl⟩]
        refine stands_pure.mpr fun final to_final => ?_
        have never : ¬∃ row winner awards, Feasible id change db row winner awards := by
          rintro ⟨other, winner, awards, feasible⟩
          obtain rfl := Option.some.inj (found.symm.trans feasible.found)
          exact feasible.other there
        exact
          { ok_iff := iff_of_true ⟨_, rfl⟩ (Or.inl ⟨row, found, readable, there⟩)
            wrote := fun feasible => absurd feasible never
            unwritten := fun _ => (to_final.seen reached_seen).resolve_right
              fun wrote => never wrote.feasible }
      · rw [if_neg fun same => there same.1]
        refine stands_bind Clicked.refl (Stands.mono
          ((stands_planTransition reached_seen found nobody).reached Clicked.trans) ?_)
        rintro result planned_at ⟨to_planned, plan, plan_after⟩
        have planned_seen := to_planned.seen reached_seen
        cases result with
        | error error =>
            refine fun final to_final => clicks_never found ?_ (to_final.seen planned_seen) ?_
            · rintro stored stored_eq -
              obtain rfl := Option.some.inj stored_eq
              exact there
            · rintro ⟨other, winner, awards, feasible⟩
              obtain rfl := Option.some.inj (found.symm.trans feasible.found)
              rcases planned_seen with unplanned | wrote
              · cases (plan unplanned).trans feasible.plan
              · obtain ⟨_, impossible⟩ := plan_after wrote
                cases impossible
        | ok pair =>
            have to_here := Clicked.trans _ _ _ (.trans _ _ _ to_later to_reached) to_planned
            exact stands_write found readable rfl there nobody planned_seen
              (fun unplanned => (plan unplanned).symm)
              (fun entry member => to_here.used _ (entries_used entry member)) (to_here.clock le)
    · -- No read knows the row, and none of the two clicks gets past it.
      rw [failed]
      refine fun final to_final => clicks_never rfl
        (fun stored found readable => absurd readable (unreadable stored found))
        (to_final.seen reached_seen) ?_
      rintro ⟨row, winner, awards, feasible⟩
      exact unreadable row feasible.found feasible.readable
  · obtain ⟨fresh, fresh_found, readable, status⟩ := wrote.found
    rw [loaded_of_found fresh_found readable]
    dsimp only
    rw [nobody, if_pos ⟨status, rfl⟩]
    refine stands_pure.mpr fun final to_final => clicks_after ?_
    rw [(Clicked.trans _ _ _ to_reached to_final).same wrote]
    exact wrote

end Clicked

/-! ## Two clicks -/

/-- The database, but for the identifiers and the instants of the ledger's entries. -/
def Database.unstamped (db : Database) : Database :=
  { db with pointEntries := db.pointEntries.map fun row => { row with id := ⟨0⟩, createdAt := 0 } }

theorem awardRows_unstamped (source : AwardSource) (instant : Instant) (draw : Nat → PointEntryId)
    (index : Nat) (awards : List Award) :
    (awardRows source instant draw index awards).map
        (fun row => { row with id := ⟨0⟩, createdAt := 0 }) =
      awards.map fun award => { awardRow source 0 ⟨0⟩ award with createdAt := 0 } := by
  induction awards generalizing index with
  | nil => rfl
  | cons award awards ih => rw [awardRows, List.map_cons, List.map_cons, ih]; rfl

/-- Two databases that one move leaves behind differ in what it drew alone. -/
theorem Wrote.unstamped_eq {id : TournamentId} {change : StatusChange} {db left right : Database}
    (wrote : Wrote id change db left) (other : Wrote id change db right) :
    left.unstamped = right.unstamped := by
  obtain ⟨row, winner, awards, feasible⟩ := wrote.feasible
  obtain ⟨instant, draw, rfl⟩ := wrote.eq feasible
  obtain ⟨instant', draw', rfl⟩ := other.eq feasible
  simp only [Database.unstamped, List.map_append, awardRows_unstamped]

section Clicks

variable {world after alone : World} {id : TournamentId} {change : StatusChange}

theorem Clicks.unstamped_eq {result other : Except ServiceError Tournament} {db : Database}
    (clicks : Clicks id change db result after) (single : Clicks id change db other alone) :
    after.db.unstamped = alone.db.unstamped := by
  by_cases feasible : ∃ row winner awards, Feasible id change db row winner awards
  · exact (clicks.wrote feasible).unstamped_eq (single.wrote feasible)
  · rw [clicks.unwritten feasible, single.unwritten feasible]

/-- Two equal clicks side by side, in any order of their calls, leave behind what one click alone
leaves, and both answer a tournament exactly when it does. -/
theorem changeStatus_twice (nobody : change.winner = none)
    (entries_used : ∀ entry ∈ world.db.pointEntries, entry.id.uuid ∈ world.used)
    (le : World.earliest ≤ world.clock) {result first second : Except ServiceError Tournament}
    (single : (changeStatus id change).Answers world result alone)
    (double : Service.Beside (changeStatus id change) (changeStatus id change) world first second
      after) :
    after.db.unstamped = alone.db.unstamped ∧
      ((∃ tournament, first = .ok tournament) ↔ ∃ tournament, result = .ok tournament) ∧
      ((∃ tournament, second = .ok tournament) ↔ ∃ tournament, result = .ok tournament) := by
  have stands : Stands (Clicked id change world.db) (changeStatus id change) world
      (Clicks id change world.db) := stands_changeStatus rfl nobody entries_used le
  have one := Program.Robust.runs stands Clicked.refl single
  obtain ⟨left, right⟩ := Program.Beside.robust double Clicked.refl Clicked.trans stands stands
  exact ⟨left.unstamped_eq one, left.ok_iff.trans one.ok_iff.symm,
    right.ok_iff.trans one.ok_iff.symm⟩

end Clicks

namespace Cup

/-- The tournament live, with the one account in. -/
def playing : World where
  db := { lobby.db with
    tournaments := [{ openRow with status := .live }]
    tournamentEntrants := [⟨⟨20⟩, id, some ⟨1⟩, none, 2, none⟩] }
  clock := lobby.clock
  used := [1, 10, 20]

end Cup

/-- Two clicks that both read the tournament live conclude it and pay its entrant one time. -/
theorem changeStatus_twice_playing : ∃ first second after,
    Service.Beside (changeStatus Cup.id ⟨.concluded, none⟩) (changeStatus Cup.id ⟨.concluded, none⟩)
        Cup.playing (.ok first) (.ok second) after ∧
      after.db.pointEntries.map PointRow.award =
        [⟨⟨1⟩, entryCycles, .tournamentEntry, Cup.id.toText⟩] := by
  have feasible : Feasible Cup.id ⟨.concluded, none⟩ Cup.playing.db
      { Cup.openRow with status := .live } none
      [⟨⟨1⟩, entryCycles, .tournamentEntry, Cup.id.toText⟩] := by
    refine ⟨rfl, by decide, by decide, rfl,
      ⟨⟨_, List.mem_singleton_self _, rfl, rfl⟩, Or.inl rfl, rfl, ?_⟩⟩
    refine ⟨fun award member => ?_, fun award member => ?_, fun _ _ _ other => ?_,
      List.nodup_singleton _⟩
    · obtain rfl := List.mem_singleton.mp member
      decide
    · obtain rfl := List.mem_singleton.mp member
      decide
    · cases other
  have no_entries : ∀ entry ∈ Cup.playing.db.pointEntries, entry.id.uuid ∈ Cup.playing.used :=
    fun entry member => absurd member List.not_mem_nil
  have le : World.earliest ≤ Cup.playing.clock := by decide
  set click := changeStatus Cup.id ⟨.concluded, none⟩
  obtain ⟨result, alone, single⟩ := exists_answers click Cup.playing
  -- The first click reads, the second runs whole, and then the first plans on what it read.
  obtain ⟨op, next, reads⟩ : ∃ op next, click = .call op next := ⟨_, _, rfl⟩
  obtain ⟨answer, read, performed⟩ := World.exists_undisturbed op Cup.playing
  obtain ⟨second, written, whole⟩ := exists_answers click read
  obtain ⟨first, after, rest⟩ := exists_answers (next answer) written
  have double : Service.Beside click click Cup.playing first second after := by
    nth_rewrite 1 [reads]
    exact .left performed (Program.Runs.beside whole rest)
  have one : Clicks Cup.id ⟨.concluded, none⟩ Cup.playing.db result alone :=
    Program.Robust.runs (stands_changeStatus rfl rfl no_entries le) Clicked.refl single
  obtain ⟨same, first_ok, second_ok⟩ := changeStatus_twice rfl no_entries le single double
  have single_ok : ∃ tournament, result = .ok tournament :=
    one.ok_iff.mpr (Or.inr ⟨_, _, _, feasible⟩)
  obtain ⟨concluded, rfl⟩ := first_ok.mpr single_ok
  obtain ⟨again, rfl⟩ := second_ok.mpr single_ok
  refine ⟨concluded, again, after, double, ?_⟩
  have awards_of : ∀ db : Database, db.pointEntries.map PointRow.award =
      db.unstamped.pointEntries.map PointRow.award := by
    intro db
    rw [Database.unstamped, List.map_map]
    rfl
  obtain ⟨instant, draw, alone_eq⟩ := (one.wrote ⟨_, _, _, feasible⟩).eq feasible
  rw [awards_of, same, ← awards_of, alone_eq]
  exact awardRows_award _ _ _ _ _

end LanBunker
