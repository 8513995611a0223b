import LanBunker.Points.Awards
import LanBunker.Tournaments.Runs

/-!
# What a conclusion was computed from

The winner and the awards of a conclusion are computed from the entrants and the matches that its
request read, and the write checks the status alone.  Where both are still stored, the conclusion
agrees with them.  Where a result was cleared or an entrant was added since, it does not.
-/

namespace LanBunker

open Interleaving TournamentStorage

/-- The stored entrants of a tournament, with their players. -/
def Database.entrantsOf (db : Database) (id : TournamentId) : List Entrant :=
  (entrantRows id db).map db.toEntrant

/-- A committed conclusion: its tournament, and the winner its request named. -/
def conclusion? (moment : Moment bunker) : Option (TournamentId × Option EntrantId) :=
  match moment.label with
  | .call _ (.changeStatus _ change) _
      (.store (.tournaments (.setStatus id _ .concluded _ _ _ _))) (.ok true) =>
    some (id, change.winner)
  | _ => none

/-- The winner and the ledger after a step are those of the entrants and the bracket that are
stored then. -/
structure Agrees (id : TournamentId) (named : Option EntrantId) (moment : Moment bunker) :
    Prop where
  /-- With matches, the winner is the winner of the final. -/
  winner : ∀ row, (moment.after.db.board id).row = some row →
    (moment.after.db.board id).rows ≠ [] →
      ∃ bracket, bracketOf (moment.after.db.board id).matchList = .ok (some bracket) ∧
        row.winner.isSome ∧ bracket.champion = row.winner
  /-- The entries are the awards. -/
  ledger : ∃ bracket, bracketOf (moment.after.db.board id).matchList = .ok bracket ∧
    ((moment.after.db.board id).ledger.map PointRow.award).Perm
      (tournamentAwards id (moment.after.db.entrantsOf id) bracket named)

/-- A read of the entrants, with their accounts, or of the matches that finds what is stored. -/
def isStored (db : Database) (id : TournamentId) : Entry Op Op.Ans → Bool
  | ⟨.store (.tournaments (.entrants read)), .ok entrants⟩ =>
    read ≠ id ∨
      (entrants.map Entrant.payee).Perm ((db.entrantsOf id).map Entrant.payee)
  | ⟨.store (.tournaments (.matchesOf read)), .ok rows⟩ =>
    read ≠ id ∨ rows = (db.board id).matchList
  | _ => true

/-- What a conclusion was computed from is what is stored when it commits. -/
def isCurrent (moment : Moment bunker) : Bool :=
  match moment.label with
  | .call _ _ past (.store (.tournaments (.setStatus id _ .concluded _ _ _ _))) (.ok true) =>
    past.all (isStored moment.before.db id)
  | _ => true

theorem conclusion?_eq_some {moment : Moment bunker} {id : TournamentId}
    {named : Option EntrantId} (found : conclusion? moment = some (id, named)) :
    ∃ name source_id change past source winner awards instant draw,
      change.winner = named ∧
      moment.label =
        .call name (.changeStatus source_id change) past
          (.store (.tournaments (.setStatus id source .concluded winner awards instant draw)))
          (.ok true) := by
  simp only [conclusion?] at found
  split at found
  · rename_i label
    obtain ⟨rfl, rfl⟩ := Prod.mk.inj (Option.some.inj found)
    exact ⟨_, _, _, _, _, _, _, _, _, rfl, label⟩
  · cases found

section Stored

variable {db after : Database} {id : TournamentId} {used : List Nat}

/-- A stored entrant, as the awards look at it. -/
theorem payee_entrantsOf (db : Database) (id : TournamentId) :
    (db.entrantsOf id).map Entrant.payee =
      (entrantRows id db).map fun row =>
        (row.id, (row.player.bind db.player?).map PlayerRow.id) := by
  rw [Database.entrantsOf, List.map_map]
  refine List.map_congr_left fun row _ => ?_
  simp only [Function.comp_apply, Entrant.payee, Entrant.account, Database.toEntrant,
    Option.map_map]
  rfl

/-- A status write leaves the entrants and their players alone. -/
theorem payee_of_moved {source target : TournamentStatus} {winner : Option EntrantId}
    {rows : List PointRow} (moved : Moved id source target winner rows db after) :
    (after.entrantsOf id).map Entrant.payee = (db.entrantsOf id).map Entrant.payee := by
  rw [payee_entrantsOf, payee_entrantsOf, moved.paid.after_eq]
  rfl

theorem entrantsOf_nodup (good : db.Good used) :
    ((db.entrantsOf id).map Entrant.id).Nodup := by
  rw [Database.entrantsOf, List.map_map]
  exact good.entrants_nodup id

end Stored

section Run

variable {clock : Instant} {trace : List (Moment bunker)} {stop : Config bunker}

theorem agrees_of_current (run : Run (Config.quiet (World.initial clock)) trace stop)
    {moment : Moment bunker} (member : moment ∈ trace) {id : TournamentId}
    {named : Option EntrantId} (committed : conclusion? moment = some (id, named))
    (current : isCurrent moment) : Agrees id named moment := by
  obtain ⟨name, source_id, change, past, source, winner, awards, instant, draw, rfl, label⟩ :=
    conclusion?_eq_some committed
  obtain ⟨good, lived, ⟨requested, request_eq, target, planned⟩, called⟩ :=
    observed run member label
  obtain ⟨-, rfl⟩ := Request.changeStatus.inj request_eq
  rcases setStatus_cases called with ⟨-, moved⟩ | ⟨-, refused⟩
  · obtain ⟨tournament, loaded, -, ⟨move, -⟩ | ⟨open_source, -, entrants, rows, bracket,
      entrants_read, rows_read, read_eq, computed⟩⟩ := planned
    · rw [← target] at move
      cases source <;> simp [Moves] at move
    · rw [loaded.tournament_id lived] at entrants_read rows_read computed
      simp only [isCurrent, label, List.all_eq_true] at current
      have same_field : (entrants.map Entrant.payee).Perm
          ((moment.before.db.entrantsOf id).map Entrant.payee) := by
        simpa [isStored] using current _ entrants_read
      have rows_eq : rows = (moment.before.db.board id).matchList := by
        simpa [isStored] using current _ rows_read
      obtain ⟨row, row_found, row_status, after_eq⟩ := board_moved good moved
      have open_row : row.status ≠ .concluded := row_status ▸ open_source
      have unpaid := (good.boards id).ledger_of_open row_found open_row
      obtain ⟨awards_eq, conclusion⟩ := concluded_ok computed
      have matches_eq : (moment.after.db.board id).matchList = rows := by
        rw [after_eq]
        exact rows_eq.symm
      refine ⟨fun written written_found some_match => ?_, bracket, ?_, ?_⟩
      · rw [after_eq] at written_found some_match
        obtain rfl := Option.some.inj written_found
        rw [matches_eq]
        rcases conclusion with ⟨drawn, rfl, -, someone, crowned⟩ | ⟨rfl, -, -⟩
        · exact ⟨drawn, read_eq, someone, crowned⟩
        · rcases (good.boards id).bracketOf_matchList with ⟨no_rows, -⟩ | ⟨_, other, -, found⟩
          · exact absurd no_rows some_match
          · rw [← rows_eq, read_eq] at found
            cases found
      · rw [matches_eq]
        exact read_eq
      · rw [after_eq]
        simp only [unpaid, List.nil_append]
        rw [awardRows_award, awards_eq]
        have stored : (entrants.map Entrant.payee).Perm
            ((moment.after.db.entrantsOf id).map Entrant.payee) := by
          rw [payee_of_moved moved]
          exact same_field
        have ids : (entrants.map Entrant.id).Nodup := by
          have firsts := same_field.map Prod.fst
          rw [List.map_map, List.map_map] at firsts
          exact firsts.nodup_iff.mpr (entrantsOf_nodup good)
        exact tournamentAwards_perm stored ids id bracket change.winner
  · exact absurd rfl refused

/-- A conclusion whose reads are still what is stored agrees with it, whatever runs beside it. -/
theorem conclusion_agrees (run : Run (Config.quiet (World.initial clock)) trace stop) :
    ∀ moment ∈ trace, ∀ id named, conclusion? moment = some (id, named) → isCurrent moment →
      Agrees id named moment :=
  fun _ member _ _ committed current => agrees_of_current run member committed current

end Run

set_option maxRecDepth 10000 in
/-- The cup is concluded with the winner of its final. -/
theorem conclusion_agrees_cup :
    ∃ trace stop, Run Cup.start trace stop ∧ ∃ moment ∈ trace,
      conclusion? moment = some (Cup.id, none) ∧ Agrees Cup.id none moment := by
  obtain ⟨trace, stop, run, found⟩ := bunkerScript.exists_run Cup.start
    (Cup.drawn ++ alone 4 (.reportResult Cup.id ⟨31⟩ ⟨21⟩) 0 ++
      alone 8 (.changeStatus Cup.id ⟨.concluded, none⟩) 200)
    (fun trace _ => trace.any fun moment =>
      conclusion? moment = some (Cup.id, none) ∧ isCurrent moment) (by decide +kernel)
  obtain ⟨moment, member, both⟩ := List.any_eq_true.mp found
  obtain ⟨committed, current⟩ := of_decide_eq_true both
  exact ⟨trace, stop, run, moment, member, committed,
    conclusion_agrees run moment member Cup.id none committed current⟩

/-- The final of a board has no winner. -/
def finalUndecided (board : Board) : Bool :=
  match bracketOf board.matchList with
  | .ok (some bracket) => bracket.champion.isNone
  | _ => false

set_option maxRecDepth 10000 in
/-- A conclusion reads the decided final of the cup, the result is cleared, and the conclusion
commits with the winner it read. -/
theorem not_conclusion_agrees :
    ∃ trace stop, Run Cup.start trace stop ∧ ∃ moment ∈ trace,
      conclusion? moment = some (Cup.id, none) ∧ ¬Agrees Cup.id none moment := by
  obtain ⟨trace, stop, run, found⟩ := bunkerScript.exists_run Cup.start
    (Cup.drawn ++ alone 4 (.reportResult Cup.id ⟨31⟩ ⟨21⟩) 0 ++
      bunkerScript.alone 0 5 (.changeStatus Cup.id ⟨.concluded, none⟩) { uuid := 200 } ++
      bunkerScript.alone 1 4 (.clearResult Cup.id ⟨31⟩) {} ++ [.advance 0 {}])
    (fun trace _ => trace.any fun moment =>
      conclusion? moment = some (Cup.id, none) ∧
        (moment.after.db.board Cup.id).row.isSome ∧ (moment.after.db.board Cup.id).rows ≠ [] ∧
          finalUndecided (moment.after.db.board Cup.id)) (by decide +kernel)
  obtain ⟨moment, member, all⟩ := List.any_eq_true.mp found
  obtain ⟨committed, row_there, some_match, undecided⟩ := of_decide_eq_true all
  refine ⟨trace, stop, run, moment, member, committed, fun agrees => ?_⟩
  obtain ⟨row, row_found⟩ := Option.isSome_iff_exists.mp row_there
  obtain ⟨bracket, read, someone, crowned⟩ := agrees.winner row row_found some_match
  have uncrowned : bracket.champion.isNone := by
    rw [finalUndecided, read] at undecided
    exact undecided
  rw [← crowned, Option.isNone_iff_eq_none.mp uncrowned] at someone
  cases someone

end LanBunker
