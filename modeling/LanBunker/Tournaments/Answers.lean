import LanBunker.Tournaments.Final

/-!
# The bracket a result answers with

A request that enters or clears a result answers with the bracket it computed from its read.  The
write checks only the rows that changed, so the answer is the stored bracket exactly if the matches
stored at the write are the matches that were read.
-/

namespace LanBunker

open Interleaving Service TournamentStorage

/-! ## What a request answers with -/

/-- The calls of a request that entered or cleared a result, and the bracket they leave it with. -/
def Entered (past : Past) (id : TournamentId) (call : Bracket.Call) (returned : Bracket) : Prop :=
  ∃ tournament rows read changed,
    past =
      [⟨.store (.tournaments (.get id)), .ok (some tournament)⟩,
        ⟨.store (.tournaments (.matchesOf id)), .ok rows⟩,
        ⟨.store (.tournaments (.updateMatches tournament.id tournament.status
          (changePairs read changed))), .ok true⟩] ∧
      bracketOf rows = .ok (some read) ∧ read.result call = (.ok changed, returned)

/-- What a request answers with, where it enters or clears a result. -/
def AnswersResult (request : Request) (response : Response) (past : Past) : Prop :=
  ∀ id call returned, request.result? = some (id, call) → response = .ok (.bracket returned) →
    Entered past id call returned

namespace TournamentService

variable {id : TournamentId}

theorem yields_reportResult (matchId : MatchId) (winner : EntrantId) :
    Yields (May (.reportResult id matchId winner)) [] (reportResult id matchId winner)
      fun returned past => Entered past id (.report matchId winner) returned := by
  rw [reportResult, yields_bind]
  refine yields_loadOpenBracket fun tournament rows read not_concluded read_eq => ?_
  have requested : (Request.reportResult id matchId winner).result? =
      some (id, .report matchId winner) := rfl
  exact yields_writeCall requested not_concluded (by simp [Past.Read]) (by simp [Past.Read])
    read_eq fun changed _ called => ⟨tournament, rows, read, changed, rfl, read_eq, called⟩

theorem yields_clearResult (matchId : MatchId) :
    Yields (May (.clearResult id matchId)) [] (clearResult id matchId)
      fun returned past => Entered past id (.clear matchId) returned := by
  rw [clearResult, yields_bind]
  refine yields_loadOpenBracket fun tournament rows read not_concluded read_eq => ?_
  have requested : (Request.clearResult id matchId).result? = some (id, .clear matchId) := rfl
  exact yields_writeCall requested not_concluded (by simp [Past.Read]) (by simp [Past.Read])
    read_eq fun changed _ called => ⟨tournament, rows, read, changed, rfl, read_eq, called⟩

end TournamentService

/-- A service that answers with a bracket. -/
private theorem follows_entered {request : Request} {service : Service Bracket}
    {source : TournamentId} {call : Bracket.Call}
    (requested : request.result? = some (source, call))
    (yields : Yields (May request) [] service fun returned past =>
      Entered past source call returned) :
    (service.answering .bracket).Follows (May request) [] (AnswersResult request) := by
  refine Program.follows_bind.mpr (Program.Follows.mono yields fun result past holds => ?_)
  intro id other returned same answered
  obtain ⟨rfl, rfl⟩ := Prod.mk.inj (Option.some.inj (requested.symm.trans same))
  cases result with
  | ok bracket =>
      obtain rfl := Payload.bracket.inj (Except.ok.inj answered)
      exact holds bracket rfl
  | error error => cases answered

theorem serve_answersResult (request : Request) :
    request.serve.Follows (May request) [] (AnswersResult request) := by
  cases requested : request.result? with
  | none =>
      refine Program.Follows.mono (serve_follows request) fun response past _ => ?_
      intro id call returned same
      rw [requested] at same
      cases same
  | some result =>
      cases request with
      | reportResult id matchId winner =>
          exact follows_entered rfl (TournamentService.yields_reportResult matchId winner)
      | clearResult id matchId =>
          exact follows_entered rfl (TournamentService.yields_clearResult matchId)
      | _ => cases requested

/-- The discipline of results. -/
def resultDiscipline : Discipline bunker where
  may := May
  answers := AnswersResult
  follows := serve_answersResult

/-! ## The answer and the stored bracket -/

section Answer

variable {id : TournamentId} {used used' used'' : List Nat} {board later : Board}
  {order : List EntrantId} {bracket read returned : Bracket} {db after : Database}

/-- A later read finds the bracket a board holds exactly if it finds its rows. -/
theorem Board.Holds.bracketOf_eq_iff (holds : board.Holds id order bracket)
    (ok : later.Ok used id) :
    bracketOf later.matchList = .ok (some bracket) ↔ later.rows = board.rows := by
  constructor
  · intro found
    rcases ok.bracketOf_matchList with
      ⟨-, none_found⟩ | ⟨other_order, other, later_holds, some_found⟩
    · rw [none_found] at found
      cases found
    · rw [some_found] at found
      obtain rfl := Option.some.inj (Except.ok.inj found)
      rw [holds.2.2, later_holds.2.2]
  · intro same
    rw [matchList_of_rows same]
    exact holds.bracketOf_matchList

/-- The rows of a bracket tell it from every other. -/
theorem Board.Holds.eq_of_rows (holds : board.Holds id order bracket) {seeded : List EntrantId}
    (coherent : read.Coherent seeded) (rows : board.rows = read.flat.map (MatchRow.ofMatch id)) :
    bracket = read := by
  have flats : bracket.flat = read.flat := by
    rw [holds.2.2] at rows
    have undone := congrArg (List.map MatchRow.toMatch) rows
    rw [List.map_map, List.map_map] at undone
    exact (List.map_id' _).symm.trans (undone.trans (List.map_id' _))
  have whole := holds.1.coherent.fromMatches_flat
  rw [flats, coherent.fromMatches_flat] at whole
  exact (Except.ok.inj whole).symm

/-- The bracket computed from the read is the one stored after the write exactly if the rows at the
write are the rows that were read. -/
theorem answer_eq_stored_iff {expected : TournamentStatus} {call : Bracket.Call}
    {changed : List Match}
    (resulted : Resulted id expected (changePairs read changed) db after)
    (ok : (db.board id).Ok used' id) (after_ok : (after.board id).Ok used'' id)
    (read_ok : board.Ok used id) (read_holds : board.Holds id order read)
    (stands : Board.Later used id board (db.board id))
    (called : read.result call = (.ok changed, returned)) :
    bracketOf (after.board id).matchList = .ok (some returned) ↔
      (db.board id).rows = board.rows := by
  by_cases some_change : changed = []
  · subst some_change
    obtain rfl : returned = read := by
      rcases Bracket.result_cases read call with
        ⟨error, refused⟩ | nothing | ⟨round, slot, m, winner, -, enterable, -, entered⟩
      · rw [refused] at called
        cases called
      · exact (congrArg Prod.snd (nothing.symm.trans called)).symm
      · have changed_eq := congrArg Prod.fst (entered.symm.trans called)
        rw [Bracket.changed_enter enterable.found] at changed_eq
        cases changed_eq
    -- Nothing changed, so nothing was checked and nothing is written.
    have same : after = db := resulted.after_eq
    rw [same]
    exact read_holds.bracketOf_eq_iff ok
  · obtain ⟨stored_order, stored, round, slot, m, winner, holds, id_eq, enterable, enters, entered,
      here, next_eq⟩ := resulted_stored resulted ok read_ok read_holds stands
        (congrArg Prod.fst called) some_change
    obtain rfl : returned = read.enter round slot winner :=
      congrArg Prod.snd (called.symm.trans entered)
    obtain ⟨other_order, other, other_holds, -, rows_eq⟩ :=
      resulted_board resulted ok read_ok read_holds stands (congrArg Prod.fst called) some_change
    obtain rfl : stored = other :=
      holds.eq_of_rows other_holds.1.coherent other_holds.2.2
    have redone := Bracket.redo holds.1.distinctIds id_eq enterable enters here next_eq
    have found : bracketOf (after.board id).matchList =
        .ok (some (stored.enter round slot winner)) := by
      rcases after_ok.bracketOf_matchList with ⟨no_rows, -⟩ | ⟨after_order, after_bracket,
        after_holds, found⟩
      · rw [no_rows] at rows_eq
        exact absurd (List.map_eq_nil_iff.mp rows_eq.symm) (holds.1.coherent.play call).flat_ne_nil
      · rw [found, after_holds.eq_of_rows (holds.1.coherent.play call) rows_eq, Bracket.play_eq,
          redone]
    rw [found]
    constructor
    · intro same
      obtain rfl : stored = read := Bracket.enter_inj (here.trans enterable.found.symm)
        next_eq.symm (Option.some.inj (Except.ok.inj same))
      rw [holds.2.2, read_holds.2.2]
    · intro same
      rw [holds.eq_of_rows read_holds.1.coherent (same.trans read_holds.2.2)]

end Answer

/-! ## Every answer of a run -/

/-- The read and the write of a request that entered or cleared a result, in a trace. -/
structure ResultCalls (name : Nat) (request : Request) (id : TournamentId)
    (trace : List (Moment bunker)) where
  before : List (Moment bunker)
  read : Moment bunker
  between : List (Moment bunker)
  write : Moment bunker
  after : List (Moment bunker)
  trace_eq : trace = before ++ read :: (between ++ write :: after)
  read_label : ∃ past rows,
    read.label = .call name request past (.store (.tournaments (.matchesOf id))) (.ok rows)
  write_label : ∃ past expected changes,
    write.label =
      .call name request past (.store (.tournaments (.updateMatches id expected changes)))
        (.ok true)

namespace ResultCalls

variable {name : Nat} {request : Request} {id : TournamentId} {trace : List (Moment bunker)}
  (calls : ResultCalls name request id trace)

/-- The board the matches were read from. -/
def shown : Board := calls.read.before.db.board id

/-- The board the write found. -/
def found : Board := calls.write.before.db.board id

/-- The board the write left. -/
def stored : Board := calls.write.after.db.board id

/-- No step between the read and the write changed a match of the tournament. -/
def Undisturbed : Prop :=
  ∀ moment ∈ calls.between,
    (moment.after.db.board id).rows = (moment.before.db.board id).rows

theorem read_mem : calls.read ∈ trace := by simp [calls.trace_eq]

theorem write_mem : calls.write ∈ trace := by simp [calls.trace_eq]

/-- The read itself writes nothing. -/
theorem read_db {clock : Instant} {here : Config bunker}
    (run : Run (Config.quiet (World.initial clock)) trace here) :
    calls.read.after.db = calls.read.before.db := by
  obtain ⟨past, rows, label⟩ := calls.read_label
  exact (congrArg Prod.snd (observed run calls.read_mem label).called).symm

/-- The write finds what the read showed where no step between them changed it. -/
theorem Undisturbed.rows_eq {clock : Instant} {here : Config bunker}
    (run : Run (Config.quiet (World.initial clock)) trace here)
    {calls : ResultCalls name request id trace} (undisturbed : calls.Undisturbed) :
    calls.found.rows = calls.shown.rows := by
  have same_db := calls.read_db run
  rw [calls.trace_eq] at run
  obtain ⟨_, first, -, read_step, rest⟩ := run.at_moment
  obtain ⟨second, _, between, write_step, -⟩ := rest.at_moment
  let same_rows : bunker.State → bunker.State → Prop := fun world later =>
    (Database.board (World.db later) id).rows = (Database.board (World.db world) id).rows
  have refl : ∀ world, same_rows world world := fun world => rfl
  have trans : ∀ {one two three}, same_rows one two → same_rows two three →
      same_rows one three := fun early late => Eq.trans late early
  have kept := between.related refl trans undisturbed
  rw [← read_step.after_eq, ← write_step.before_eq] at kept
  change (calls.write.before.db.board id).rows = (calls.read.after.db.board id).rows at kept
  rw [same_db] at kept
  exact kept

end ResultCalls

section Run

variable {clock : Instant} {first last : List (Moment bunker)} {reply : Moment bunker}
  {stop : Config bunker} {name : Nat} {request : Request} {id : TournamentId}
  {call : Bracket.Call} {past : Past} {returned : Bracket}

/-- A reply with a bracket made its read and then its write. -/
theorem exists_resultCalls
    (run : Run (Config.quiet (World.initial clock)) (first ++ reply :: last) stop)
    (requested : request.result? = some (id, call))
    (label : reply.label = .reply name request past (.ok (.bracket returned))) :
    ∃ (calls : ResultCalls name request id first) (expected : TournamentStatus)
      (read : Bracket) (changed : List Match),
      bracketOf calls.shown.matchList = .ok (some read) ∧
      read.result call = (.ok changed, returned) ∧
      Resulted id expected (changePairs read changed) calls.write.before.db
        calls.write.after.db := by
  have reply_mem : reply ∈ first ++ reply :: last := by simp
  have sound := resultDiscipline.sound run reply reply_mem
  simp only [Discipline.Sound, label] at sound
  obtain ⟨tournament, rows, read, changed, rfl, read_eq, called⟩ := sound.2 id call returned
    requested rfl
  have replied : reply.label.caller = some (name, request,
      [⟨.store (.tournaments (.get id)), .ok (some tournament)⟩,
        ⟨.store (.tournaments (.matchesOf id)), .ok rows⟩] ++
        [⟨.store (.tournaments (.updateMatches tournament.id tournament.status
          (changePairs read changed))), .ok true⟩]) := by
    rw [label]
    rfl
  obtain ⟨front, write, after, rfl, write_label⟩ := run.last_call replied
  have wrote : write.label.caller = some (name, request,
      [⟨.store (.tournaments (.get id)), .ok (some tournament)⟩] ++
        [⟨.store (.tournaments (.matchesOf id)), .ok rows⟩]) := by
    rw [write_label]
    rfl
  have write_mem : write ∈ (front ++ write :: after) ++ reply :: last := by simp
  have writes := observed run write_mem write_label
  have short := run
  rw [List.append_assoc, List.cons_append] at short
  obtain ⟨front, matches_read, between, rfl, read_label⟩ := short.last_call wrote
  have listed : matches_read.label.caller = some (name, request,
      [] ++ [⟨.store (.tournaments (.get id)), .ok (some tournament)⟩]) := by
    rw [read_label]
    rfl
  have read_mem : matches_read ∈
      ((front ++ matches_read :: between) ++ write :: after) ++ reply :: last := by simp
  have reads := observed run read_mem read_label
  rw [List.append_assoc, List.cons_append] at short
  obtain ⟨before, loaded, middle, rfl, loaded_label⟩ := short.last_call listed
  have loaded_mem : loaded ∈ (((before ++ loaded :: middle) ++ matches_read :: between) ++
      write :: after) ++ reply :: last := by simp
  have loads := observed run loaded_mem loaded_label
  obtain ⟨row, -, rfl, row_id⟩ := get_answer (congrArg Prod.fst loads.called)
  have same_id : (tournamentOf loaded.before.db row).id = id := row_id
  rw [same_id] at write_label writes
  rcases updateMatches_cases writes.called with ⟨-, resulted⟩ | ⟨-, refused⟩
  · obtain rfl := matches_answer (congrArg Prod.fst reads.called)
    exact ⟨⟨before ++ loaded :: middle, matches_read, between, write, after, by simp,
      ⟨_, _, read_label⟩, ⟨_, _, _, write_label⟩⟩, _, read, changed, read_eq, called, resulted⟩
  · exact absurd rfl refused

end Run

/-- In every run a request that enters or clears a result answers with the bracket that is stored
right after its write exactly if its write found the matches it had read.  It did if no step
between its read and its write changed a match of the tournament. -/
theorem answer_stored_iff {clock : Instant} {first last : List (Moment bunker)}
    {reply : Moment bunker} {stop : Config bunker}
    (run : Run (Config.quiet (World.initial clock)) (first ++ reply :: last) stop) {name : Nat}
    {request : Request} {id : TournamentId} {call : Bracket.Call} {past : Past}
    {returned : Bracket} (requested : request.result? = some (id, call))
    (label : reply.label = .reply name request past (.ok (.bracket returned))) :
    ∃ calls : ResultCalls name request id first,
      (bracketOf calls.stored.matchList = .ok (some returned) ↔
        calls.found.rows = calls.shown.rows) ∧
      (calls.Undisturbed → bracketOf calls.stored.matchList = .ok (some returned)) := by
  obtain ⟨calls, expected, read, changed, read_eq, called, resulted⟩ :=
    exists_resultCalls run requested label
  obtain ⟨here, front, -⟩ := run.split
  have read_along := (boards_along front).2 calls.read calls.read_mem
  have write_along := (boards_along front).2 calls.write calls.write_mem
  have same_db := calls.read_db front
  have relies : calls.read.after.Relies calls.write.before := by
    have pairwise := boards_pairwise front
    rw [calls.trace_eq] at pairwise
    exact List.rel_of_pairwise_cons (List.pairwise_append.mp pairwise).2.1 (by simp)
  have read_ok := read_along.after.boards id
  rw [same_db] at read_ok
  have stands := relies.2 id
  rw [same_db] at stands
  have agrees : bracketOf calls.stored.matchList = .ok (some returned) ↔
      calls.found.rows = calls.shown.rows := by
    rcases (read_along.before.boards id).bracketOf_matchList with
      ⟨-, none_found⟩ | ⟨order, other, read_holds, found⟩
    · have impossible := none_found.symm.trans read_eq
      cases impossible
    · obtain rfl := Option.some.inj (Except.ok.inj (found.symm.trans read_eq))
      exact answer_eq_stored_iff resulted (write_along.before.boards id)
        (write_along.after.boards id) read_ok read_holds stands called
  exact ⟨calls, agrees, fun undisturbed => agrees.mpr (undisturbed.rows_eq front)⟩

/-- A step that reads the matches of a tournament, for this request. -/
def readsMatches? (moment : Moment bunker) : Option Nat :=
  match moment.label with
  | .call name _ _ (.store (.tournaments (.matchesOf _))) _ => some name
  | _ => none

/-- A step that commits results, for this request. -/
def commits? (moment : Moment bunker) : Option Nat :=
  match moment.label with
  | .call name _ _ (.store (.tournaments (.updateMatches _ _ _))) (.ok true) => some name
  | _ => none

/-- A request commits once, and after it read the matches nothing else changes them. -/
def aloneAfterRead (id : TournamentId) (name : Nat) (moments : List (Moment bunker)) : Bool :=
  (moments.countP fun moment => commits? moment = some name) = 1 ∧
    ∀ moment ∈ (moments.dropWhile fun moment => readsMatches? moment ≠ some name).tail,
      commits? moment = some name ∨
        (moment.after.db.board id).rows = (moment.before.db.board id).rows

theorem ResultCalls.undisturbed_of_alone {name : Nat} {request : Request} {id : TournamentId}
    {trace : List (Moment bunker)} (calls : ResultCalls name request id trace)
    (alone : aloneAfterRead id name trace = true) : calls.Undisturbed := by
  have hits : readsMatches? calls.read = some name := by
    obtain ⟨past, rows, label⟩ := calls.read_label
    simp only [readsMatches?, label]
  have writes : commits? calls.write = some name := by
    obtain ⟨past, expected, changes, label⟩ := calls.write_label
    simp only [commits?, label]
  obtain ⟨once, kept⟩ := of_decide_eq_true alone
  rw [calls.trace_eq] at once kept
  intro moment member
  refine (kept moment (Run.mem_tail_dropWhile (by simp [hits]) (by simp [member]))).resolve_left ?_
  -- The write of the request comes later, and it is the only one.
  intro commits
  have early : 0 < calls.between.countP fun moment => commits? moment = some name :=
    List.countP_pos_iff.mpr ⟨moment, member, decide_eq_true commits⟩
  simp only [List.countP_append, List.countP_cons, writes, decide_true, if_true] at once
  omega

/-- The last step answers a report with a bracket, and the request was alone. -/
def reportedAlone (trace : List (Moment bunker)) : Bool :=
  trace.getLast?.any fun reply =>
    match reply.label with
    | .reply name (.reportResult id _ _) _ (.ok (.bracket _)) =>
        aloneAfterRead id name trace.dropLast
    | _ => false

set_option maxRecDepth 10000 in
/-- Somebody signs up while the final of the cup is reported. -/
theorem answer_stored_iff_cup :
    ∃ first reply stop, Run Cup.start (first ++ [reply]) stop ∧
      ∃ name id matchId winner past returned,
        reply.label =
          .reply name (.reportResult id matchId winner) past (.ok (.bracket returned)) ∧
        ∃ calls : ResultCalls name (.reportResult id matchId winner) id first,
          bracketOf calls.stored.matchList = .ok (some returned) := by
  obtain ⟨trace, stop, run, tested⟩ := bunkerScript.exists_run Cup.start
    (Cup.drawn ++ bunkerScript.alone 0 2 (.reportResult Cup.id ⟨31⟩ ⟨21⟩) {} ++
      bunkerScript.alone 1 4 (.signup ⟨['c', 'c', 'c'], by decide, by simp, by simp⟩ "")
        { uuid := 3 } ++
      List.replicate 2 (.advance 0 {}))
    (fun trace _ => reportedAlone trace) (by decide +kernel)
  obtain ⟨reply, last, tested⟩ := (Option.any_eq_true _ _).mp tested
  rw [← List.dropLast_append_getLast? reply last] at run
  split at tested
  · rename_i name id matchId winner past returned label
    obtain ⟨calls, -, stored⟩ := answer_stored_iff run rfl label
    exact ⟨trace.dropLast, reply, stop, run, name, id, matchId, winner, past, returned, label,
      calls, stored (calls.undisturbed_of_alone tested)⟩
  · cases tested

/-- A report wrote its result, and was answered with a bracket that was not stored then. -/
def apart (write reply : Moment bunker) : Bool :=
  match write.label, reply.label with
  | .call name (.reportResult id matchId winner) _
        (.store (.tournaments (.updateMatches written _ _))) (.ok true),
      .reply answered (.reportResult id' matchId' winner') _ (.ok (.bracket returned)) =>
    decide ((id, id, name, matchId, winner) = (written, id', answered, matchId', winner') ∧
      bracketOf (write.after.db.board id).matchList ≠ .ok (some returned))
  | _, _ => false

theorem apart_eq_true {write reply : Moment bunker} (tested : apart write reply = true) :
    ∃ name id matchId winner past expected changes whole returned,
      write.label =
        .call name (.reportResult id matchId winner) past
          (.store (.tournaments (.updateMatches id expected changes))) (.ok true) ∧
      reply.label =
        .reply name (.reportResult id matchId winner) whole (.ok (.bracket returned)) ∧
      bracketOf (write.after.db.board id).matchList ≠ .ok (some returned) := by
  rw [apart] at tested
  split at tested
  · rename_i name id matchId winner past written expected changes answered id' matchId' winner'
      whole returned write_label reply_label
    obtain ⟨same, differs⟩ := of_decide_eq_true tested
    simp only [Prod.mk.injEq] at same
    obtain ⟨rfl, rfl, rfl, rfl, rfl⟩ := same
    exact ⟨name, id, matchId, winner, past, expected, changes, whole, returned, write_label,
      reply_label, differs⟩
  · cases tested

namespace Cup

/-- The players 1 to 5 are the entrants 21 to 25 of a live tournament.  Its matches are 31 to 37:
34 is the match of round one that is played, and 35 already has both sides. -/
def five : List bunkerScript.Command :=
  entered ++ signup 'c' (by decide) 3 ++ signup 'd' (by decide) 4 ++ signup 'e' (by decide) 5 ++
    alone 7 (.addEntrant id ⟨3⟩ none) 23 ++ alone 7 (.addEntrant id ⟨4⟩ none) 24 ++
    alone 7 (.addEntrant id ⟨5⟩ none) 25 ++ alone 7 (.generateBracket id) 31

end Cup

set_option maxRecDepth 20000 in
/-- One admin reports match 35 and has read the bracket, another reports match 34 from start to
end, and then the first writes. -/
theorem not_answer_stored :
    ∃ trace stop, Run Cup.start trace stop ∧ ∃ write ∈ trace, ∃ reply ∈ trace,
      ∃ name id matchId winner past expected changes whole returned,
        write.label =
          .call name (.reportResult id matchId winner) past
            (.store (.tournaments (.updateMatches id expected changes))) (.ok true) ∧
        reply.label =
          .reply name (.reportResult id matchId winner) whole (.ok (.bracket returned)) ∧
        bracketOf (write.after.db.board id).matchList ≠ .ok (some returned) := by
  obtain ⟨trace, stop, run, tested⟩ := bunkerScript.exists_run Cup.start
    (Cup.five ++ bunkerScript.alone 0 2 (.reportResult Cup.id ⟨35⟩ ⟨21⟩) {} ++
      bunkerScript.alone 1 4 (.reportResult Cup.id ⟨34⟩ ⟨24⟩) {} ++
      List.replicate 2 (.advance 0 {}))
    (fun trace _ => trace.any fun write => trace.any fun reply => apart write reply)
    (by decide +kernel)
  obtain ⟨write, write_mem, tested⟩ := List.any_eq_true.mp tested
  obtain ⟨reply, reply_mem, tested⟩ := List.any_eq_true.mp tested
  exact ⟨trace, stop, run, write, write_mem, reply, reply_mem, apart_eq_true tested⟩

end LanBunker
