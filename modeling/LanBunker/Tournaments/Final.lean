import LanBunker.Tournaments.Runs

/-!
# A conclusion is final

Once a conclusion committed, nothing but a deletion of the tournament changes what it left behind,
whatever requests were on their way then.  So it is paid at most once, and whoever saw it concluded
saw the bracket of every other answer that carries the conclusion, and of every request that arrives
later.  A request that read the live tournament may still answer with what it read.
-/

namespace LanBunker

open Interleaving TournamentStorage

/-- A committed conclusion of the tournament. -/
def Concludes (id : TournamentId) (moment : Moment bunker) : Prop :=
  ∃ name request past source winner awards instant draw,
    moment.label =
      .call name request past
        (.store (.tournaments (.setStatus id source .concluded winner awards instant draw)))
        (.ok true)

/-- An answer to a request for the details of the tournament. -/
def Details (id : TournamentId) (shown : TournamentDetail) (moment : Moment bunker) : Prop :=
  ∃ name visibility past,
    moment.label = .reply name (.detail id visibility) past (.ok (.detail shown))

section Shown

variable {past : Past} {world : World} {id : TournamentId} {shown : TournamentDetail}

theorem matchList_of_rows {board other : Board} (same : board.rows = other.rows) :
    board.matchList = other.matchList := by rw [Board.matchList, same, Board.matchList]

/-- A tournament that was shown was there. -/
theorem known_of_shown (lived : boards.Lived past world) (reads : Shown past id shown) :
    id.uuid ∈ world.used := by
  obtain ⟨rows, rfl, -⟩ := reads
  obtain ⟨first, good, answered, relies⟩ := Past.Read.seen List.mem_cons_self lived
  obtain ⟨row, row_found, -⟩ := get_answer answered
  exact relies.1 ((good.boards id).row_used (by simp [row_found]))

/-- A concluded tournament that is still there: its bracket is the one that was shown. -/
theorem bracket_of_shown (lived : boards.Lived past world) (reads : Shown past id shown)
    (concluded : shown.tournament.status = .concluded) (there : (world.db.board id).row.isSome) :
    bracketOf (world.db.board id).matchList = .ok shown.bracket := by
  obtain ⟨rows, rfl, found⟩ := reads
  have split : boards.Lived
      ([⟨.store (.tournaments (.get id)), .ok (some shown.tournament)⟩,
        ⟨.store (.tournaments (.entrants id)), .ok shown.entrants⟩] ++
        [⟨.store (.tournaments (.matchesOf id)), .ok rows⟩]) world := lived
  obtain ⟨read, after, lived, good, ⟨-, stored⟩ | ⟨busy, -⟩, late⟩ := split.last
  · have status_read : Past.Read
        [⟨.store (.tournaments (.get id)), .ok (some shown.tournament)⟩,
          ⟨.store (.tournaments (.entrants id)), .ok shown.entrants⟩]
        (.tournaments (.get id)) (some shown.tournament) := List.mem_cons_self
    obtain ⟨first, first_good, answered, early⟩ := status_read.seen lived
    obtain ⟨row, row_found, shown_eq, -⟩ := get_answer answered
    have known : id.uuid ∈ first.used := (first_good.boards id).row_used (by simp [row_found])
    have was_concluded : (first.db.board id).status = some .concluded := by
      rw [Board.status, row_found, ← concluded, shown_eq]
      rfl
    -- From the status read on the board is frozen, also where the matches were read.
    have at_read := (early.2 id).final known was_concluded ((late.2 id).row (early.1 known) there)
    have now := ((boards.trans early late).2 id).final known was_concluded there
    obtain rfl := matches_answer (congrArg Prod.fst (World.store_eq stored))
    rw [matchList_of_rows (now.rows.trans at_read.rows.symm)]
    exact found
  · cases busy

end Shown

section Run

variable {clock : Instant} {trace : List (Moment bunker)} {stop : Config bunker}

/-- Every later moment relies on an earlier one. -/
theorem boards_pairwise (run : Run (Config.quiet (World.initial clock)) trace stop) :
    trace.Pairwise fun early late => early.after.Relies late.before :=
  Guarantee.relies_pairwise (boards_kept fun _ => True) (good_initial clock) run fun _ _ => trivial

/-- A conclusion finds the tournament unconcluded and leaves it concluded. -/
theorem Concludes.board (run : Run (Config.quiet (World.initial clock)) trace stop)
    {moment : Moment bunker} (member : moment ∈ trace) {id : TournamentId}
    (concludes : Concludes id moment) :
    (∃ row, (moment.before.db.board id).row = some row ∧ row.status ≠ .concluded) ∧
      (moment.after.db.board id).status = some .concluded := by
  obtain ⟨name, request, past, source, winner, awards, instant, draw, label⟩ := concludes
  obtain ⟨good, lived, ⟨change, -, target, planned⟩, called⟩ := observed run member label
  rcases setStatus_cases called with ⟨-, moved⟩ | ⟨-, refused⟩
  · obtain ⟨row, found, row_status, after_eq⟩ := board_moved good moved
    refine ⟨⟨row, found, ?_⟩, by rw [after_eq]; rfl⟩
    rw [row_status]
    obtain ⟨tournament, -, -, ⟨move, -⟩ | ⟨open_source, -⟩⟩ := planned
    · rw [← target] at move
      cases source <;> simp [Moves] at move
    · exact open_source
  · exact absurd rfl refused

/-- From a conclusion on the board is frozen for as long as the tournament is there. -/
theorem Concludes.frozen (run : Run (Config.quiet (World.initial clock)) trace stop)
    {moment : Moment bunker} (member : moment ∈ trace) {id : TournamentId}
    (concludes : Concludes id moment) {world : World} (relies : moment.after.Relies world)
    (there : (world.db.board id).row.isSome) :
    Board.Frozen (moment.after.db.board id) (world.db.board id) := by
  have was_concluded := (concludes.board run member).2
  have good : moment.after.Good := ((boards_along run).2 moment member).after
  have row_there : (moment.after.db.board id).row.isSome := by
    cases row : (moment.after.db.board id).row with
    | none => simp [Board.status, row] at was_concluded
    | some row => rfl
  exact (relies.2 id).final ((good.boards id).row_used row_there) was_concluded there

end Run

/-- A conclusion is final in a trace, and paid at most once. -/
structure Final (trace : List (Moment bunker)) : Prop where
  /-- Only a concluded tournament has entries in the ledger. -/
  paid : ∀ moment ∈ trace, ∀ id, (moment.after.db.board id).ledger ≠ [] →
    (moment.after.db.board id).status = some .concluded
  /-- No tournament is concluded twice. -/
  once : trace.Pairwise fun early late => ∀ id, Concludes id early → ¬Concludes id late
  /-- As long as the tournament is there, nothing that the conclusion left behind changes, but that
  an entrant or an entry goes with its account. -/
  frozen : trace.Pairwise fun early late => ∀ id, Concludes id early →
    (late.after.db.board id).row.isSome →
      Board.Frozen (early.after.db.board id) (late.after.db.board id)
  /-- Two answers with a concluded tournament show one bracket. -/
  concluded_details : trace.Pairwise fun early late => ∀ id shown other,
    Details id shown early → Details id other late → shown.tournament.status = .concluded →
      other.tournament.status = .concluded → (late.before.db.board id).row.isSome →
        other.bracket = shown.bracket
  /-- Whoever asks after an answer with a concluded tournament is shown the same bracket. -/
  later_details : ∀ first early second late third,
    trace = first ++ early :: (second ++ late :: third) → ∀ id shown other name visibility past,
      Details id shown early → shown.tournament.status = .concluded →
      late.label = .reply name (.detail id visibility) past (.ok (.detail other)) →
      (∃ arrival ∈ second, ∃ request, arrival.label = .arrive name request) →
      (late.before.db.board id).row.isSome → other.bracket = shown.bracket

section Run

variable {clock : Instant} {trace : List (Moment bunker)} {stop : Config bunker}

/-- What a reply with details was given on. -/
theorem Details.shown (run : Run (Config.quiet (World.initial clock)) trace stop)
    {moment : Moment bunker} (member : moment ∈ trace) {name : Nat} {id : TournamentId}
    {visibility : Visibility} {past : Past} {shown : TournamentDetail}
    (label : moment.label = .reply name (.detail id visibility) past (.ok (.detail shown))) :
    moment.after = moment.before ∧ boards.Lived past moment.before ∧ Shown past id shown := by
  have sound := discipline.sound run moment member
  simp only [Discipline.Sound, label] at sound
  have informed := ((boards_along run).2 moment member).informed
  exact ⟨sound.1, informed name _ past (by rw [label]; rfl), sound.2⟩

/-- The matches that were read between an answer with a concluded tournament and now. -/
theorem bracket_of_read (run : Run (Config.quiet (World.initial clock)) trace stop)
    {moment : Moment bunker} (member : moment ∈ trace) {name : Nat} {request : Request}
    {past shown_past : Past} {id : TournamentId} {rows : List Match} {shown : TournamentDetail}
    (label : moment.label =
      .call name request past (.store (.tournaments (.matchesOf id))) (.ok rows))
    (lived : boards.Lived shown_past moment.before) (reads : Shown shown_past id shown)
    (concluded : shown.tournament.status = .concluded)
    (there : (moment.before.db.board id).row.isSome) : bracketOf rows = .ok shown.bracket := by
  obtain rfl := matches_answer (congrArg Prod.fst (observed run member label).called)
  exact bracket_of_shown lived reads concluded there

/-- Whoever asks after an answer with a concluded tournament is shown the same bracket. -/
theorem later_details {first second third : List (Moment bunker)} {early late : Moment bunker}
    (run : Run (Config.quiet (World.initial clock)) (first ++ early :: (second ++ late :: third))
      stop)
    {id : TournamentId} {shown other : TournamentDetail} {name : Nat} {visibility : Visibility}
    {past : Past} (details : Details id shown early)
    (concluded : shown.tournament.status = .concluded)
    (label : late.label = .reply name (.detail id visibility) past (.ok (.detail other)))
    (arrived : ∃ arrival ∈ second, ∃ request, arrival.label = .arrive name request)
    (there : (late.before.db.board id).row.isSome) : other.bracket = shown.bracket := by
  obtain ⟨shown_name, shown_visibility, shown_past, shown_label⟩ := details
  obtain ⟨arrival, arrival_mem, request, arrival_label⟩ := arrived
  -- The later request made its reads after the earlier answer.
  obtain ⟨here, there', front, early_step, back⟩ := run.at_moment
  obtain ⟨middle, _, between, late_step, -⟩ := back.at_moment
  have named : here.Named := front.named fun thread member => by cases member
  have called := between.caller_called (early_step.named named) late_step (by rw [label]; rfl)
    (between.arrived arrival_mem arrival_label)
  obtain ⟨-, -, rows, past_eq, found⟩ := Details.shown run (by simp) label
  obtain ⟨moment, moment_mem, earlier, read_label⟩ :=
    called ⟨.store (.tournaments (.matchesOf id)), .ok rows⟩ (by simp [past_eq])
  have in_trace : moment ∈ first ++ early :: (second ++ late :: third) := by simp [moment_mem]
  have pairs := boards_pairwise run
  rw [List.pairwise_append, List.pairwise_cons, List.pairwise_append] at pairs
  obtain ⟨-, ⟨after_early, -, -, to_late⟩, -⟩ := pairs
  obtain ⟨same, lived, reads⟩ := Details.shown run (by simp) shown_label
  have early_relies : early.before.Relies moment.before :=
    same ▸ after_early moment (List.mem_append_left _ moment_mem)
  have late_relies : moment.before.Relies late.before := by
    have step := ((boards_along run).2 moment in_trace).step
    exact boards.trans step (to_late moment moment_mem late List.mem_cons_self)
  have still : (moment.before.db.board id).row.isSome :=
    (late_relies.2 id).row (known_of_shown (lived.mono early_relies) reads) there
  have read_eq := bracket_of_read run in_trace read_label (lived.mono early_relies) reads concluded
    still
  rw [found] at read_eq
  exact Except.ok.inj read_eq

/-- A conclusion is final and pays at most once, in every run. -/
theorem concluded_final (run : Run (Config.quiet (World.initial clock)) trace stop) :
    Final trace := by
  have pairs := boards_pairwise run
  refine
    { paid := fun moment member id nonempty => ?_
      once := pairs.imp_of_mem fun {early late} early_mem late_mem relies id first second => ?_
      frozen := pairs.imp_of_mem fun {early late} early_mem late_mem relies id first there => ?_
      concluded_details := pairs.imp_of_mem fun {early late} early_mem late_mem relies id shown
        other first second concluded still_concluded there => ?_
      later_details := fun first early second late third trace_eq id shown other name visibility
        past details concluded label arrived there => ?_ }
  · exact ((((boards_along run).2 moment member).after).boards id).paid nonempty
  · obtain ⟨⟨row, found, open_row⟩, -⟩ := second.board run late_mem
    have frozen := first.frozen run early_mem relies (by simp [found])
    have concluded := frozen.status_eq.trans (first.board run early_mem).2
    rw [Board.status, found] at concluded
    exact open_row (Option.some.inj concluded)
  · have step := ((boards_along run).2 late late_mem).step
    exact first.frozen run early_mem (boards.trans relies step) there
  · obtain ⟨first_name, first_visibility, first_past, first_label⟩ := first
    obtain ⟨second_name, second_visibility, second_past, second_label⟩ := second
    obtain ⟨same, lived, reads⟩ := Details.shown run early_mem first_label
    obtain ⟨-, late_lived, late_reads⟩ := Details.shown run late_mem second_label
    have shown_eq := bracket_of_shown (lived.mono (same ▸ relies)) reads concluded there
    have other_eq := bracket_of_shown late_lived late_reads still_concluded there
    exact Except.ok.inj (other_eq.symm.trans shown_eq)
  · subst trace_eq
    exact later_details run details concluded label arrived there

end Run

/-- A step that concluded a tournament. -/
def concludes (moment : Moment bunker) : Bool :=
  match moment.label with
  | .call _ _ _ (.store (.tournaments (.setStatus _ _ .concluded _ _ _ _))) (.ok true) => true
  | _ => false

/-- A step that showed a concluded tournament. -/
def showsConcluded (moment : Moment bunker) : Bool :=
  match moment.label with
  | .reply _ _ _ (.ok (.detail shown)) => shown.tournament.status = .concluded
  | _ => false

set_option maxRecDepth 10000 in
/-- The cup is played, concluded and looked at twice. -/
theorem concluded_final_cup :
    ∃ trace stop, Run Cup.start trace stop ∧ trace.any concludes ∧
      trace.countP showsConcluded = 2 ∧ Final trace := by
  obtain ⟨trace, stop, run, played⟩ := bunkerScript.exists_run Cup.start
    (Cup.drawn ++ alone 4 (.reportResult Cup.id ⟨31⟩ ⟨21⟩) 0 ++
      alone 8 (.changeStatus Cup.id ⟨.concluded, none⟩) 200 ++
      alone 4 (.detail Cup.id .everyone) 0 ++ alone 4 (.detail Cup.id .everyone) 0)
    (fun trace _ => decide (trace.any concludes ∧ trace.countP showsConcluded = 2))
    (by decide +kernel)
  obtain ⟨concluded, shown⟩ := of_decide_eq_true played
  exact ⟨trace, stop, run, concluded, shown, concluded_final run⟩

/-- The details that a step answered with. -/
def details? (moment : Moment bunker) : Option (TournamentId × TournamentDetail) :=
  match moment.label with
  | .reply _ (.detail id _) _ (.ok (.detail shown)) => some (id, shown)
  | _ => none

theorem details?_eq_some {moment : Moment bunker} {id : TournamentId} {shown : TournamentDetail}
    (answered : details? moment = some (id, shown)) : Details id shown moment := by
  rw [details?] at answered
  split at answered
  · rename_i name _ visibility past _ label
    obtain ⟨rfl, rfl⟩ := Prod.mk.inj (Option.some.inj answered)
    exact ⟨name, visibility, past, label⟩
  · cases answered

/-- The later step answers with another bracket than a concluded one of the earlier step. -/
def contradicts (early late : Moment bunker) : Bool :=
  (details? early).any fun shown => (details? late).any fun other =>
    other.1 = shown.1 ∧ shown.2.tournament.status = .concluded ∧
      (late.before.db.board shown.1).row.isSome ∧ other.2.bracket ≠ shown.2.bracket

theorem not_shows_of_contradicts {early late : Moment bunker} (apart : contradicts early late) :
    ¬∀ id shown other, Details id shown early → Details id other late →
      shown.tournament.status = .concluded → (late.before.db.board id).row.isSome →
        other.bracket = shown.bracket := by
  obtain ⟨⟨id, shown⟩, answered, apart⟩ := (Option.any_eq_true _ _).mp apart
  obtain ⟨⟨_, other⟩, told, apart⟩ := (Option.any_eq_true _ _).mp apart
  obtain ⟨rfl, concluded, there, differs⟩ := of_decide_eq_true apart
  intro same
  exact differs (same _ shown other (details?_eq_some answered) (details?_eq_some told) concluded
    there)

set_option maxRecDepth 10000 in
/-- A request reads the live cup, which then is played and concluded.  Another request shows it
concluded, and only then the first one answers, with the final still open. -/
theorem not_later_details :
    ∃ trace stop, Run Cup.start trace stop ∧
      ¬trace.Pairwise fun early late => ∀ id shown other,
        Details id shown early → Details id other late → shown.tournament.status = .concluded →
          (late.before.db.board id).row.isSome → other.bracket = shown.bracket := by
  obtain ⟨trace, stop, run, crossed⟩ := bunkerScript.exists_run Cup.start
    (Cup.drawn ++ bunkerScript.alone 0 3 (.detail Cup.id .everyone) {} ++
      bunkerScript.alone 1 4 (.reportResult Cup.id ⟨31⟩ ⟨21⟩) {} ++
      bunkerScript.alone 1 8 (.changeStatus Cup.id ⟨.concluded, none⟩) { uuid := 200 } ++
      bunkerScript.alone 1 4 (.detail Cup.id .everyone) {} ++ [.advance 0 {}])
    (fun trace _ => trace.getLast?.any fun late => trace.dropLast.any fun early =>
      contradicts early late) (by decide +kernel)
  obtain ⟨late, last, crossed⟩ := (Option.any_eq_true _ _).mp crossed
  obtain ⟨early, member, apart⟩ := List.any_eq_true.mp crossed
  refine ⟨trace, stop, run, fun same => not_shows_of_contradicts apart ?_⟩
  rw [← List.dropLast_append_getLast? late last, List.pairwise_append] at same
  exact same.2.2 early member late (List.mem_singleton_self late)

end LanBunker
