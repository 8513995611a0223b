import LanBunker.Tournaments.Capacity
import LanBunker.Tournaments.Field
import LanBunker.Tournaments.Final

/-!
# A detail in three reads

The tournament, its entrants and its matches are read one after the other, each from the state of
its moment.  They fit together exactly if the three states agree on what the answer shows, and they
do where nothing between the reads moved the bracket or the size of the field.
-/

namespace LanBunker

open Interleaving TournamentStorage

/-- The parts of a detail fit together. -/
structure TournamentDetail.Consistent (shown : TournamentDetail) : Prop where
  bracket : shown.tournament.hasBracket = shown.bracket.isSome
  count : shown.tournament.entrantCount = shown.entrants.length
  listed : ∀ bracket, shown.bracket = some bracket → ∀ m ∈ bracket.flat, ∀ entrant,
    m.entrantA = some entrant ∨ m.entrantB = some entrant ∨ m.winner = some entrant →
      entrant ∈ shown.entrants.map Entrant.id
  seeded : shown.bracket.isSome → ∀ entrant ∈ shown.entrants, entrant.seed.isSome

/-- The reads of a request for the details of a tournament, in a trace. -/
structure DetailReads (name : Nat) (request : Request) (id : TournamentId)
    (shown : TournamentDetail) (trace : List (Moment bunker)) where
  before : List (Moment bunker)
  tournament : Moment bunker
  between : List (Moment bunker)
  entrants : Moment bunker
  middle : List (Moment bunker)
  bracket : Moment bunker
  after : List (Moment bunker)
  trace_eq : trace =
    before ++ tournament :: (between ++ entrants :: (middle ++ bracket :: after))
  tournament_label : ∃ past, tournament.label =
    .call name request past (.store (.tournaments (.get id))) (.ok (some shown.tournament))
  entrants_label : ∃ past, entrants.label =
    .call name request past (.store (.tournaments (.entrants id))) (.ok shown.entrants)
  bracket_label : ∃ past rows, bracket.label =
    .call name request past (.store (.tournaments (.matchesOf id))) (.ok rows) ∧
      bracketOf rows = .ok shown.bracket

namespace DetailReads

variable {name : Nat} {request : Request} {id : TournamentId} {shown : TournamentDetail}
  {trace : List (Moment bunker)} (reads : DetailReads name request id shown trace)

/-- The board the tournament was read from. -/
def counted : Board := reads.tournament.before.db.board id

/-- The board the entrants were read from. -/
def listed : Board := reads.entrants.before.db.board id

/-- The board the matches were read from. -/
def drawn : Board := reads.bracket.before.db.board id

/-- The three boards agree on what a detail shows of them. -/
structure Agree : Prop where
  /-- There was a bracket at first exactly if there was one at last. -/
  bracket : reads.counted.rows = [] ↔ reads.drawn.rows = []
  /-- As many entrants were counted as there were to list. -/
  number : reads.counted.entrants.length = reads.listed.entrants.length
  /-- Everyone who opens the bracket was there to list. -/
  seated : ∀ entrant ∈ reads.drawn.opening, reads.listed.Seats entrant
  /-- With a bracket, everyone listed had a seed. -/
  seeded : reads.drawn.rows ≠ [] → ∀ entrant ∈ reads.listed.entrants, entrant.seed.isSome

/-- Nothing between the reads drew or removed a bracket, and nothing before the second read changed
the number of entrants. -/
structure Undisturbed : Prop where
  bracket : ∀ moment ∈ reads.between ++ reads.middle,
    (moment.before.db.board id).rows = [] ↔ (moment.after.db.board id).rows = []
  number : ∀ moment ∈ reads.between,
    (moment.before.db.board id).entrants.length = (moment.after.db.board id).entrants.length

end DetailReads

section Run

variable {clock : Instant} {trace : List (Moment bunker)} {stop : Config bunker}

/-- A reply with a detail made its reads one after the other. -/
theorem exists_detailReads {first last : List (Moment bunker)} {reply : Moment bunker}
    (run : Run (Config.quiet (World.initial clock)) (first ++ reply :: last) stop) {name : Nat}
    {id : TournamentId} {visibility : Visibility} {past : Past} {shown : TournamentDetail}
    (label : reply.label = .reply name (.detail id visibility) past (.ok (.detail shown))) :
    Nonempty (DetailReads name (.detail id visibility) id shown first) := by
  obtain ⟨-, -, rows, rfl, found⟩ := Details.shown run (by simp) label
  have replied : reply.label.caller = some (name, .detail id visibility,
      [⟨.store (.tournaments (.get id)), .ok (some shown.tournament)⟩,
        ⟨.store (.tournaments (.entrants id)), .ok shown.entrants⟩] ++
        [⟨.store (.tournaments (.matchesOf id)), .ok rows⟩]) := by
    rw [label]
    rfl
  obtain ⟨front, bracket, after, rfl, bracket_label⟩ := run.last_call replied
  have drew : bracket.label.caller = some (name, .detail id visibility,
      [⟨.store (.tournaments (.get id)), .ok (some shown.tournament)⟩] ++
        [⟨.store (.tournaments (.entrants id)), .ok shown.entrants⟩]) := by
    rw [bracket_label]
    rfl
  rw [List.append_assoc, List.cons_append] at run
  obtain ⟨front, entrants, middle, rfl, entrants_label⟩ := run.last_call drew
  have listed : entrants.label.caller = some (name, .detail id visibility,
      [] ++ [⟨.store (.tournaments (.get id)), .ok (some shown.tournament)⟩]) := by
    rw [entrants_label]
    rfl
  rw [List.append_assoc, List.cons_append] at run
  obtain ⟨before, tournament, between, rfl, tournament_label⟩ := run.last_call listed
  exact ⟨before, tournament, between, entrants, middle, bracket, after, by simp,
    ⟨_, tournament_label⟩, ⟨_, entrants_label⟩, ⟨_, rows, bracket_label, found⟩⟩

end Run

/-! ## What each read shows -/

section Answers

variable {used : List Nat} {db : Database} {id : TournamentId} {shown : TournamentDetail}

theorem tournament_shown {tournament : Tournament}
    (answered : ((TournamentStorage.get id) db).1 = .ok (some tournament)) :
    (tournament.hasBracket = true ↔ (db.board id).rows ≠ []) ∧
      tournament.entrantCount = (db.board id).entrants.length := by
  obtain ⟨row, -, rfl, rfl⟩ := get_answer answered
  constructor
  · have rows_eq : (db.board row.id).rows =
        db.matchRows.filter fun m => m.tournament = row.id := rfl
    rw [rows_eq, Ne, List.filter_eq_nil_iff]
    simp [tournamentOf, TournamentStorage.shown]
  · exact List.countP_eq_length_filter

theorem entrants_shown (bounded : (db.board id).Bounded) {listed : List Entrant}
    (answered : ((TournamentStorage.entrants id) db).1 = .ok listed) :
    listed.length = (db.board id).entrants.length ∧
      (∀ entrant, entrant ∈ listed.map Entrant.id ↔ (db.board id).Seats entrant) ∧
      ((∀ entrant ∈ listed, entrant.seed.isSome) ↔
        ∀ entrant ∈ (db.board id).entrants, entrant.seed.isSome) := by
  obtain ⟨whole, whole_read, perm⟩ := entrants_whole bounded.size
  obtain rfl := Except.ok.inj (whole_read.symm.trans answered)
  refine ⟨?_, fun entrant => ?_, ?_⟩
  · rw [perm.length_eq, List.length_map]
    rfl
  · rw [(perm.map Entrant.id).mem_iff, List.map_map]
    exact List.mem_map
  · constructor
    · intro seeded entrant member
      exact seeded (db.toEntrant entrant) (perm.symm.subset (List.mem_map_of_mem member))
    · intro seeded entrant member
      obtain ⟨row, row_mem, rfl⟩ := List.mem_map.mp (perm.subset member)
      exact seeded row row_mem

/-- The entrants in a bracket are those who open it. -/
theorem bracket_shown (ok : (db.board id).Ok used id) {rows : List Match}
    (answered : ((TournamentStorage.matchesOf id) db).1 = .ok rows)
    {found : Option Bracket} (read : bracketOf rows = .ok found) :
    (found.isSome ↔ (db.board id).rows ≠ []) ∧
      ∀ listed : EntrantId → Prop,
        (∀ bracket, found = some bracket → ∀ m ∈ bracket.flat, ∀ entrant,
          m.entrantA = some entrant ∨ m.entrantB = some entrant ∨ m.winner = some entrant →
            listed entrant) ↔ ∀ entrant ∈ (db.board id).opening, listed entrant := by
  obtain rfl := matches_answer answered
  rcases ok.bracketOf_matchList with ⟨no_rows, none_found⟩ | ⟨order, bracket, holds, some_found⟩
  · obtain rfl := Except.ok.inj (none_found.symm.trans read)
    simp [no_rows, Board.opening]
  · obtain rfl := Except.ok.inj (some_found.symm.trans read)
    refine ⟨by simp [holds.rows_ne_nil], fun listed => ?_⟩
    have coherent := holds.1.coherent
    rw [holds.opening_eq]
    constructor
    · intro all entrant member
      rw [← coherent.opening_flat] at member
      obtain ⟨m, m_mem, side⟩ := List.mem_flatMap.mp member
      refine all bracket rfl m (List.mem_filter.mp m_mem).1 entrant ?_
      rcases List.mem_append.mp side with left | right
      · exact Or.inl (Option.mem_toList.mp left)
      · exact Or.inr (Or.inl (Option.mem_toList.mp right))
    · intro all other same m member entrant stands
      obtain rfl := Option.some.inj same
      obtain ⟨round, slot, m_found⟩ := Bracket.mem_flat_iff.mp member
      refine all entrant (coherent.side_mem m_found ?_)
      rcases stands with left | right | won
      · exact Or.inl left
      · exact Or.inr right
      · exact coherent.sound round slot m m_found entrant won

end Answers

/-! ## Three states that agree -/

section Agree

variable {clock : Instant} {front : List (Moment bunker)} {here : Config bunker} {name : Nat}
  {request : Request} {id : TournamentId} {shown : TournamentDetail}

/-- The reads fit together exactly if their states agree. -/
theorem DetailReads.consistent_iff (run : Run (Config.quiet (World.initial clock)) front here)
    (reads : DetailReads name request id shown front) : shown.Consistent ↔ reads.Agree := by
  obtain ⟨tournament_past, tournament_label⟩ := reads.tournament_label
  obtain ⟨entrants_past, entrants_label⟩ := reads.entrants_label
  obtain ⟨bracket_past, rows, bracket_label, found⟩ := reads.bracket_label
  have tournament_mem : reads.tournament ∈ front := by simp [reads.trace_eq]
  have entrants_mem : reads.entrants ∈ front := by simp [reads.trace_eq]
  have bracket_mem : reads.bracket ∈ front := by simp [reads.trace_eq]
  obtain ⟨has_bracket, count⟩ :=
    tournament_shown (congrArg Prod.fst (observed run tournament_mem tournament_label).called)
  obtain ⟨length, listed, seeded⟩ :=
    entrants_shown ((bounded_along run id).2 _ entrants_mem).1
      (congrArg Prod.fst (observed run entrants_mem entrants_label).called)
  obtain ⟨some_bracket, stand⟩ :=
    bracket_shown (((boards_along run).2 _ bracket_mem).before.boards id)
      (congrArg Prod.fst (observed run bracket_mem bracket_label).called) found
  have both : shown.tournament.hasBracket = shown.bracket.isSome ↔
      (reads.counted.rows = [] ↔ reads.drawn.rows = []) := by
    rw [Bool.eq_iff_iff, has_bracket, some_bracket]
    exact not_iff_not
  have all_listed : (∀ bracket, shown.bracket = some bracket → ∀ m ∈ bracket.flat, ∀ entrant,
      m.entrantA = some entrant ∨ m.entrantB = some entrant ∨ m.winner = some entrant →
        entrant ∈ shown.entrants.map Entrant.id) ↔
      ∀ entrant ∈ reads.drawn.opening, reads.listed.Seats entrant := by
    rw [stand]
    exact forall₂_congr fun entrant _ => listed entrant
  constructor
  · intro consistent
    exact
      { bracket := both.mp consistent.bracket
        number := count.symm.trans (consistent.count.trans length)
        seated := all_listed.mp consistent.listed
        seeded := fun some_row => seeded.mp (consistent.seeded (some_bracket.mpr some_row)) }
  · intro agree
    exact
      { bracket := both.mpr agree.bracket
        count := count.trans (agree.number.trans length.symm)
        listed := all_listed.mpr agree.seated
        seeded := fun there => seeded.mpr (agree.seeded (some_bracket.mp there)) }

end Agree

/-! ## Nothing in between -/

/-- As long as a bracket stands, nobody enters or leaves. -/
theorem Board.Move.ids_eq {label : Label bunker} {fresh : List Nat} {id : TournamentId}
    {board after : Board} (move : Move label fresh id board after) (stands : board.rows ≠ [])
    (stays : after.rows ≠ []) :
    after.entrants.map EntrantRow.id = board.entrants.map EntrantRow.id := by
  have written : ∀ write : EntrantRow → EntrantRow, (∀ entrant, (write entrant).id = entrant.id) →
      (board.entrants.map write).map EntrantRow.id = board.entrants.map EntrantRow.id := by
    intro write same_ids
    rw [List.map_map]
    exact List.map_congr_left fun entrant _ => same_ids entrant
  cases move with
  | stay => rfl
  | anonymised player => exact written _ fun entrant => by split_ifs <;> rfl
  | created => rfl
  | edited => rfl
  | moved => rfl
  | concluded => rfl
  | deleted => exact absurd rfl stays
  | entered found open_row no_bracket => exact absurd no_bracket stands
  | rated found open_row no_bracket => exact absurd no_bracket stands
  | left found open_row no_bracket => exact absurd no_bracket stands
  | drawn found live unplayed generated ids new order_nodup seated same_ids =>
      exact written _ same_ids
  | undrawn => exact absurd rfl stays
  | resulted => rfl

/-- A bracket that stands stays, with its field. -/
def Board.Keeps (board later : Board) : Prop :=
  board.rows ≠ [] →
    later.rows ≠ [] ∧ later.entrants.map EntrantRow.id = board.entrants.map EntrantRow.id

theorem Board.Keeps.trans {first second third : Board} (early : first.Keeps second)
    (late : second.Keeps third) : first.Keeps third := by
  intro stands
  obtain ⟨still, same⟩ := early stands
  obtain ⟨there, same_later⟩ := late still
  exact ⟨there, same_later.trans same⟩

section Undisturbed

variable {clock : Instant} {front : List (Moment bunker)} {here : Config bunker} {name : Nat}
  {request : Request} {id : TournamentId} {shown : TournamentDetail}

/-- What the steps between the reads keep of a state, the reads see the same. -/
theorem DetailReads.related (run : Run (Config.quiet (World.initial clock)) front here)
    (reads : DetailReads name request id shown front) (relates : Board → Board → Prop)
    (refl : ∀ board, relates board board)
    (trans : ∀ {first second third}, relates first second → relates second third →
      relates first third) :
    ((∀ moment ∈ reads.between,
        relates (moment.before.db.board id) (moment.after.db.board id)) →
      relates reads.counted reads.listed) ∧
    ((∀ moment ∈ reads.middle,
        relates (moment.before.db.board id) (moment.after.db.board id)) →
      relates reads.listed reads.drawn) := by
  obtain ⟨tournament_past, tournament_label⟩ := reads.tournament_label
  obtain ⟨entrants_past, entrants_label⟩ := reads.entrants_label
  have tournament_mem : reads.tournament ∈ front := by simp [reads.trace_eq]
  have entrants_mem : reads.entrants ∈ front := by simp [reads.trace_eq]
  -- The reads themselves write nothing.
  have counted : reads.tournament.after.db = reads.tournament.before.db :=
    (congrArg Prod.snd (observed run tournament_mem tournament_label).called).symm
  have listed : reads.entrants.after.db = reads.entrants.before.db :=
    (congrArg Prod.snd (observed run entrants_mem entrants_label).called).symm
  rw [reads.trace_eq] at run
  obtain ⟨_, first, -, tournament_step, rest⟩ := run.at_moment
  obtain ⟨second, third, between, entrants_step, rest⟩ := rest.at_moment
  obtain ⟨fourth, _, middle, bracket_step, -⟩ := rest.at_moment
  let kept : bunker.State → bunker.State → Prop := fun world later =>
    relates (Database.board (World.db world) id) (Database.board (World.db later) id)
  have kept_refl : ∀ world, kept world world := fun world => refl _
  have kept_trans : ∀ {one two three}, kept one two → kept two three → kept one three :=
    fun early late => trans early late
  constructor
  · intro keeps
    have seen := between.related kept_refl kept_trans keeps
    rw [← tournament_step.after_eq, ← entrants_step.before_eq] at seen
    change relates (reads.tournament.after.db.board id) (reads.entrants.before.db.board id) at seen
    rw [counted] at seen
    exact seen
  · intro keeps
    have seen := middle.related kept_refl kept_trans keeps
    rw [← entrants_step.after_eq, ← bracket_step.before_eq] at seen
    change relates (reads.entrants.after.db.board id) (reads.bracket.before.db.board id) at seen
    rw [listed] at seen
    exact seen

/-- Reads that nothing disturbed agree, where every bracket was drawn over its field. -/
theorem DetailReads.Undisturbed.agree (run : Run (Config.quiet (World.initial clock)) front here)
    (whole : ∀ moment ∈ front, DrawsWholeOf id moment)
    {reads : DetailReads name request id shown front} (undisturbed : reads.Undisturbed) :
    reads.Agree := by
  have entrants_mem : reads.entrants ∈ front := by simp [reads.trace_eq]
  have bracket_mem : reads.bracket ∈ front := by simp [reads.trace_eq]
  have within : ∀ moment ∈ reads.between ++ reads.middle, moment ∈ front := by
    intro moment member
    rcases List.mem_append.mp member with earlier | later
    · simp [reads.trace_eq, earlier]
    · simp [reads.trace_eq, later]
  obtain ⟨first_bracket, last_bracket⟩ := reads.related run
    (fun board later => board.rows = [] ↔ later.rows = []) (fun _ => Iff.rfl) Iff.trans
  have early := first_bracket fun moment member =>
    undisturbed.bracket moment (List.mem_append_left _ member)
  have late := last_bracket fun moment member =>
    undisturbed.bracket moment (List.mem_append_right _ member)
  have number := (reads.related run
    (fun board later => board.entrants.length = later.entrants.length)
    (fun _ => rfl) Eq.trans).1 undisturbed.number
  have field : reads.listed.Keeps reads.drawn := by
    refine (reads.related run Board.Keeps (fun _ stands => ⟨stands, rfl⟩) Board.Keeps.trans).2 ?_
    intro moment member stands
    have in_between := List.mem_append_right reads.between member
    obtain ⟨-, fresh, move⟩ := moves_along run (within moment in_between) id
    have stays := (not_congr (undisturbed.bracket moment in_between)).mp stands
    exact ⟨stays, move.ids_eq stands stays⟩
  refine
    { bracket := early.trans late
      number
      seated := fun entrant opens => ?_
      seeded := fun some_row entrant member => ?_ }
  · have good := ((boards_along run).2 _ bracket_mem).before
    have some_row : reads.drawn.rows ≠ [] := by
      intro no_row
      rw [Board.opening, no_row] at opens
      cases opens
    obtain ⟨order, bracket, holds⟩ := (good.boards id).bracket.resolve_left some_row
    have same_ids := (field ((not_congr late).mpr some_row)).2
    have opening_eq : reads.drawn.opening = order := holds.opening_eq
    rw [opening_eq] at opens
    obtain ⟨row, row_mem, row_id⟩ := holds.2.1 entrant opens
    have listed : entrant ∈ reads.listed.entrants.map EntrantRow.id := by
      rw [← same_ids, ← row_id]
      exact List.mem_map_of_mem row_mem
    exact List.mem_map.mp listed
  · have good := ((boards_along run).2 _ entrants_mem).before
    have filled := ((filled_along run whole).2 _ entrants_mem).1
    have covered := filled.covered ((not_congr late).mpr some_row) (good.entrants_nodup id)
    obtain ⟨place, -, seed⟩ :=
      List.mem_map.mp (covered.seeds.subset (List.mem_map_of_mem member))
    rw [← seed]
    rfl

end Undisturbed

section Run

variable {clock : Instant} {first last : List (Moment bunker)} {reply : Moment bunker}
  {stop : Config bunker} {name : Nat} {id : TournamentId} {visibility : Visibility} {past : Past}
  {shown : TournamentDetail}

/-- In every run the parts of a detail fit together exactly if the three states it was read from
agree. -/
theorem detail_consistent_iff
    (run : Run (Config.quiet (World.initial clock)) (first ++ reply :: last) stop)
    (reads : DetailReads name (.detail id visibility) id shown first) :
    shown.Consistent ↔ reads.Agree := by
  obtain ⟨here, front, -⟩ := run.split
  exact reads.consistent_iff front

/-- In every run the parts of a detail, which is read in three steps, fit together if every bracket
of the tournament before was drawn over its whole field, and nothing between the reads drew or
removed its bracket or, before the entrants were read, changed their number. -/
theorem detail_consistent_undisturbed
    (run : Run (Config.quiet (World.initial clock)) (first ++ reply :: last) stop)
    (label : reply.label = .reply name (.detail id visibility) past (.ok (.detail shown))) :
    Nonempty (DetailReads name (.detail id visibility) id shown first) ∧
      ∀ reads : DetailReads name (.detail id visibility) id shown first,
        (∀ moment ∈ first, DrawsWholeOf id moment) → reads.Undisturbed → shown.Consistent := by
  refine ⟨exists_detailReads run label, fun reads whole undisturbed => ?_⟩
  obtain ⟨here, front, -⟩ := run.split
  exact (detail_consistent_iff run reads).mpr (undisturbed.agree front whole)

end Run

/-- An answer with details that meet a test. -/
def shows (test : TournamentDetail → Bool) (moment : Moment bunker) : Bool :=
  match moment.label with
  | .reply _ (.detail _ _) _ (.ok (.detail shown)) => test shown
  | _ => false

theorem shows_eq_true {test : TournamentDetail → Bool} {moment : Moment bunker}
    (tested : shows test moment = true) : ∃ name id visibility past shown,
      moment.label = .reply name (.detail id visibility) past (.ok (.detail shown)) ∧
        test shown := by
  rw [shows] at tested
  split at tested
  · rename_i name id visibility past shown label
    exact ⟨name, id, visibility, past, shown, label, tested⟩
  · cases tested

/-- A step that reads a tournament, for this request. -/
def readsTournament? (moment : Moment bunker) : Option Nat :=
  match moment.label with
  | .call name _ _ (.store (.tournaments (.get _))) _ => some name
  | _ => none

/-- A step that draws no bracket of the tournament, or one over the whole field. -/
def drawsWhole (id : TournamentId) (moment : Moment bunker) : Bool :=
  match moment.label with
  | .call _ _ _ (.store (.tournaments (.replaceBracket other _ order _))) (.ok .done) =>
      other != id ||
        (moment.before.db.board id).entrants.all fun entrant => order.contains entrant.id
  | _ => true

theorem drawsWholeOf_of_drawsWhole {id : TournamentId} {moment : Moment bunker}
    (whole : drawsWhole id moment = true) : DrawsWholeOf id moment := by
  intro name request past expected order bracket label
  simp only [drawsWhole, label, bne_self_eq_false, Bool.false_or, List.all_eq_true] at whole
  exact fun entrant member => List.contains_iff_mem.mp (whole entrant member)

/-- No bracket comes or goes and no entrant does, after a request read the tournament. -/
def quietAfterRead (id : TournamentId) (name : Nat) (moments : List (Moment bunker)) : Bool :=
  (moments.dropWhile fun moment => readsTournament? moment ≠ some name).tail.all fun moment =>
    ((moment.before.db.board id).rows = [] ↔ (moment.after.db.board id).rows = []) ∧
      (moment.before.db.board id).entrants.length = (moment.after.db.board id).entrants.length

theorem DetailReads.undisturbed_of_quiet {name : Nat} {request : Request} {id : TournamentId}
    {shown : TournamentDetail} {trace : List (Moment bunker)}
    (reads : DetailReads name request id shown trace)
    (quiet : quietAfterRead id name trace = true) :
    reads.Undisturbed := by
  have hits : readsTournament? reads.tournament = some name := by
    obtain ⟨past, label⟩ := reads.tournament_label
    simp only [readsTournament?, label]
  rw [quietAfterRead, List.all_eq_true, reads.trace_eq] at quiet
  have kept := fun moment member => of_decide_eq_true (quiet moment
    (Run.mem_tail_dropWhile (by simp [hits]) member))
  refine ⟨fun moment member => (kept moment ?_).1, fun moment member => (kept moment ?_).2⟩
  · rcases List.mem_append.mp member with early | late
    · simp [early]
    · simp [late]
  · simp [member]

set_option maxRecDepth 10000 in
/-- Somebody signs up while the details of the drawn cup are read. -/
theorem detail_consistent_undisturbed_cup :
    ∃ first reply stop, Run Cup.start (first ++ [reply]) stop ∧
      ∃ name visibility past shown,
        reply.label = .reply name (.detail Cup.id visibility) past (.ok (.detail shown)) ∧
        shown.bracket.isSome ∧ shown.Consistent := by
  obtain ⟨trace, stop, run, tested⟩ := bunkerScript.exists_run Cup.start
    (Cup.drawn ++ bunkerScript.alone 0 2 (.detail Cup.id .everyone) {} ++
      bunkerScript.alone 1 4 (.signup ⟨['c', 'c', 'c'], by decide, by simp, by simp⟩ "")
        { uuid := 3 } ++
      List.replicate 2 (.advance 0 {}))
    (fun trace _ => trace.getLast?.any (fun reply => match reply.label with
        | .reply name (.detail id _) _ (.ok (.detail shown)) =>
            decide (id = Cup.id) && shown.bracket.isSome && quietAfterRead id name trace.dropLast
        | _ => false) &&
      trace.dropLast.all (drawsWhole Cup.id)) (by decide +kernel)
  obtain ⟨found, whole⟩ := Bool.and_eq_true_iff.mp tested
  obtain ⟨reply, last, tested⟩ := (Option.any_eq_true _ _).mp found
  have trace_eq := List.dropLast_append_getLast? reply last
  rw [← trace_eq] at run
  split at tested
  · rename_i name id visibility past shown label
    simp only [Bool.and_eq_true, decide_eq_true_eq] at tested
    obtain ⟨⟨rfl, some_bracket⟩, quiet⟩ := tested
    obtain ⟨⟨reads⟩, consistent⟩ := detail_consistent_undisturbed run label
    refine ⟨trace.dropLast, reply, stop, run, name, visibility, past, shown, label, some_bracket,
      consistent reads (fun moment member => ?_) (reads.undisturbed_of_quiet quiet)⟩
    exact drawsWholeOf_of_drawsWhole (List.all_eq_true.mp whole moment member)
  · cases tested

set_option maxRecDepth 10000 in
/-- A request reads the cup and its entrants, an admin draws the bracket, and then the request
reads the matches. -/
theorem not_detail_consistent :
    ∃ trace stop, Run Cup.start trace stop ∧ ∃ reply ∈ trace, ∃ name id visibility past shown,
      reply.label = .reply name (.detail id visibility) past (.ok (.detail shown)) ∧
        ¬shown.Consistent := by
  obtain ⟨trace, stop, run, tested⟩ := bunkerScript.exists_run Cup.start
    (Cup.entered ++ bunkerScript.alone 0 2 (.detail Cup.id .everyone) {} ++
      bunkerScript.alone 1 7 (.generateBracket Cup.id) { uuid := 31 } ++
      List.replicate 2 (.advance 0 {}))
    (fun trace _ => trace.any <| shows fun shown =>
      !shown.tournament.hasBracket && shown.bracket.isSome) (by decide +kernel)
  obtain ⟨reply, member, torn⟩ := List.any_eq_true.mp tested
  obtain ⟨name, id, visibility, past, shown, label, apart⟩ := shows_eq_true torn
  refine ⟨trace, stop, run, reply, member, name, id, visibility, past, shown, label, ?_⟩
  intro consistent
  rw [consistent.bracket, Bool.not_and_self] at apart
  cases apart

end LanBunker
