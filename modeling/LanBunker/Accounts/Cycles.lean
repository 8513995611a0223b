import Mathlib.Data.List.Dedup
import LanBunker.Accounts.Leaderboard
import LanBunker.Effects.Operations
import LanBunker.Events.Checkins
import LanBunker.Tournaments.Runs

/-!
# The cycles of a player add up

The standing, the log read page by page, its totals by kind and the sums of the site by source are
four ways over the same lines of the ledger.
-/

namespace LanBunker

open Relational Interleaving Service PointStorage PointsService

/-! ## The site -/

/-- Where cycles come from, as a player thinks of it. -/
inductive Source where
  | events
  | tournaments
  | adjustments
  deriving DecidableEq, Repr

/-- `SOURCE_OF`. -/
def sourceOf : PointKind → Source
  | .checkin => .events
  | .tournamentEntry => .tournaments
  | .matchWin => .tournaments
  | .semifinalist => .tournaments
  | .finalist => .tournaments
  | .champion => .tournaments
  | .adjustment => .adjustments

structure SourceTotals where
  events : Int
  tournaments : Int
  adjustments : Int
  deriving DecidableEq, Repr

def sumOf (totals : List KindTotal) (source : Source) : Int :=
  (totals.filter fun total => sourceOf total.kind = source).foldl
    (fun sum total => sum + total.cycles) 0

/-- The cycles of each source, from the totals by kind. -/
def sourceTotals (totals : List KindTotal) : SourceTotals where
  events := sumOf totals .events
  tournaments := sumOf totals .tournaments
  adjustments := sumOf totals .adjustments

theorem sumOf_eq (totals : List KindTotal) (source : Source) :
    sumOf totals source =
      ((totals.filter fun total => sourceOf total.kind = source).map KindTotal.cycles).sum := by
  rw [sumOf, List.sum_eq_foldl, List.foldl_map]

/-- Every kind has one source. -/
theorem sourceTotals_sum (totals : List KindTotal) :
    (sourceTotals totals).events + (sourceTotals totals).tournaments +
      (sourceTotals totals).adjustments = (totals.map KindTotal.cycles).sum := by
  have sources : ∀ total ∈ totals, sourceOf total.kind ∈
      [Source.events, Source.tournaments, Source.adjustments] := by
    intro total _
    cases total.kind <;> decide
  rw [← sum_by_key (by decide) (fun total => sourceOf total.kind) KindTotal.cycles sources]
  simp only [sourceTotals, sumOf_eq, List.map_cons, List.map_nil, List.sum_cons, List.sum_nil]
  omega

/-! ## The totals -/

section Totals

variable {db : Database} {player : PlayerId}

theorem kindTotals_sum (lines : List PointRow) :
    ((kindTotals lines).map KindTotal.cycles).sum = (lines.map PointRow.amount).sum := by
  have listed : ∀ line ∈ lines, line.kind ∈ (lines.map PointRow.kind).dedup :=
    fun line member => List.mem_dedup.mpr (List.mem_map_of_mem member)
  rw [kindTotals, List.map_map, ← sum_by_key (List.nodup_dedup _) PointRow.kind PointRow.amount
    listed]
  rfl

theorem kindTotals_kinds (lines : List PointRow) :
    (kindTotals lines).map KindTotal.kind = (lines.map PointRow.kind).dedup := by
  rw [kindTotals, List.map_map]
  exact List.map_id _

/-- The order of the legend, by the position of a kind. -/
private def compareKinds (left right : PointKind) : Ordering :=
  Ordered.nullsFirst compare (PointKind.all.idxOf? left) (PointKind.all.idxOf? right)

private theorem transCmp_kinds : Std.TransCmp compareKinds :=
  Ordered.transCmp_on (fun kind => PointKind.all.idxOf? kind) (Ordered.nullsFirst compare)

private theorem mem_all (kind : PointKind) : kind ∈ PointKind.all := by
  cases kind <;> decide

/-- The legend lists every kind at its own position. -/
private theorem compareKinds_eq : ∀ left ∈ PointKind.all, ∀ right ∈ PointKind.all,
    compareKinds left right = .eq → left = right := by decide

private theorem all_sorted :
    PointKind.all.Pairwise fun left right => (compareKinds left right).isLE := by decide

/-- Sorted, the totals list each kind with a line once, in the order of the legend. -/
theorem sorted_kinds (lines : List PointRow) :
    (Ordered.sortBy compareTotals (kindTotals lines)).map KindTotal.kind =
      PointKind.all.filter fun kind => ∃ line ∈ lines, line.kind = kind := by
  have := transCmp_kinds
  have : Std.TransCmp compareTotals := Ordered.transCmp_on KindTotal.kind compareKinds
  have sorted : (Ordered.sortBy compareTotals (kindTotals lines)).Pairwise fun left right =>
      (compareTotals left right).isLE := Ordered.pairwise_sortBy _
  have perm := (Ordered.sortBy_perm compareTotals (kindTotals lines)).map KindTotal.kind
  rw [kindTotals_kinds] at perm
  refine Ordered.eq_of_sorted
    (fun left _ right _ => compareKinds_eq left (mem_all left) right (mem_all right))
    (List.pairwise_map.mpr sorted) (all_sorted.sublist List.filter_sublist) (perm.trans ?_)
  rw [List.perm_ext_iff_of_nodup (List.nodup_dedup _) ((by decide : PointKind.all.Nodup).filter _)]
  intro kind
  rw [List.mem_dedup, List.mem_map, List.mem_filter, decide_eq_true_iff]
  exact ⟨fun some_line => ⟨mem_all kind, some_line⟩, And.right⟩

end Totals

/-! ## The log -/

section Log

variable {db : Database} {player : PlayerId}

/-- The joins name the tournament and the event of a line and lose none. -/
theorem entryRows_lines (tournaments : (db.tournaments.map TournamentRow.id).Nodup)
    (events : (db.events.map EventRow.id).Nodup) :
    (entryRows player db).map (fun row => row.1.1) = linesOf player db := by
  have inner : (leftJoin (linesOf player db) db.tournaments
      fun e t => e.tournament = some t.id).map Prod.fst = linesOf player db :=
    map_fst_leftJoin tournaments PointRow.tournament
  have outer : (entryRows player db).map Prod.fst = leftJoin (linesOf player db) db.tournaments
      fun e t => e.tournament = some t.id :=
    map_fst_leftJoin events fun row : PointRow × Option TournamentRow => row.1.event
  calc
    (entryRows player db).map (fun row => row.1.1) =
        ((entryRows player db).map Prod.fst).map Prod.fst := by rw [List.map_map]; rfl
    _ = linesOf player db := by rw [outer, inner]

/-- What a read of the log answers. -/
def cyclesLog (db : Database) (player : PlayerId) (query : PageQuery) : CyclesLog where
  entries := .new ((window query.limit query.offset
      (Ordered.sortBy compareEntries (entryRows player db))).map toEntry)
    (linesOf player db).length query
  totals := Ordered.sortBy compareTotals (kindTotals (linesOf player db))

theorem historyOf_answers {query : PageQuery} {world after : World}
    {result : Except ServiceError CyclesLog}
    (answers : (historyOf player query).Answers world result after) :
    result = .ok (cyclesLog world.db player query) := by
  obtain ⟨db, clock, used⟩ := world
  have settles : Settles (historyOf player query) ⟨db, clock, used⟩ fun result _ =>
      result = .ok (cyclesLog db player query) := by
    rw [historyOf, settles_bind, settles_read rfl rfl]
    intro later _
    dsimp only
    rw [settles_bind, settles_read rfl rfl]
    intro last _
    exact settles_pure.mpr rfl
  exact settles_iff.mp settles result after answers

/-- The amounts on all pages add up to the ledger. -/
theorem pages_sum (tournaments : (db.tournaments.map TournamentRow.id).Nodup)
    (events : (db.events.map EventRow.id).Nodup) {queries : List PageQuery} {size : PageSize}
    (asks : AsksAll queries size (pageCount (linesOf player db).length size)) :
    (((queries.map (cyclesLog db player)).flatMap fun log => log.entries.items).map
      PointEntry.amount).sum = ((linesOf player db).map PointRow.amount).sum := by
  set sorted := Ordered.sortBy compareEntries (entryRows player db) with sorted_eq
  have perm : sorted.Perm (entryRows player db) := Ordered.sortBy_perm _ _
  have lines : (entryRows player db).map (fun row => row.1.1) = linesOf player db :=
    entryRows_lines tournaments events
  have length : sorted.length = (linesOf player db).length := by
    rw [perm.length_eq, ← lines, List.length_map]
  rw [← length] at asks
  have items : ((queries.map (cyclesLog db player)).flatMap fun log => log.entries.items) =
      sorted.map toEntry := by
    have read : List.Forall₂ (fun query page => page.items =
        (window query.limit query.offset sorted).map toEntry) queries
          (queries.map fun query => (cyclesLog db player query).entries) := by
      rw [List.forall₂_map_right_iff, List.forall₂_same]
      exact fun _ _ => rfl
    rw [← asks.items_eq read, List.flatMap_map, List.flatMap_map]
  rw [items, List.map_map, (perm.map _).sum_eq, ← lines, List.map_map]
  rfl

end Log

/-! ## Every run -/

/-- In every run no event has the key of another. -/
theorem events_along {clock : Instant} {trace : List (Moment bunker)} {stop : Config bunker}
    (run : Run (Config.quiet (World.initial clock)) trace stop) :
    (stop.state.db.events.map EventRow.id).Nodup := by
  let keyed : bunker.State → Prop := fun world => ((World.db world).events.map EventRow.id).Nodup
  have start : keyed (World.initial clock) := List.nodup_nil
  refine (run.invariant start ?_).1
  intro moment member before
  rcases moment_cases moment (discipline.sound run moment member) with
    same | ⟨clock, same⟩ | ⟨id, promoted⟩ | ⟨name, request, past, op, answer, label, stored⟩
  · rw [same]
    exact before
  · rw [same]
    exact before
  · rw [promoted]
    exact before
  · have called := stored.called
    have unchanged : moment.after.db.events = moment.before.db.events →
        keyed moment.after := by
      intro same
      change (moment.after.db.events.map EventRow.id).Nodup
      rw [same]
      exact before
    cases op with
    | tournaments op => exact unchanged (op.effect called).events
    | events op => exact op.keys called before
    | players op => exact unchanged (op.events_eq called)

/-- The standing, the totals, the sums by source and the amounts on all pages agree. -/
theorem cycles_agree {clock : Instant} {trace : List (Moment bunker)} {stop : Config bunker}
    (run : Run (Config.quiet (World.initial clock)) trace stop) {standing : StandingRow}
    (member : standing ∈ stop.state.db.playerStandings) :
    (∀ query world result after, world.db = stop.state.db →
      (historyOf standing.player query).Answers world result after →
        ∃ log, result = .ok log ∧
          log.entries.totalPages =
            pageCount (linesOf standing.player stop.state.db).length query.pageSize ∧
          log.totals.map KindTotal.kind = PointKind.all.filter (fun kind =>
            ∃ line ∈ linesOf standing.player stop.state.db, line.kind = kind) ∧
          (log.totals.map KindTotal.cycles).sum = standing.cycles ∧
          (sourceTotals log.totals).events + (sourceTotals log.totals).tournaments +
            (sourceTotals log.totals).adjustments = standing.cycles) ∧
    ∀ size queries logs,
      AsksAll queries size (pageCount (linesOf standing.player stop.state.db).length size) →
      List.Forall₂ (fun query log => ∃ world after, world.db = stop.state.db ∧
        (historyOf standing.player query).Answers world (.ok log) after) queries logs →
      ((logs.flatMap fun log => log.entries.items).map PointEntry.amount).sum =
        standing.cycles := by
  rw [stop.state.db.playerStandings_eq] at member
  obtain ⟨row, -, rfl⟩ := List.mem_map.mp member
  have ledger : ((linesOf row.id stop.state.db).map PointRow.amount).sum =
      (stop.state.db.standingOf row).cycles := rfl
  constructor
  · rintro query world result after there answers
    obtain rfl := historyOf_answers answers
    have totals_sum : ((cyclesLog world.db row.id query).totals.map KindTotal.cycles).sum =
        (stop.state.db.standingOf row).cycles := by
      rw [there, ← ledger, ← kindTotals_sum]
      exact ((Ordered.sortBy_perm _ _).map _).sum_eq
    refine ⟨_, rfl, ?_, ?_, totals_sum, (sourceTotals_sum _).trans totals_sum⟩
    · rw [there]
      rfl
    · rw [there]
      exact sorted_kinds _
  · rintro size queries logs asks read
    have logs_eq : logs = queries.map (cyclesLog stop.state.db row.id) := by
      rw [← List.forall₂_eq_eq_eq, List.forall₂_map_right_iff]
      refine read.flip.imp ?_
      rintro log query ⟨world, after, there, answers⟩
      rw [← there]
      exact Except.ok.inj (historyOf_answers answers)
    rw [logs_eq, ← ledger]
    exact pages_sum (boards_along run).1.tournaments (events_along run) asks

set_option maxRecDepth 10000 in
open PageQuery in
/-- A check-in and a penalty, the log read whole and in pages of one line. -/
theorem cycles_agree_night :
    ∃ trace stop standing, Run Night.start trace stop ∧ standing ∈ stop.state.db.playerStandings ∧
      standing.cycles = 70 ∧
      (∀ query, ∃ log after, (historyOf standing.player query).Answers stop.state (.ok log) after ∧
        log.totals.map KindTotal.kind = [.checkin, .adjustment] ∧
          (log.totals.map KindTotal.cycles).sum = 70) ∧
      ∃ logs, List.Forall₂ (fun query log => ∃ after,
          (historyOf standing.player query).Answers stop.state (.ok log) after)
          [one 1 (by decide) (by decide), one 2 (by decide) (by decide)] logs ∧
        ((logs.flatMap fun log => log.entries.items).map PointEntry.amount).sum = 70 := by
  obtain ⟨trace, stop, run, found⟩ := bunkerScript.exists_run Night.start
    (Night.opened ++ alone 7 (.checkIn Night.code ⟨1⟩) 300 ++
      alone 5 (.adjust ⟨1⟩ ⟨1⟩ ⟨-30, by decide, by decide, by decide⟩
        ⟨['l', 'a', 't', 'e'], by decide, by decide, by decide⟩) 400)
    (fun trace stop => decide (
      stop.state.db.playerStandings = [⟨⟨1⟩, 70, true, some 1, 1⟩] ∧
        (linesOf ⟨1⟩ stop.state.db).length = 2 ∧
        PointKind.all.filter (fun kind =>
          ∃ line ∈ linesOf ⟨1⟩ stop.state.db, line.kind = kind) = [.checkin, .adjustment]))
    (by decide +kernel)
  obtain ⟨standings, two_lines, kinds⟩ := of_decide_eq_true found
  have member : ⟨⟨1⟩, 70, true, some 1, 1⟩ ∈ stop.state.db.playerStandings := by
    rw [standings]
    exact List.mem_singleton_self _
  obtain ⟨whole, paged⟩ := cycles_agree run member
  have read : ∀ query, ∃ log after, (historyOf ⟨1⟩ query).Answers stop.state (.ok log) after ∧
      log.totals.map KindTotal.kind = [.checkin, .adjustment] ∧
        (log.totals.map KindTotal.cycles).sum = 70 := by
    intro query
    obtain ⟨result, after, answered⟩ := exists_answers (historyOf ⟨1⟩ query) stop.state
    obtain ⟨log, rfl, -, same_kinds, same_sum, -⟩ :=
      whole query stop.state result after rfl answered
    exact ⟨log, after, answered, same_kinds.trans kinds, same_sum⟩
  obtain ⟨first, first_after, first_read, -⟩ := read (one 1 (by decide) (by decide))
  obtain ⟨second, second_after, second_read, -⟩ := read (one 2 (by decide) (by decide))
  have asks : AsksAll [one 1 (by decide) (by decide), one 2 (by decide) (by decide)] .one
      (pageCount (linesOf ⟨1⟩ stop.state.db).length .one) := by
    rw [two_lines]
    exact .two_rows
  refine ⟨trace, stop, _, run, member, rfl, read, [first, second],
    .cons ⟨_, first_read⟩ (.cons ⟨_, second_read⟩ .nil), ?_⟩
  exact paged .one _ [first, second] asks
    (.cons ⟨_, _, rfl, first_read⟩ (.cons ⟨_, _, rfl, second_read⟩ .nil))

end LanBunker
