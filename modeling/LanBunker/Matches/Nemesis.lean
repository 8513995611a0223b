import Mathlib.Data.List.Dedup
import LanBunker.Storage.Matches
import LanBunker.Tournaments.Runs

/-!
# The nemesis

The opponent with the most wins over a player, the latest of them first.  The query compares one
text for the day and the instant of a loss; on the rows a table can hold the text orders as the
pair does.
-/

namespace LanBunker

open Relational TournamentStorage MatchStorage

/-- What the keys and the checks of the schema say of the rows, and the 64 bits of a column. -/
structure Database.OnDisk (db : Database) : Prop where
  players : (db.players.map PlayerRow.id).Nodup
  tournaments : ∀ t ∈ db.tournaments, TournamentStorage.isChecked t
  instants : ∀ t ∈ db.tournaments, t.createdAt < 2 ^ 63

/-! ## The order of two losses -/

/-- The order of the days, then of the creation of the tournaments. -/
def compareMoments (left right : SideRow) : Ordering :=
  (compareDays left.playedOn right.playedOn).then
    (compare left.tournamentCreatedAt right.tournamentCreatedAt)

private theorem compare_natAbs {left right : Int} (left_nonneg : 0 ≤ left)
    (right_nonneg : 0 ≤ right) : compare left.natAbs right.natAbs = compare left right := by
  have less : left.natAbs < right.natAbs ↔ left < right := by omega
  have greater : right.natAbs < left.natAbs ↔ right < left := by omega
  rw [Nat.compare_eq_ite_lt, Int.compare_eq_ite_lt]
  simp only [less, greater]

private theorem compareText_dash (left right : List Char) :
    compareText ('-' :: left) ('-' :: right) = compareText left right := rfl

/-- Days of four digits, and the texts after them. -/
private theorem compareText_formatDay {left right : Date} (left_nonneg : 0 ≤ left.year)
    (right_nonneg : 0 ≤ right.year) (left_rest right_rest : List Char) :
    compareText (formatDay left ++ left_rest) (formatDay right ++ right_rest) =
      (compareDays left right).then (compareText left_rest right_rest) := by
  have lengths : ∀ width value other : Nat,
      (numeral width value).length = (numeral width other).length := by simp [numeral_length]
  have years : left.year.natAbs < 10 ^ 4 ∧ right.year.natAbs < 10 ^ 4 := by
    have left_le := left.year_le
    have right_le := right.year_le
    omega
  have months := And.intro (left.month_le.trans_lt (by decide : 12 < 10 ^ 2))
    (right.month_le.trans_lt (by decide : 12 < 10 ^ 2))
  have days := And.intro left.day_lt right.day_lt
  rw [formatDay_of_nonneg left_nonneg, formatDay_of_nonneg right_nonneg]
  simp only [List.append_assoc, List.cons_append, List.nil_append]
  rw [compareText_append (lengths 4 _ _), compareText_dash, compareText_append (lengths 2 _ _),
    compareText_dash, compareText_append (lengths 2 _ _), compareText_numeral years.1 years.2,
    compareText_numeral months.1 months.2, compareText_numeral days.1 days.2,
    compare_natAbs left_nonneg right_nonneg, compareDays]
  simp only [Ordering.then_assoc]

/-- The row of a side is of a tournament. -/
theorem of_mem_playerMatches {db : Database} {side : SideRow} (member : side ∈ db.playerMatches) :
    ∃ t ∈ db.tournaments, side.playedOn = t.date ∧ side.tournamentCreatedAt = t.createdAt := by
  have joined : ∀ row ∈ db.joinedMatches, row.1.1.2 ∈ db.tournaments := by
    rintro ⟨⟨⟨m, t⟩, a⟩, b⟩ row_mem
    have found := (mem_innerJoin.mp (List.mem_filter.mp row_mem).1).1
    exact (mem_innerJoin.mp (mem_innerJoin.mp found).1).2.1
  rcases List.mem_append.mp member with here | here
  · obtain ⟨row, row_mem, rfl⟩ := List.mem_map.mp here
    exact ⟨_, joined row row_mem, rfl, rfl⟩
  · obtain ⟨row, row_mem, rfl⟩ := List.mem_map.mp here
    exact ⟨_, joined row row_mem, rfl, rfl⟩

/-- The text of a loss orders as its day and the creation of its tournament. -/
theorem compareText_recency {db : Database} (onDisk : db.OnDisk) {left right : SideRow}
    (left_mem : left ∈ db.playerMatches) (right_mem : right ∈ db.playerMatches) :
    compareText (recency left) (recency right) = compareMoments left right := by
  have stored : ∀ side ∈ db.playerMatches, 0 ≤ side.playedOn.year ∧
      0 < side.tournamentCreatedAt ∧ side.tournamentCreatedAt < 2 ^ 63 := by
    intro side member
    obtain ⟨t, t_mem, day, created⟩ := of_mem_playerMatches member
    have checked := onDisk.tournaments t t_mem
    rw [TournamentStorage.isChecked, decide_eq_true_iff] at checked
    rw [day, created]
    exact ⟨checked.2.2.2.2.1, checked.2.2.2.2.2.2, onDisk.instants t t_mem⟩
  have instants : ∀ value : Int, 0 < value → value < 2 ^ 63 →
      printf20 value = numeral 20 value.natAbs ∧ value.natAbs < 10 ^ 20 := by
    intro value positive fits
    exact ⟨if_neg (Int.not_lt.mpr (Int.le_of_lt positive)), by omega⟩
  obtain ⟨left_year, left_pos, left_lt⟩ := stored left left_mem
  obtain ⟨right_year, right_pos, right_lt⟩ := stored right right_mem
  obtain ⟨left_text, left_fits⟩ := instants _ left_pos left_lt
  obtain ⟨right_text, right_fits⟩ := instants _ right_pos right_lt
  rw [recency, recency, compareText_formatDay left_year right_year, left_text, right_text,
    compareText_numeral left_fits right_fits, compare_natAbs (Int.le_of_lt left_pos)
      (Int.le_of_lt right_pos), compareMoments]

/-! ## The groups -/

section Groups

variable (db : Database) (player opponent : PlayerId)

/-- The played matches of the player that the opponent won. -/
def lossesTo : List SideRow :=
  (rowsOf player db).filter fun row => row.opponent = some opponent ∧ row.won = some false

/-- The played matches of the player that the player won against the opponent. -/
def winsOver : List SideRow :=
  (rowsOf player db).filter fun row => row.opponent = some opponent ∧ row.won = some true

/-- The group of an account. -/
def rivalOf (row : PlayerRow) : Rival :=
  { opponent := row, wins := (winsOver db player row.id).length
    losses := (lossesTo db player row.id).length
    latest := maxText ((lossesTo db player row.id).map recency) }

variable {db} {player}

private theorem group_eq (onDisk : db.OnDisk) {row : PlayerRow} (member : row ∈ db.players) :
    (duelsOf player db).filter (fun duel => duel.1.opponent = some row.id) =
      ((rowsOf player db).filter fun side => side.opponent = some row.id).map
        fun side => (side, row) :=
  filter_innerJoin onDisk.players member

/-- The group of an account the player met holds its head-to-head counts. -/
private theorem rival?_eq (onDisk : db.OnDisk) {row : PlayerRow} (member : row ∈ db.players)
    (against : ∃ side ∈ rowsOf player db, side.opponent = some row.id) :
    rival? (duelsOf player db) (some row.id) = some (rivalOf db player row) := by
  set rows := (rowsOf player db).filter fun side => side.opponent = some row.id with rows_eq
  have counted : ∀ won : Option Bool, (rows.map fun side => (side, row)).countP
      (fun duel : Duel => duel.1.won = won) = ((rowsOf player db).filter fun side =>
        side.opponent = some row.id ∧ side.won = won).length := by
    intro won
    rw [List.countP_map, List.countP_eq_length_filter, rows_eq, List.filter_filter]
    congr 1
    refine List.filter_congr fun side _ => ?_
    rw [Function.comp_apply, Bool.and_comm, Bool.decide_and]
  have lost : ((rows.map fun side => (side, row)).filter Duel.isLost).map
      (fun duel => recency duel.1) = (lossesTo db player row.id).map recency := by
    rw [List.filter_map, List.map_map, rows_eq, List.filter_filter, lossesTo]
    congr 1
    refine List.filter_congr fun side _ => ?_
    rw [Function.comp_apply, Bool.and_comm, Bool.decide_and]
    rfl
  obtain ⟨side, side_mem, opponent⟩ := against
  have met : side ∈ rows := List.mem_filter.mpr ⟨side_mem, decide_eq_true opponent⟩
  obtain ⟨first, rest, cons_eq⟩ := List.exists_cons_of_ne_nil (List.ne_nil_of_mem met)
  have head : (rows.map fun side => (side, row)).head? = some (first, row) := by rw [cons_eq]; rfl
  rw [rival?, group_eq onDisk member, ← rows_eq, head, Option.map_some, rivalOf, lost, winsOver,
    counted, lossesTo]
  congr 2
  exact counted (some false)

/-- Each account the player met is one group. -/
theorem mem_rivals (onDisk : db.OnDisk) {rival : Rival} :
    rival ∈ rivals player db ↔ ∃ row ∈ db.players,
      (∃ side ∈ rowsOf player db, side.opponent = some row.id) ∧
        rival = rivalOf db player row := by
  rw [rivals, List.mem_filterMap]
  constructor
  · rintro ⟨opponent, listed, grouped⟩
    obtain ⟨⟨side, row⟩, duel_mem, rfl⟩ := List.mem_map.mp (List.mem_dedup.mp listed)
    obtain ⟨side_mem, row_mem, against⟩ := mem_innerJoin.mp duel_mem
    have opponent := of_decide_eq_true against
    dsimp only at grouped
    rw [opponent, rival?_eq onDisk row_mem ⟨side, side_mem, opponent⟩] at grouped
    exact ⟨row, row_mem, ⟨side, side_mem, opponent⟩, (Option.some.inj grouped).symm⟩
  · rintro ⟨row, row_mem, ⟨side, side_mem, opponent⟩, rfl⟩
    refine ⟨some row.id, List.mem_dedup.mpr (List.mem_map.mpr ⟨(side, row), ?_, opponent⟩),
      rival?_eq onDisk row_mem ⟨side, side_mem, opponent⟩⟩
    exact mem_innerJoin.mpr ⟨side_mem, row_mem, decide_eq_true opponent⟩

/-- The candidates: the accounts that beat the player often enough. -/
theorem mem_named (onDisk : db.OnDisk) {rival : Rival} :
    (rival ∈ (rivals player db).filter fun rival => nemesisMinLosses ≤ rival.losses) ↔
      ∃ row ∈ db.players, nemesisMinLosses ≤ (lossesTo db player row.id).length ∧
        rival = rivalOf db player row := by
  rw [List.mem_filter, mem_rivals onDisk]
  constructor
  · rintro ⟨⟨row, row_mem, -, rfl⟩, enough⟩
    exact ⟨row, row_mem, of_decide_eq_true enough, rfl⟩
  · rintro ⟨row, row_mem, enough, rfl⟩
    have some_loss : 0 < (lossesTo db player row.id).length :=
      Nat.lt_of_lt_of_le (by decide : 0 < nemesisMinLosses) enough
    obtain ⟨side, side_mem⟩ := List.exists_mem_of_length_pos some_loss
    obtain ⟨of_player, lost⟩ := List.mem_filter.mp side_mem
    exact ⟨⟨row, row_mem, ⟨side, of_player, (of_decide_eq_true lost).1⟩, rfl⟩,
      decide_eq_true enough⟩

end Groups

/-! ## The latest loss -/

section Latest

theorem maxText_eq_none {texts : List (List Char)} : maxText texts = none ↔ texts = [] :=
  Ordered.head?_sortBy_eq_none

/-- The maximum is one of the texts, and no text is after it. -/
theorem maxText_eq_some {texts : List (List Char)} {latest : List Char}
    (found : maxText texts = some latest) :
    latest ∈ texts ∧ ∀ text ∈ texts, (compareText text latest).isLE := by
  have opposite : Std.TransCmp fun left right => compareText right left := .opposite
  exact Ordered.head?_sortBy found

variable {db : Database} {player : PlayerId}

/-- The latest loss to one opponent is after every loss to the other. -/
def LostLater (db : Database) (player : PlayerId) (later earlier : PlayerId) : Prop :=
  ∃ last ∈ lossesTo db player later, ∀ side ∈ lossesTo db player earlier,
    compareMoments side last = .lt

private theorem of_mem_lossesTo {opponent : PlayerId} {side : SideRow}
    (member : side ∈ lossesTo db player opponent) : side ∈ db.playerMatches :=
  (List.mem_filter.mp (List.mem_filter.mp member).1).1

/-- The latest loss to an opponent, and its text. -/
private theorem exists_latest {row : PlayerRow} (lost : lossesTo db player row.id ≠ []) :
    ∃ last ∈ lossesTo db player row.id, (rivalOf db player row).latest = some (recency last) ∧
      ∀ side ∈ lossesTo db player row.id, (compareText (recency side) (recency last)).isLE := by
  cases found : maxText ((lossesTo db player row.id).map recency) with
  | none =>
      rw [maxText_eq_none, List.map_eq_nil_iff] at found
      exact absurd found lost
  | some latest =>
      obtain ⟨latest_mem, greatest⟩ := maxText_eq_some found
      obtain ⟨last, last_mem, rfl⟩ := List.mem_map.mp latest_mem
      exact ⟨last, last_mem, found, fun side side_mem => greatest _ (List.mem_map_of_mem side_mem)⟩

/-- The two maxima compare as the latest losses do. -/
theorem compare_latest (onDisk : db.OnDisk) {left right : PlayerRow}
    (left_lost : lossesTo db player left.id ≠ []) (right_lost : lossesTo db player right.id ≠ []) :
    Ordered.nullsFirst compareText (rivalOf db player left).latest
        (rivalOf db player right).latest = .lt ↔ LostLater db player right.id left.id := by
  obtain ⟨left_last, left_mem, left_eq, left_greatest⟩ := exists_latest left_lost
  obtain ⟨right_last, right_mem, right_eq, right_greatest⟩ := exists_latest right_lost
  have same_order : ∀ side ∈ lossesTo db player left.id, ∀ last ∈ lossesTo db player right.id,
      compareText (recency side) (recency last) = compareMoments side last :=
    fun side side_mem last last_mem =>
      compareText_recency onDisk (of_mem_lossesTo side_mem) (of_mem_lossesTo last_mem)
  rw [left_eq, right_eq, Ordered.nullsFirst]
  constructor
  · intro less
    refine ⟨right_last, right_mem, fun side side_mem => ?_⟩
    rw [← same_order side side_mem right_last right_mem]
    exact Std.TransCmp.lt_of_isLE_of_lt (left_greatest side side_mem) less
  · rintro ⟨last, last_mem, after⟩
    have first_less : compareText (recency left_last) (recency last) = .lt := by
      rw [same_order left_last left_mem last last_mem]
      exact after left_last left_mem
    exact Std.TransCmp.lt_of_lt_of_isLE first_less (right_greatest last last_mem)

end Latest

/-! ## The title -/

/-- The account holds the title: it beat the player often enough and nobody beat them more often;
of those who beat them as often, nobody has a later latest loss, nor an equal one and a handle
before, whatever its case. -/
structure IsNemesis (db : Database) (player : PlayerId) (row : PlayerRow) : Prop where
  account : row ∈ db.players
  enough : nemesisMinLosses ≤ (lossesTo db player row.id).length
  most : ∀ other ∈ db.players,
    (lossesTo db player other.id).length ≤ (lossesTo db player row.id).length
  latest : ∀ other ∈ db.players,
    (lossesTo db player other.id).length = (lossesTo db player row.id).length →
      ¬LostLater db player other.id row.id
  handle : ∀ other ∈ db.players,
    (lossesTo db player other.id).length = (lossesTo db player row.id).length →
      ¬LostLater db player row.id other.id →
        compareText other.handle.folded row.handle.folded ≠ .lt

section Title

variable {db : Database} {player : PlayerId}

private theorem transCmp_rivals : Std.TransCmp compareRivals := by
  have losses : Std.TransCmp fun left right : Rival => compare right.losses left.losses :=
    Ordered.transCmp_on Rival.losses fun left right => compare right left
  have latest : Std.TransCmp fun left right : Rival =>
      Ordered.nullsFirst compareText right.latest left.latest :=
    Ordered.transCmp_on Rival.latest fun left right => Ordered.nullsFirst compareText right left
  have handle : Std.TransCmp fun left right : Rival =>
      compareText left.opponent.handle.folded right.opponent.handle.folded :=
    Ordered.transCmp_on (fun rival : Rival => rival.opponent.handle.folded) compareText
  exact inferInstanceAs (Std.TransCmp (compareLex _ (compareLex _ _)))

/-- The latest losses to two players are in one order only. -/
private theorem LostLater.asymm (onDisk : db.OnDisk) {row other : PlayerRow}
    (later : LostLater db player row.id other.id) : ¬LostLater db player other.id row.id := by
  obtain ⟨last, last_mem, all_before⟩ := later
  rintro ⟨other_last, other_mem, others_before⟩
  have before := all_before other_last other_mem
  have after := others_before last last_mem
  rw [← compareText_recency onDisk (of_mem_lossesTo other_mem) (of_mem_lossesTo last_mem)]
    at before
  rw [← compareText_recency onDisk (of_mem_lossesTo last_mem) (of_mem_lossesTo other_mem)]
    at after
  cases (Std.OrientedCmp.gt_of_lt before).symm.trans after

/-- One column after the other decides between two candidates. -/
private theorem columns_of_isLE (onDisk : db.OnDisk) {row other : PlayerRow}
    (some_loss : lossesTo db player row.id ≠ []) (other_loss : lossesTo db player other.id ≠ [])
    (ordered : (compareRivals (rivalOf db player row) (rivalOf db player other)).isLE) :
    (lossesTo db player other.id).length < (lossesTo db player row.id).length ∨
      (lossesTo db player other.id).length = (lossesTo db player row.id).length ∧
        (LostLater db player row.id other.id ∨ ¬LostLater db player other.id row.id ∧
          compareText other.handle.folded row.handle.folded ≠ .lt) := by
  have latest_iff := compare_latest onDisk other_loss some_loss
  have latest_swap := compare_latest onDisk some_loss other_loss
  rw [compareRivals, compareLex, Ordering.isLE_then_iff_or] at ordered
  rcases ordered with more | ⟨as_often, ordered⟩
  · exact Or.inl (Nat.compare_eq_lt.mp more)
  · refine Or.inr ⟨Nat.compare_eq_eq.mp as_often, ?_⟩
    rw [compareLex, Ordering.isLE_then_iff_or] at ordered
    rcases ordered with later | ⟨equal, handle⟩
    · exact Or.inl (latest_iff.mp later)
    · refine Or.inr ⟨fun later => ?_, fun before => ?_⟩
      · have swapped : Ordered.nullsFirst compareText (rivalOf db player row).latest
            (rivalOf db player other).latest = .eq := Std.OrientedCmp.eq_symm equal
        rw [swapped] at latest_swap
        cases latest_swap.mpr later
      · have after : compareText row.handle.folded other.handle.folded = .gt :=
          Std.OrientedCmp.gt_of_lt before
        rw [rivalOf, rivalOf, after] at handle
        cases handle

/-- The first of the sorted candidates holds the title. -/
private theorem isNemesis_of_first (onDisk : db.OnDisk) {row : PlayerRow}
    (member : row ∈ db.players)
    (enough : nemesisMinLosses ≤ (lossesTo db player row.id).length)
    (first : ∀ other ∈ db.players, nemesisMinLosses ≤ (lossesTo db player other.id).length →
      (compareRivals (rivalOf db player row) (rivalOf db player other)).isLE) :
    IsNemesis db player row := by
  have some_loss : ∀ other : PlayerRow, nemesisMinLosses ≤ (lossesTo db player other.id).length →
      lossesTo db player other.id ≠ [] := by
    rintro other often nothing
    rw [nothing] at often
    exact absurd often (by decide)
  have against : ∀ other ∈ db.players,
      (lossesTo db player other.id).length < (lossesTo db player row.id).length ∨
        (lossesTo db player other.id).length = (lossesTo db player row.id).length ∧
          (LostLater db player row.id other.id ∨ ¬LostLater db player other.id row.id ∧
            compareText other.handle.folded row.handle.folded ≠ .lt) := by
    intro other other_mem
    by_cases often : nemesisMinLosses ≤ (lossesTo db player other.id).length
    · exact columns_of_isLE onDisk (some_loss row enough) (some_loss other often)
        (first other other_mem often)
    · exact Or.inl (Nat.lt_of_lt_of_le (Nat.lt_of_not_le often) enough)
  refine ⟨member, enough, fun other other_mem => ?_, fun other other_mem same => ?_,
    fun other other_mem same not_later => ?_⟩
  · rcases against other other_mem with less | ⟨same, -⟩
    · exact Nat.le_of_lt less
    · exact Nat.le_of_eq same
  · rcases against other other_mem with less | ⟨-, later | ⟨not_later, -⟩⟩
    · exact absurd same (Nat.ne_of_lt less)
    · exact later.asymm onDisk
    · exact not_later
  · rcases against other other_mem with less | ⟨-, later | ⟨-, handle⟩⟩
    · exact absurd same (Nat.ne_of_lt less)
    · exact absurd later not_later
    · exact handle

/-- An answered row holds the counts of its group. -/
private theorem toRivalry_eq_ok {row : PlayerRow} {rivalry : Rivalry}
    (shown : toRivalry db (rivalOf db player row) = .ok rivalry) :
    rivalry = { opponent := db.toPlayer row, wins := (winsOver db player row.id).length
                losses := (lossesTo db player row.id).length } := by
  rw [toRivalry, rivalOf] at shown
  cases wins : count (winsOver db player row.id).length with
  | error error =>
      rw [wins] at shown
      cases shown
  | ok won =>
      cases losses : count (lossesTo db player row.id).length with
      | error error =>
          rw [wins, losses] at shown
          cases shown
      | ok lost =>
          rw [wins, losses] at shown
          obtain rfl := Except.ok.inj shown
          rw [count_eq_ok wins, count_eq_ok losses]

/-- The nemesis of a player: nobody without an account that beat them twice, and else the account
that holds the title, with the head-to-head counts. -/
theorem nemesis_holds_title (onDisk : db.OnDisk) (player : PlayerId) :
    ((nemesis player db).1 = .ok none ↔
      ∀ row ∈ db.players, (lossesTo db player row.id).length < 2) ∧
    (∀ rivalry, (nemesis player db).1 = .ok (some rivalry) → ∃ row, IsNemesis db player row ∧
      rivalry = { opponent := db.toPlayer row, wins := (winsOver db player row.id).length
                  losses := (lossesTo db player row.id).length }) ∧
    ((rowsOf player db).length < 2 ^ 32 → ∃ answer, (nemesis player db).1 = .ok answer) := by
  have := transCmp_rivals
  set named := (rivals player db).filter fun rival => nemesisMinLosses ≤ rival.losses with named_eq
  have answer_eq : (nemesis player db).1 =
      (Ordered.sortBy compareRivals named).head?.mapM (toRivalry db) := by rw [nemesis]
  have none_iff : named = [] ↔ ∀ row ∈ db.players, (lossesTo db player row.id).length < 2 := by
    rw [List.eq_nil_iff_forall_not_mem]
    constructor
    · intro nobody row row_mem
      by_contra enough
      exact nobody _ ((mem_named onDisk).mpr ⟨row, row_mem, not_lt.mp enough, rfl⟩)
    · intro few rival rival_mem
      obtain ⟨row, row_mem, enough, -⟩ := (mem_named onDisk).mp rival_mem
      exact absurd (few row row_mem) (not_lt.mpr enough)
  cases head : (Ordered.sortBy compareRivals named).head? with
  | none =>
      have nobody : named = [] := Ordered.head?_sortBy_eq_none.mp head
      have answered : (nemesis player db).1 = .ok none := by
        rw [answer_eq, head]
        rfl
      rw [answered]
      refine ⟨iff_of_true rfl (none_iff.mp nobody), ?_, ?_⟩
      · intro rivalry found
        cases found
      · intro _
        exact ⟨none, rfl⟩
  | some rival =>
      obtain ⟨rival_mem, first⟩ := Ordered.head?_sortBy head
      obtain ⟨row, row_mem, enough, rfl⟩ := (mem_named onDisk).mp rival_mem
      have holds : IsNemesis db player row :=
        isNemesis_of_first onDisk row_mem enough fun other other_mem often =>
          first _ ((mem_named onDisk).mpr ⟨other, other_mem, often, rfl⟩)
      have answered : (nemesis player db).1 = (toRivalry db (rivalOf db player row)).map some := by
        rw [answer_eq, head]
        rfl
      rw [answered]
      refine ⟨iff_of_false ?_ ?_, ?_, ?_⟩
      · cases toRivalry db (rivalOf db player row) <;> nofun
      · intro few
        exact absurd (few row row_mem) (not_lt.mpr enough)
      · intro rivalry found
        refine ⟨row, holds, ?_⟩
        cases shown : toRivalry db (rivalOf db player row) with
        | error error =>
            rw [shown] at found
            cases found
        | ok answer =>
            rw [shown] at found
            cases found
            exact toRivalry_eq_ok shown
      · intro short
        have wins : (winsOver db player row.id).length < 2 ^ 32 :=
          (List.length_filter_le _ _).trans_lt short
        have losses : (lossesTo db player row.id).length < 2 ^ 32 :=
          (List.length_filter_le _ _).trans_lt short
        rw [toRivalry, rivalOf, count_of_lt wins, count_of_lt losses]
        exact ⟨_, rfl⟩

end Title

namespace Feud

def account (id : Nat) (letter : Char) (valid : [letter, letter, letter].all isHandleChar) :
    PlayerRow :=
  ⟨⟨id⟩, ⟨[letter, letter, letter], valid, Handle.triple_long letter, Handle.triple_short letter⟩,
    "", .user, false, 0, 1⟩

/-- A concluded tournament of one day. -/
def night (id : Nat) (createdAt : Micros) : TournamentRow where
  id := ⟨id⟩
  name := Cup.new.name
  game := Cup.new.game
  mode := Cup.new.mode
  description := .empty
  date := Cup.new.date
  registrationClosesAt := 9
  status := .concluded
  winner := none
  createdAt

/-- The two entrants of the final of a tournament. -/
def pair (tournament : Nat) (opponent : PlayerId) : List EntrantRow :=
  [⟨⟨tournament + 1⟩, ⟨tournament⟩, some ⟨1⟩, some 1, 2, none⟩,
    ⟨⟨tournament + 2⟩, ⟨tournament⟩, some opponent, some 2, 2, none⟩]

/-- The final, which the second entrant won. -/
def final (tournament : Nat) : MatchRow :=
  ⟨⟨tournament + 3⟩, ⟨tournament⟩, 1, 0, some ⟨tournament + 1⟩, some ⟨tournament + 2⟩,
    some ⟨tournament + 2⟩⟩

/-- On one day the player 1 lost to the player 2, then twice to the player 3, then again to the
player 2. -/
def database : Database :=
  { Database.empty with
    players := [account 1 'x' (by decide), account 2 'z' (by decide), account 3 'y' (by decide)]
    tournaments := [night 10 9, night 20 10, night 30 11, night 40 12]
    tournamentEntrants := pair 10 ⟨2⟩ ++ pair 20 ⟨3⟩ ++ pair 30 ⟨3⟩ ++ pair 40 ⟨2⟩
    matchRows := [final 10, final 20, final 30, final 40] }

theorem database_onDisk : database.OnDisk where
  players := by decide
  tournaments := by decide
  instants := by decide

end Feud

/-- The creation instant separates two latest losses on one day. -/
theorem nemesis_holds_title_database :
    ∃ row, IsNemesis Feud.database ⟨1⟩ row ∧ row.id = ⟨2⟩ := by
  obtain ⟨-, answered, -⟩ := nemesis_holds_title Feud.database_onDisk ⟨1⟩
  have found : (nemesis ⟨1⟩ Feud.database).1 = .ok (some
      { opponent := Feud.database.toPlayer (Feud.account 2 'z' (by decide)), wins := 0
        losses := 2 }) := by
    decide +kernel
  obtain ⟨row, holds, same⟩ := answered _ found
  refine ⟨row, holds, ?_⟩
  exact (congrArg (fun rivalry : Rivalry => rivalry.opponent.id) same).symm

end LanBunker
