import LanBunker.Services.Alone
import LanBunker.Services.Players

/-!
# The leaderboard is a competition ranking

The windows of the view rank the active players, and the pages of the leaderboard list everyone
who matches the term once, in the order of the places.
-/

namespace LanBunker

open Relational Service PlayerStorage PlayerService

/-! ## The view -/

namespace Database

variable (db : Database)

/-- An admin is active, and so is everyone who was checked in. -/
def Active (row : PlayerRow) : Prop :=
  row.role = .admin ∨ ∃ checkin ∈ db.eventCheckins, checkin.player = row.id

instance (row : PlayerRow) : Decidable (db.Active row) := inferInstanceAs (Decidable (_ ∨ _))

theorem isActive_eq (row : PlayerRow) : db.isActive row = decide (db.Active row) := by
  rw [Bool.eq_iff_iff, isActive, decide_eq_true_iff, Active, Bool.or_eq_true, beq_iff_eq,
    List.any_eq_true]
  simp only [decide_eq_true_iff]

/-- The row of the view for a player. -/
def standingOf (row : PlayerRow) : StandingRow :=
  { player := row.id, cycles := db.cyclesOf row.id, active := db.isActive row
    place := db.placeOf row, players := db.players.countP db.isActive }

private theorem transCmp_cycles :
    Std.TransCmp fun left right : TallyRow => compare right.cycles left.cycles :=
  Ordered.transCmp_on TallyRow.cycles fun left right => compare right left

/-- The rank in the partition of the active players, by counting who has more. -/
private theorem rank_tally (row : PlayerRow) (member : row ∈ db.players)
    (active : db.isActive row) :
    rankOver (fun left right : TallyRow => compare right.cycles left.cycles)
        (db.tallies.filter fun other => other.active = true)
        ⟨row.id, db.cyclesOf row.id, true⟩ =
      1 + db.players.countP fun other =>
        db.isActive other ∧ db.cyclesOf row.id < db.cyclesOf other.id := by
  have := transCmp_cycles
  have tally_mem : (⟨row.id, db.cyclesOf row.id, true⟩ : TallyRow) ∈
      db.tallies.filter fun other => other.active = true := by
    refine List.mem_filter.mpr ⟨List.mem_map.mpr ⟨row, member, ?_⟩, decide_eq_true rfl⟩
    rw [active]
  rw [rankOver_eq tally_mem, List.countP_filter, tallies, List.countP_map]
  congr 1
  refine List.countP_congr fun other _ => ?_
  simp only [Function.comp_apply, Bool.and_eq_true, decide_eq_true_eq, Int.compare_eq_lt]
  exact and_comm

/-- The windows of the view, row by row. -/
theorem playerStandings_eq : db.playerStandings = db.players.map db.standingOf := by
  rw [playerStandings]
  simp only [tallies, List.map_map, List.countP_map]
  refine List.map_congr_left fun row member => ?_
  simp only [Function.comp_apply, standingOf, placeOf]
  cases active : db.isActive row with
  | true =>
      rw [if_pos rfl, if_pos rfl, ← db.rank_tally row member active]
      rfl
  | false => rfl

end Database

/-- What the standing of an account says. -/
structure IsStanding (db : Database) (row : PlayerRow) (standing : StandingRow) : Prop where
  player : standing.player = row.id
  cycles : standing.cycles = db.cyclesOf row.id
  active : standing.active ↔ db.Active row
  placed : standing.place.isSome ↔ db.Active row
  /-- One more than the number of active players with strictly more cycles. -/
  place : ∀ place ∈ standing.place, place = 1 + db.players.countP fun other =>
    db.Active other ∧ db.cyclesOf row.id < db.cyclesOf other.id
  /-- Every active player counts, listed or not. -/
  players : standing.players = db.players.countP fun other => db.Active other

theorem isStanding_standingOf (db : Database) (row : PlayerRow) :
    IsStanding db row (db.standingOf row) where
  player := rfl
  cycles := rfl
  active := by rw [Database.standingOf, db.isActive_eq, decide_eq_true_iff]
  placed := by
    rw [Database.standingOf, Database.placeOf, db.isActive_eq]
    split_ifs with active <;> simpa using active
  place place place_mem := by
    rw [Database.standingOf, Database.placeOf] at place_mem
    split_ifs at place_mem
    · obtain rfl := Option.some.inj place_mem
      simp only [db.isActive_eq, decide_eq_true_iff]
    · cases place_mem
  players := List.countP_congr fun other _ => by rw [db.isActive_eq]

/-! ## The rows of the list -/

section Rows

variable {db : Database}

/-- Every player is joined with the one row of the view. -/
theorem innerJoin_standings (keys : (db.players.map PlayerRow.id).Nodup) :
    (innerJoin db.players db.playerStandings fun p s => s.player = p.id) =
      db.players.map fun p => (p, db.standingOf p) := by
  have partner : ∀ row ∈ db.players, (db.playerStandings.filter fun s => s.player = row.id) =
      (some (db.standingOf row)).toList := by
    intro row member
    rw [db.playerStandings_eq, List.filter_map]
    have single : (db.players.filter ((fun s => decide (s.player = row.id)) ∘ db.standingOf)) =
        [row] := by
      refine filter_eq_singleton keys member (decide_eq_true rfl) fun other _ same => ?_
      exact of_decide_eq_true same
    rw [single]
    rfl
  rw [innerJoin_eq_filterMap partner]
  simp

/-- Who the leaderboard lists: active, and the handle contains the term, whatever the case. -/
def Database.IsWanted (db : Database) (term : Option SearchTerm) (row : PlayerRow) : Prop :=
  db.Active row ∧ ∀ piece ∈ term, lower piece.chars <:+: lower row.handle.chars

instance (term : Option SearchTerm) (row : PlayerRow) : Decidable (db.IsWanted term row) :=
  inferInstanceAs (Decidable (_ ∧ _))

/-- The wanted players, each with the standing. -/
theorem listed_eq (keys : (db.players.map PlayerRow.id).Nodup) (term : Option SearchTerm) :
    listed (term.map Text.chars) (some true) db =
      (db.players.filter fun row => db.IsWanted term row).map fun p => (p, db.standingOf p) := by
  rw [listed, innerJoin_standings keys, List.filter_map]
  congr 1
  refine List.filter_congr fun row _ => ?_
  rw [Bool.eq_iff_iff, Function.comp_apply, isListed, decide_eq_true_iff, Database.IsWanted]
  have active : (db.standingOf row).active = true ↔ db.Active row :=
    (isStanding_standingOf db row).active
  cases term with
  | none => simpa using active
  | some term => simp [instr_pos, active, and_comm]

/-- An active player has a place and an inactive one has none, so the conversion of a row checks
nothing but the width of two counts. -/
theorem checkedPlace_standingOf (row : PlayerRow) :
    checkedPlace (db.standingOf row).active (db.standingOf row).place =
      match db.placeOf row with
      | some place => (tryU32 place).map some
      | none => .ok none := by
  simp only [Database.standingOf, Database.placeOf]
  cases db.isActive row <;> rfl

theorem tryPlayer_eq_ok {row : PlayerRow} {player : Player}
    (shown : tryPlayer (row, db.standingOf row) = .ok player) : player = db.toPlayer row := by
  have place_eq : ∀ place, checkedPlace (db.standingOf row).active (db.standingOf row).place =
      .ok place → place = db.placeOf row := by
    intro place checked
    rw [checkedPlace_standingOf] at checked
    cases placed : db.placeOf row with
    | none =>
        rw [placed] at checked
        exact (Except.ok.inj checked).symm
    | some found =>
        rw [placed] at checked
        dsimp only at checked
        cases narrowed : tryU32 found with
        | error error =>
            rw [narrowed] at checked
            cases checked
        | ok value =>
            rw [narrowed] at checked
            obtain rfl := Except.ok.inj checked
            rw [tryU32_eq_ok narrowed]
  rw [tryPlayer] at shown
  cases place : checkedPlace (db.standingOf row).active (db.standingOf row).place with
  | error error =>
      rw [place] at shown
      cases shown
  | ok value =>
      cases players : tryU32 (db.standingOf row).players with
      | error error =>
          rw [place, players] at shown
          cases shown
      | ok count =>
          rw [place, players] at shown
          obtain rfl := Except.ok.inj shown
          rw [place_eq value place, tryU32_eq_ok players]
          rfl

/-- With less than `2 ^ 32` players every row is shown. -/
theorem tryPlayer_of_lt (few : db.players.length < 2 ^ 32) {row : PlayerRow}
    (member : row ∈ db.players) :
    tryPlayer (row, db.standingOf row) = .ok (db.toPlayer row) := by
  have players : tryU32 (db.standingOf row).players = .ok (db.players.countP db.isActive) :=
    tryU32_of_lt (List.countP_le_length.trans_lt few)
  have place : checkedPlace (db.standingOf row).active (db.standingOf row).place =
      .ok (db.placeOf row) := by
    rw [checkedPlace_standingOf, Database.placeOf]
    split_ifs with active
    · -- The player is not before themself, so the place is at most the number of players.
      have fewer : (db.players.countP fun other =>
          db.isActive other ∧ db.cyclesOf row.id < db.cyclesOf other.id) < db.players.length := by
        refine lt_of_le_of_ne List.countP_le_length fun all => ?_
        have self := of_decide_eq_true (List.countP_eq_length.mp all row member)
        exact lt_irrefl _ self.2
      dsimp only
      rw [tryU32_of_lt (Nat.lt_of_le_of_lt (by omega) few)]
      rfl
    · rfl
  rw [tryPlayer, place, players]
  rfl

/-! ## The order -/

private theorem transCmp_roster (order : ListOrder) : Std.TransCmp (compareRoster order) := by
  have placeless : Std.TransCmp fun left right : RosterRow =>
      compare (isPlaceless order left) (isPlaceless order right) :=
    Ordered.transCmp_on (isPlaceless order) compare
  have place : Std.TransCmp fun left right : RosterRow =>
      Ordered.nullsFirst compare (placeColumn order left) (placeColumn order right) :=
    Ordered.transCmp_on (placeColumn order) (Ordered.nullsFirst compare)
  have newest : Std.TransCmp fun left right : RosterRow =>
      compare right.1.createdAt left.1.createdAt :=
    Ordered.transCmp_on (fun row : RosterRow => row.1.createdAt)
      fun left right => compare right left
  have id : Std.TransCmp fun left right : RosterRow => compare left.1.id.uuid right.1.id.uuid :=
    Ordered.transCmp_on (fun row : RosterRow => row.1.id.uuid) compare
  exact inferInstanceAs (Std.TransCmp (compareLex _ (compareLex _ (compareLex _ _))))

/-- First place first, and the newest signup first among equal places. -/
def InOrder (left right : Player) : Prop :=
  ∃ first second, left.standing.place = some first ∧ right.standing.place = some second ∧
    (first < second ∨ first = second ∧ right.createdAt ≤ left.createdAt)

theorem inOrder_of_isLE {left right : PlayerRow} (left_active : db.isActive left)
    (right_active : db.isActive right)
    (ordered : (compareRoster .standing (left, db.standingOf left)
      (right, db.standingOf right)).isLE) : InOrder (db.toPlayer left) (db.toPlayer right) := by
  obtain ⟨first, left_place⟩ : ∃ first, db.placeOf left = some first :=
    ⟨_, if_pos left_active⟩
  obtain ⟨second, right_place⟩ : ∃ second, db.placeOf right = some second :=
    ⟨_, if_pos right_active⟩
  refine ⟨first, second, left_place, right_place, ?_⟩
  simp only [compareRoster, compareLex, isPlaceless, placeColumn, Database.standingOf, left_place,
    right_place, Ordered.nullsFirst] at ordered
  rw [Ordering.isLE_then_iff_or] at ordered
  rcases ordered with impossible | ⟨-, ordered⟩
  · cases impossible
  · rw [Ordering.isLE_then_iff_or] at ordered
    rcases ordered with less | ⟨same, ordered⟩
    · exact Or.inl (Nat.compare_eq_lt.mp less)
    · have newest : right.createdAt ≤ left.createdAt :=
        Int.isLE_compare.mp (Ordering.isLE_left_of_isLE_then ordered)
      exact Or.inr ⟨Nat.compare_eq_eq.mp same, Int.mul_le_mul_of_nonneg_right newest (by decide)⟩

end Rows

/-! ## The pages -/

section Pages

variable {db : Database} {term : Option SearchTerm}

/-- A read of the leaderboard answers what the list answers in the world it reads. -/
theorem leaderboard_answers {query : RosterQuery} {world after : World}
    {result : Except ServiceError (Paginated Player)}
    (answers : (leaderboard query).Answers world result after) :
    result = (PlayerStorage.list query.pageQuery query.term (some true) .standing
      world.db).1.mapError ServiceError.ofStorage := by
  obtain ⟨db, clock, used⟩ := world
  have settles : Settles (leaderboard query) ⟨db, clock, used⟩ fun result _ =>
      result = (PlayerStorage.list query.pageQuery query.term (some true) .standing
        db).1.mapError ServiceError.ofStorage := by
    rw [leaderboard, settles_store rfl]
    exact fun _ _ => rfl
  exact settles_iff.mp settles result after answers

/-- The wanted players in the order of the leaderboard. -/
def Database.ranking (db : Database) (term : Option SearchTerm) : List RosterRow :=
  Ordered.sortBy (compareRoster .standing) (listed (term.map Text.chars) (some true) db)

theorem ranking_length (keys : (db.players.map PlayerRow.id).Nodup) :
    (db.ranking term).length = (db.players.filter fun row => db.IsWanted term row).length := by
  rw [Database.ranking, (Ordered.sortBy_perm _ _).length_eq, listed_eq keys, List.length_map]

/-- One page: its window of the ranking, and the totals. -/
theorem page_eq (keys : (db.players.map PlayerRow.id).Nodup) {query : RosterQuery}
    {world after : World} {page : Paginated Player} (there : world.db = db)
    (answers : (leaderboard query).Answers world (.ok page) after) :
    (window query.pageQuery.limit query.pageQuery.offset (db.ranking query.q)).mapM tryPlayer =
        .ok page.items ∧
      page = .new page.items (db.players.filter fun row => db.IsWanted query.q row).length
        query.pageQuery := by
  have read := leaderboard_answers answers
  rw [there, PlayerStorage.list, RosterQuery.term] at read
  dsimp only at read
  rw [← Database.ranking] at read
  cases items : (window query.pageQuery.limit query.pageQuery.offset
      (db.ranking query.q)).mapM tryPlayer with
  | error error =>
      rw [items] at read
      cases read
  | ok players =>
      rw [items] at read
      obtain rfl := Except.ok.inj read
      refine ⟨rfl, ?_⟩
      rw [listed_eq keys, List.length_map]
      rfl

/-- The rows of the ranking, without their standings. -/
theorem exists_ranking (keys : (db.players.map PlayerRow.id).Nodup) (term : Option SearchTerm) :
    ∃ rows : List PlayerRow, rows.Perm (db.players.filter fun row => db.IsWanted term row) ∧
      db.ranking term = rows.map fun row => (row, db.standingOf row) := by
  have perm := Ordered.sortBy_perm (compareRoster .standing)
    (listed (term.map Text.chars) (some true) db)
  rw [listed_eq keys] at perm
  refine ⟨(db.ranking term).map Prod.fst, ?_, ?_⟩
  · have firsts := perm.map Prod.fst
    rw [List.map_map] at firsts
    rw [Database.ranking, listed_eq keys]
    exact firsts.trans (List.Perm.of_eq (List.map_id _))
  · rw [List.map_map]
    refine (List.map_id _).symm.trans (List.map_congr_left fun row member => ?_)
    rw [Database.ranking, listed_eq keys] at member
    obtain ⟨player, -, rfl⟩ := List.mem_map.mp (perm.subset member)
    rfl

/-- The players of the ranking, in the order of the places. -/
theorem pairwise_inOrder {rows : List PlayerRow}
    (wanted : rows.Perm (db.players.filter fun row => db.IsWanted term row))
    (ranked : db.ranking term = rows.map fun row => (row, db.standingOf row)) :
    (rows.map db.toPlayer).Pairwise InOrder := by
  have := transCmp_roster .standing
  have sorted : (db.ranking term).Pairwise fun left right =>
      (compareRoster .standing left right).isLE := Ordered.pairwise_sortBy _
  have active : ∀ row ∈ rows, db.isActive row := by
    intro row member
    have row_wanted := of_decide_eq_true (List.mem_filter.mp (wanted.subset member)).2
    rw [db.isActive_eq]
    exact decide_eq_true row_wanted.1
  rw [ranked, List.pairwise_map] at sorted
  rw [List.pairwise_map]
  exact sorted.imp_of_mem fun left_mem right_mem ordered =>
    inOrder_of_isLE (active _ left_mem) (active _ right_mem) ordered

/-- What the leaderboard shows of an account: the standing of the view. -/
def IsShown (db : Database) (row : PlayerRow) (player : Player) : Prop :=
  ∃ standing ∈ db.playerStandings, IsStanding db row standing ∧
    player =
      { id := row.id, handle := row.handle, role := row.role, active := standing.active
        standing := Standing.new standing.cycles standing.place standing.players
        createdAt := instantOf row.createdAt }

/-- The leaderboard is a competition ranking, and its pages list everyone wanted once. -/
theorem leaderboard_ranks (db : Database) (keys : (db.players.map PlayerRow.id).Nodup)
    (term : Option SearchTerm) (size : PageSize) :
    List.Forall₂ (IsStanding db) db.players db.playerStandings ∧
    (∀ row ∈ listed (term.map Text.chars) (some true) db,
      row.2.active = true ∧ row.2.place.isSome) ∧
    (db.players.length < 2 ^ 32 → ∀ query world result after, world.db = db →
      (leaderboard query).Answers world result after → ∃ page, result = .ok page) ∧
    (∀ query page world after, query.q = term → query.pageSize = size → world.db = db →
      (leaderboard query).Answers world (.ok page) after →
        page.totalPages = pageCount (db.players.countP fun row => db.IsWanted term row) size) ∧
    ∀ queries pages, AsksAll (queries.map RosterQuery.pageQuery) size
        (pageCount (db.players.countP fun row => db.IsWanted term row) size) →
      List.Forall₂ (fun query page => query.q = term ∧ ∃ world after, world.db = db ∧
        (leaderboard query).Answers world (.ok page) after) queries pages →
      (pages.flatMap Paginated.items).Pairwise InOrder ∧
        ∃ rows, rows.Perm (db.players.filter fun row => db.IsWanted term row) ∧
          List.Forall₂ (IsShown db) rows (pages.flatMap Paginated.items) := by
  refine ⟨?_, ?_, ?_, ?_, ?_⟩
  · rw [db.playerStandings_eq, List.forall₂_map_right_iff, List.forall₂_same]
    exact fun row _ => isStanding_standingOf db row
  · intro row member
    rw [listed_eq keys] at member
    obtain ⟨player, player_mem, rfl⟩ := List.mem_map.mp member
    have wanted := of_decide_eq_true (List.mem_filter.mp player_mem).2
    have standing := isStanding_standingOf db player
    exact ⟨standing.active.mpr wanted.1, standing.placed.mpr wanted.1⟩
  · rintro few query world result after there answers
    have read := leaderboard_answers answers
    obtain ⟨items, shown⟩ : ∃ items, (window query.pageQuery.limit query.pageQuery.offset
        (db.ranking query.q)).mapM tryPlayer = .ok items := by
      refine Ordered.exists_mapM_eq_ok fun row member => ?_
      have row_mem := List.mem_of_mem_drop (List.mem_of_mem_take member)
      obtain ⟨rows, perm, ranked⟩ := exists_ranking keys query.q
      rw [ranked] at row_mem
      obtain ⟨player, player_mem, rfl⟩ := List.mem_map.mp row_mem
      exact ⟨_, tryPlayer_of_lt few (List.mem_filter.mp (perm.subset player_mem)).1⟩
    rw [there, PlayerStorage.list, RosterQuery.term] at read
    dsimp only at read
    rw [← Database.ranking, shown] at read
    exact ⟨_, read⟩
  · rintro query page world after rfl rfl there answers
    obtain ⟨-, page_eq⟩ := page_eq keys there answers
    rw [page_eq, List.countP_eq_length_filter]
    rfl
  · intro queries pages asks read
    obtain ⟨rows, perm, ranked⟩ := exists_ranking keys term
    rw [List.countP_eq_length_filter, ← ranking_length keys] at asks
    have windows : List.Forall₂ (fun query page =>
        (window query.limit query.offset (db.ranking term)).mapM tryPlayer = .ok page.items)
          (queries.map RosterQuery.pageQuery) pages := by
      rw [List.forall₂_map_left_iff]
      refine read.imp ?_
      rintro query page ⟨rfl, world, after, there, answers⟩
      exact (page_eq keys there answers).1
    have shown := asks.mapM_eq_ok windows
    rw [ranked, List.mapM_map] at shown
    have items_eq : (pages.flatMap Paginated.items).map id = rows.map db.toPlayer :=
      Ordered.map_eq_of_mapM_ok (fun _ _ => tryPlayer_eq_ok) shown
    rw [List.map_id] at items_eq
    rw [items_eq]
    refine ⟨pairwise_inOrder perm ranked, rows, perm, ?_⟩
    rw [List.forall₂_map_right_iff, List.forall₂_same]
    intro row member
    have row_mem := (List.mem_filter.mp (perm.subset member)).1
    refine ⟨db.standingOf row, ?_, isStanding_standingOf db row, rfl⟩
    rw [db.playerStandings_eq]
    exact List.mem_map_of_mem row_mem

end Pages

namespace Club

def account (id : Nat) (letter : Char) (valid : [letter, letter, letter].all isHandleChar)
    (role : Role) : PlayerRow :=
  ⟨⟨id⟩, ⟨[letter, letter, letter], valid, Handle.triple_long letter, Handle.triple_short letter⟩,
    "", role, false, 0, 1⟩

/-- An admin without cycles, a player who was never checked in, and one who was. -/
def database : Database :=
  { Database.empty with
    players := [account 1 'k' (by decide) .admin, account 2 'l' (by decide) .user,
      account 3 'm' (by decide) .user]
    eventCheckins := [⟨⟨50⟩, ⟨3⟩, 1⟩]
    pointEntries := [⟨⟨60⟩, ⟨3⟩, checkinCycles, .checkin, ⟨50⟩, none, some ⟨50⟩, none, none, 1⟩] }

/-- The page of one player. -/
def page (number : Nat) (one_le : 1 ≤ number) (fits : number < 2 ^ 32) : RosterQuery :=
  ⟨⟨number, one_le, fits⟩, .one, none⟩

end Club

/-- Two pages of one player list the two active players. -/
theorem leaderboard_ranks_club : ∃ pages,
    List.Forall₂ (fun query page => ∃ after,
      (leaderboard query).Answers ⟨Club.database, World.earliest, []⟩ (.ok page) after)
        [Club.page 1 (by decide) (by decide), Club.page 2 (by decide) (by decide)] pages ∧
      ((pages.flatMap Paginated.items).map Player.id).Perm [⟨1⟩, ⟨3⟩] := by
  obtain ⟨-, -, answers, -, listed⟩ :=
    leaderboard_ranks Club.database (by decide) none PageSize.one
  have read : ∀ query, ∃ page after,
      (leaderboard query).Answers ⟨Club.database, World.earliest, []⟩ (.ok page) after := by
    intro query
    obtain ⟨result, after, answered⟩ := exists_answers (leaderboard query)
      ⟨Club.database, World.earliest, []⟩
    obtain ⟨page, rfl⟩ := answers (by decide) query _ result after rfl answered
    exact ⟨page, after, answered⟩
  obtain ⟨first, first_after, first_read⟩ := read (Club.page 1 (by decide) (by decide))
  obtain ⟨second, second_after, second_read⟩ := read (Club.page 2 (by decide) (by decide))
  have asks : AsksAll ([Club.page 1 (by decide) (by decide),
      Club.page 2 (by decide) (by decide)].map RosterQuery.pageQuery) PageSize.one
      (pageCount (Club.database.players.countP fun row => Club.database.IsWanted none row)
        PageSize.one) := by
    refine ⟨by decide, fun query member => ?_⟩
    rcases List.mem_pair.mp member with rfl | rfl <;> rfl
  obtain ⟨-, rows, perm, shown⟩ := listed _ [first, second] asks
    (.cons ⟨rfl, _, _, rfl, first_read⟩ (.cons ⟨rfl, _, _, rfl, second_read⟩ .nil))
  refine ⟨[first, second], .cons ⟨_, first_read⟩ (.cons ⟨_, second_read⟩ .nil), ?_⟩
  have ids : ([first, second].flatMap Paginated.items).map Player.id = rows.map PlayerRow.id := by
    rw [← List.forall₂_eq_eq_eq, List.forall₂_map_left_iff, List.forall₂_map_right_iff]
    refine shown.flip.imp ?_
    rintro player row ⟨standing, -, -, rfl⟩
    rfl
  rw [ids]
  exact perm.map PlayerRow.id

end LanBunker
