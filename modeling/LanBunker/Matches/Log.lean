import LanBunker.Matches.Story

/-!
# The pages of a match log

Inside one tournament the round and the slot tell the rows of a player apart.  Two tournaments of
one day and one creation instant share their keys, and then a page border can lose a row.
-/

namespace LanBunker

open Relational Interleaving TournamentStorage MatchStorage

/-! ## No player enters twice -/

namespace Board

variable {board after : Board} {id : TournamentId}

/-- The accounts behind the entries. -/
def accounts (board : Board) : List PlayerId := board.entrants.filterMap EntrantRow.player

private theorem accounts_map {entrants : List EntrantRow} {write : EntrantRow → EntrantRow}
    (same_players : ∀ entrant, (write entrant).player = entrant.player) :
    (entrants.map write).filterMap EntrantRow.player = entrants.filterMap EntrantRow.player := by
  rw [List.filterMap_map]
  exact List.filterMap_congr fun entrant _ => same_players entrant

/-- A deleted account leaves its entries without a player. -/
private theorem accounts_anonymised (entrants : List EntrantRow) (player : PlayerId) :
    ((entrants.map (unnamed player)).filterMap EntrantRow.player).Sublist
      (entrants.filterMap EntrantRow.player) := by
  induction entrants with
  | nil => exact List.Sublist.refl _
  | cons entrant entrants ih =>
      rw [List.map_cons, List.filterMap_cons, List.filterMap_cons, unnamed]
      by_cases gone : entrant.player = some player
      · rw [if_pos gone, gone]
        exact ih.cons _
      · rw [if_neg gone]
        cases entrant.player with
        | none => exact ih
        | some other => exact ih.cons_cons other

/-- An entry needs a player without one. -/
theorem Move.accounts_nodup {label : Label bunker} {fresh : List Nat}
    (move : Move label fresh id board after) (distinct : board.accounts.Nodup) :
    after.accounts.Nodup := by
  cases move with
  | stay => exact distinct
  | anonymised player => exact distinct.sublist (accounts_anonymised board.entrants player)
  | created => exact distinct
  | edited => exact distinct
  | moved => exact distinct
  | concluded => exact distinct
  | deleted => exact List.nodup_nil
  | @entered row entrant found open_row no_bracket new room alone =>
      rw [accounts, List.filterMap_append]
      cases account : entrant.player with
      | none =>
          rw [List.filterMap_cons_none account, List.filterMap_nil, List.append_nil]
          exact distinct
      | some player =>
          rw [List.filterMap_cons_some account, List.filterMap_nil]
          refine List.Nodup.append distinct (List.nodup_singleton _) ?_
          rw [List.disjoint_singleton]
          intro taken
          obtain ⟨other, member, same⟩ := List.mem_filterMap.mp taken
          have there : entrant.player.isSome := by rw [account]; rfl
          exact alone other member there (same.trans account.symm)
  | rated found open_row no_bracket same_ids same_players =>
      rw [accounts, accounts_map same_players]
      exact distinct
  | left => exact distinct.sublist (List.filter_sublist.filterMap _)
  | drawn found live unplayed generated ids new order_nodup seated same_ids seeds answered
      same_players =>
      rw [accounts, accounts_map same_players]
      exact distinct
  | undrawn found open_row unplayed same_ids same_players =>
      rw [accounts, accounts_map same_players]
      exact distinct
  | resulted => exact distinct

end Board

/-- In every run no player enters a tournament twice. -/
theorem accounts_along {clock : Instant} {trace : List (Moment bunker)} {stop : Config bunker}
    (run : Run (Config.quiet (World.initial clock)) trace stop) (id : TournamentId) :
    (stop.state.db.board id).accounts.Nodup := by
  let holds : TournamentId → Board → Prop := fun _ board => board.accounts.Nodup
  have empty : ∀ id, holds id .empty := fun _ => List.nodup_nil
  exact (board_invariant empty (fun moment fresh id _ _ move distinct =>
    move.accounts_nodup distinct) run (fun _ _ => trivial) id).1

/-! ## The keys -/

/-- What the log sorts by. -/
def SideRow.key (side : SideRow) : (Date × Micros) × Nat × Nat :=
  ((side.playedOn, side.tournamentCreatedAt), side.round, side.slot)

/-- The match is played and public, and the player is on one side of it. -/
structure PlayedBy (db : Database) (player : PlayerId) (m : MatchRow) (t : TournamentRow) :
    Prop where
  stored : m ∈ db.matchRows
  tournament : t ∈ db.tournaments
  named : t.id = m.tournament
  played : m.isPlayed
  shown : t.status.isPublic
  side : ∃ e ∈ db.tournamentEntrants, e.player = some player ∧
    (m.entrantA = some e.id ∨ m.entrantB = some e.id)

section Keys

variable {used : List Nat} {db : Database} {player : PlayerId}

/-- The rows of the player that a match has in the view. -/
def ownSides (db : Database) (player : PlayerId) (m : MatchRow) : List SideRow :=
  (db.sidesOf m).filter fun side => side.player = some player

theorem rowsOf_perm (drawn : db.Drawn used) :
    (rowsOf player db).Perm (db.matchRows.flatMap (ownSides db player)) := by
  have perm := (playerMatches_perm drawn).filter fun side => side.player = some player
  rwa [List.filter_flatMap] at perm

/-- A row of the player, at the position of its match. -/
theorem of_mem_ownSides (drawn : db.Drawn used) {m : MatchRow} (member : m ∈ db.matchRows)
    {side : SideRow} (side_mem : side ∈ ownSides db player m) :
    ∃ t, PlayedBy db player m t ∧ side.tournament = m.tournament ∧
      side.key = ((t.date, t.createdAt), m.round, m.slot) := by
  obtain ⟨listed, named⟩ := List.mem_filter.mp side_mem
  have named := of_decide_eq_true named
  have shown : m.isPlayed ∧ db.isPublic m.tournament := by
    by_contra hidden
    rw [sidesOf_eq_nil hidden] at listed
    cases listed
  obtain ⟨t, a, b, parties⟩ := exists_parties drawn member shown.1 shown.2
  have t_public : t.status.isPublic := by
    have is_public := shown.2
    rw [Database.isPublic, ← parties.named,
      tournament?_of_mem drawn.good.tournaments parties.tournament] at is_public
    exact is_public
  rw [parties.sides] at listed
  rcases List.mem_pair.mp listed with rfl | rfl
  · exact ⟨t, ⟨member, parties.tournament, parties.named, shown.1, t_public, a, parties.entrantA,
      named, Or.inl parties.sideA⟩, rfl, rfl⟩
  · exact ⟨t, ⟨member, parties.tournament, parties.named, shown.1, t_public, b, parties.entrantB,
      named, Or.inr parties.sideB⟩, rfl, rfl⟩

/-- A match the player played is a row of the log. -/
theorem PlayedBy.exists_row (drawn : db.Drawn used) {m : MatchRow} {t : TournamentRow}
    (by_player : PlayedBy db player m t) : ∃ side ∈ rowsOf player db,
      side.tournament = m.tournament ∧ side.key = ((t.date, t.createdAt), m.round, m.slot) := by
  have is_public : db.isPublic m.tournament := by
    rw [Database.isPublic, ← by_player.named,
      tournament?_of_mem drawn.good.tournaments by_player.tournament]
    exact by_player.shown
  obtain ⟨t', a, b, parties⟩ := exists_parties drawn by_player.stored by_player.played is_public
  obtain rfl : t' = t := by
    have found := tournament?_of_mem drawn.good.tournaments parties.tournament
    have same := tournament?_of_mem drawn.good.tournaments by_player.tournament
    rw [parties.named] at found
    rw [by_player.named] at same
    exact Option.some.inj (found.symm.trans same)
  have listed : ∀ side ∈ db.sidesOf m, side.player = some player → side ∈ rowsOf player db := by
    intro side side_mem named
    refine (rowsOf_perm drawn).symm.subset (List.mem_flatMap.mpr ⟨m, by_player.stored, ?_⟩)
    exact List.mem_filter.mpr ⟨side_mem, decide_eq_true named⟩
  have same_entrant : ∀ left ∈ db.tournamentEntrants, ∀ right ∈ db.tournamentEntrants,
      left.id = right.id → left = right :=
    fun left left_mem right right_mem same =>
      List.inj_on_of_nodup_map drawn.good.entrants left_mem right_mem same
  obtain ⟨e, e_mem, e_player, stands | stands⟩ := by_player.side
  · obtain rfl := same_entrant a parties.entrantA e e_mem
      (Option.some.inj (parties.sideA.symm.trans stands))
    refine ⟨_, listed (Database.sideA (((m, t'), a), b)) ?_ e_player, rfl, rfl⟩
    rw [parties.sides]
    exact List.mem_cons_self
  · obtain rfl := same_entrant b parties.entrantB e e_mem
      (Option.some.inj (parties.sideB.symm.trans stands))
    refine ⟨_, listed (Database.sideB (((m, t'), a), b)) ?_ e_player, rfl, rfl⟩
    rw [parties.sides]
    exact List.mem_cons_of_mem _ List.mem_cons_self

/-- Nobody is on both sides of a match. -/
theorem ownSides_length_le (drawn : db.Drawn used) (accounts : ∀ id, (db.board id).accounts.Nodup)
    {m : MatchRow} (member : m ∈ db.matchRows) : (ownSides db player m).length ≤ 1 := by
  by_cases shown : m.isPlayed ∧ db.isPublic m.tournament
  · obtain ⟨t, a, b, parties⟩ := exists_parties drawn member shown.1 shown.2
    have on_board : ∀ e ∈ db.tournamentEntrants, e.tournament = m.tournament →
        e ∈ (db.board m.tournament).entrants :=
      fun e e_mem here => List.mem_filter.mpr ⟨e_mem, decide_eq_true here⟩
    have not_both : ¬(a.player = some player ∧ b.player = some player) := by
      rintro ⟨a_player, b_player⟩
      have same := eq_of_filterMap_nodup (accounts m.tournament)
        (on_board a parties.entrantA parties.hereA) (on_board b parties.entrantB parties.hereB)
        a_player b_player
      exact parties.apart (congrArg EntrantRow.id same)
    rw [ownSides, parties.sides, List.filter_cons, List.filter_cons, List.filter_nil]
    by_cases a_player : a.player = some player
    · have b_other : ¬b.player = some player := fun b_player => not_both ⟨a_player, b_player⟩
      simp [Database.sideA, Database.sideB, Database.sideRow, a_player, b_other]
    · simp only [Database.sideA, Database.sideB, Database.sideRow, a_player]
      split_ifs <;> simp_all
  · rw [ownSides, sidesOf_eq_nil shown]
    exact Nat.zero_le 1

/-- No row comes twice. -/
theorem matchRows_nodup (good : db.Good used) : db.matchRows.Nodup := by
  rw [List.nodup_iff_count_le_one]
  intro m
  have on_board : (db.board m.tournament).rows.count m = db.matchRows.count m :=
    List.count_filter (decide_eq_true rfl)
  rw [← on_board]
  exact List.nodup_iff_count_le_one.mp (board_rows_nodup good m.tournament).of_map m

/-- Inside a tournament the round and the slot name a match. -/
theorem match_eq_of_position (good : db.Good used) {left right : MatchRow}
    (left_mem : left ∈ db.matchRows) (right_mem : right ∈ db.matchRows)
    (tournament : left.tournament = right.tournament) (round : left.round = right.round)
    (slot : left.slot = right.slot) : left = right := by
  have left_listed : left ∈ (db.board right.tournament).rows :=
    List.mem_filter.mpr ⟨left_mem, decide_eq_true tournament⟩
  have right_listed : right ∈ (db.board right.tournament).rows :=
    List.mem_filter.mpr ⟨right_mem, decide_eq_true rfl⟩
  obtain ⟨order, bracket, bracket_drawn, -, rows_eq⟩ :=
    (good.boards right.tournament).bracket.resolve_left (List.ne_nil_of_mem right_listed)
  rw [rows_eq] at left_listed right_listed
  obtain ⟨first, first_mem, rfl⟩ := List.mem_map.mp left_listed
  obtain ⟨second, second_mem, second_eq⟩ := List.mem_map.mp right_listed
  rw [← second_eq] at round slot ⊢
  obtain ⟨firstRound, firstSlot, first_found⟩ := Bracket.mem_flat_iff.mp first_mem
  obtain ⟨secondRound, secondSlot, second_found⟩ := Bracket.mem_flat_iff.mp second_mem
  obtain ⟨first_round, first_slot⟩ := bracket_drawn.coherent.placed _ _ _ first_found
  obtain ⟨second_round, second_slot⟩ := bracket_drawn.coherent.placed _ _ _ second_found
  have same_round : first.round = second.round := round
  have same_slot : first.slot = second.slot := slot
  obtain rfl : firstRound = secondRound := by omega
  obtain rfl : firstSlot = secondSlot := by omega
  obtain rfl := Option.some.inj (first_found.symm.trans second_found)
  rfl

/-- No two rows of the log of a player have one key. -/
def KeysDistinct (db : Database) (player : PlayerId) : Prop :=
  ((rowsOf player db).map SideRow.key).Nodup

instance : Decidable (KeysDistinct db player) := inferInstanceAs (Decidable (List.Nodup _))

/-- Two tournaments of one day and one creation instant hold results of the player at one
position. -/
def HasTwins (db : Database) (player : PlayerId) : Prop :=
  ∃ left right leftTournament rightTournament,
    PlayedBy db player left leftTournament ∧ PlayedBy db player right rightTournament ∧
      leftTournament.id ≠ rightTournament.id ∧ leftTournament.date = rightTournament.date ∧
      leftTournament.createdAt = rightTournament.createdAt ∧ left.round = right.round ∧
      left.slot = right.slot

theorem keysDistinct_iff (drawn : db.Drawn used)
    (accounts : ∀ id, (db.board id).accounts.Nodup) :
    KeysDistinct db player ↔ ¬HasTwins db player := by
  constructor
  · rintro distinct ⟨left, right, t, t', left_by, right_by, apart, day, created, round, slot⟩
    obtain ⟨leftRow, left_mem, left_tournament, left_key⟩ := left_by.exists_row drawn
    obtain ⟨rightRow, right_mem, right_tournament, right_key⟩ := right_by.exists_row drawn
    have same_key : leftRow.key = rightRow.key := by
      rw [left_key, right_key, day, created, round, slot]
    obtain rfl := List.inj_on_of_nodup_map distinct left_mem right_mem same_key
    exact apart (left_by.named.trans
      ((left_tournament.symm.trans right_tournament).trans right_by.named.symm))
  · intro no_twins
    have by_match : ((db.matchRows.flatMap (ownSides db player)).map SideRow.key).Nodup := by
      rw [List.map_flatMap, List.nodup_flatMap]
      constructor
      · intro m member
        have at_most_one : (ownSides db player m).length ≤ 1 :=
          ownSides_length_le drawn accounts member
        cases own : ownSides db player m with
        | nil => exact List.nodup_nil
        | cons side others =>
            rw [own, List.length_cons] at at_most_one
            obtain rfl := List.length_eq_zero_iff.mp
              (Nat.le_zero.mp (Nat.le_of_succ_le_succ at_most_one))
            exact List.nodup_singleton _
      · refine (matchRows_nodup drawn.good).pairwise_of_forall_ne fun left left_mem right right_mem
          apart => ?_
        intro key left_key right_key
        obtain ⟨leftRow, left_row, rfl⟩ := List.mem_map.mp left_key
        obtain ⟨rightRow, right_row, same_key⟩ := List.mem_map.mp right_key
        obtain ⟨t, left_by, -, left_eq⟩ := of_mem_ownSides drawn left_mem left_row
        obtain ⟨t', right_by, -, right_eq⟩ := of_mem_ownSides drawn right_mem right_row
        rw [left_eq, right_eq] at same_key
        simp only [Prod.mk.injEq] at same_key
        obtain ⟨⟨day, created⟩, round, slot⟩ := same_key
        by_cases tournament : left.tournament = right.tournament
        · exact apart (match_eq_of_position drawn.good left_mem right_mem tournament round.symm
            slot.symm)
        · refine no_twins ⟨left, right, t, t', left_by, right_by, fun same => tournament ?_,
            day.symm, created.symm, round.symm, slot.symm⟩
          exact left_by.named.symm.trans (same.trans right_by.named)
    exact (((rowsOf_perm drawn).map SideRow.key).nodup_iff).mpr by_match

end Keys

/-! ## The pages -/

section Pages

variable {used : List Nat} {db : Database} {player : PlayerId}

/-- The order of the log. -/
def compareNewest : SideRow → SideRow → Ordering :=
  compareLex (fun left right => compareDays right.playedOn left.playedOn) <|
    compareLex (fun left right => compare right.tournamentCreatedAt left.tournamentCreatedAt) <|
    compareLex (fun left right => compare right.round left.round)
      fun left right => compare left.slot right.slot

theorem newestFirst_eq (left right : SideRow) :
    newestFirst left right = (compareNewest left right).isLE := by
  rw [newestFirst, Ordering.then_assoc, Ordering.then_assoc]
  rfl

theorem transCmp_days : Std.TransCmp compareDays := by
  have year : Std.TransCmp fun left right : Date => compare left.year right.year :=
    Ordered.transCmp_on Date.year compare
  have month : Std.TransCmp fun left right : Date => compare left.month right.month :=
    Ordered.transCmp_on Date.month compare
  have day : Std.TransCmp fun left right : Date => compare left.day right.day :=
    Ordered.transCmp_on Date.day compare
  exact inferInstanceAs (Std.TransCmp (compareLex (compareLex _ _) _))

theorem compareDays_eq {left right : Date} (same : compareDays left right = .eq) :
    left = right := by
  rw [compareDays, Ordering.then_eq_eq, Ordering.then_eq_eq] at same
  obtain ⟨⟨year, month⟩, day⟩ := same
  have years := Int.compare_eq_eq.mp year
  have months := Nat.compare_eq_eq.mp month
  have days := Nat.compare_eq_eq.mp day
  cases left
  cases right
  simp_all

private theorem transCmp_newest : Std.TransCmp compareNewest := by
  have := transCmp_days
  have day : Std.TransCmp fun left right : SideRow => compareDays right.playedOn left.playedOn :=
    Ordered.transCmp_on SideRow.playedOn fun left right => compareDays right left
  have created : Std.TransCmp fun left right : SideRow =>
      compare right.tournamentCreatedAt left.tournamentCreatedAt :=
    Ordered.transCmp_on SideRow.tournamentCreatedAt fun left right => compare right left
  have round : Std.TransCmp fun left right : SideRow => compare right.round left.round :=
    Ordered.transCmp_on SideRow.round fun left right => compare right left
  have slot : Std.TransCmp fun left right : SideRow => compare left.slot right.slot :=
    Ordered.transCmp_on SideRow.slot compare
  exact inferInstanceAs (Std.TransCmp (compareLex _ (compareLex _ (compareLex _ _))))

/-- Rows that compare equal share the key. -/
theorem key_eq {left right : SideRow} (same : compareNewest left right = .eq) :
    left.key = right.key := by
  simp only [compareNewest, compareLex, Ordering.then_eq_eq] at same
  obtain ⟨day, created, round, slot⟩ := same
  rw [SideRow.key, SideRow.key, compareDays_eq day, Int.compare_eq_eq.mp created,
    Nat.compare_eq_eq.mp round, Nat.compare_eq_eq.mp slot]

/-- The rows of the log, each with its tournament. -/
def logRows (player : PlayerId) (db : Database) : List (SideRow × TournamentRow) :=
  innerJoin (rowsOf player db) db.tournaments fun row t => t.id = row.tournament

/-- What a read of the log may answer: equal keys come in any order. -/
def MayAnswer (db : Database) (player : PlayerId) (query : PageQuery)
    (page : Paginated PlayedMatch) : Prop :=
  ∃ sorted items, sorted.Perm (logRows player db) ∧
    sorted.Pairwise (fun left right => newestFirst left.1 right.1) ∧
    (window query.limit query.offset sorted).mapM (toPlayedMatch db) = .ok items ∧
    page = .new items (rowsOf player db).length query

private theorem transCmp_rows :
    Std.TransCmp fun left right : SideRow × TournamentRow => compareNewest left.1 right.1 := by
  have := transCmp_newest
  exact Ordered.transCmp_on Prod.fst compareNewest

private theorem sorted_iff {rows : List (SideRow × TournamentRow)} :
    (rows.Pairwise fun left right => newestFirst left.1 right.1) ↔
      rows.Pairwise fun left right => (compareNewest left.1 right.1).isLE := by
  simp only [newestFirst_eq]

/-- What the log answers with one order of equal keys is one of these answers. -/
theorem mayAnswer_history {query : PageQuery} {page : Paginated PlayedMatch}
    (answered : (MatchStorage.history player query db).1 = .ok page) :
    MayAnswer db player query page := by
  have := transCmp_rows
  set sorted := Ordered.sortBy (fun left right : SideRow × TournamentRow =>
    compareNewest left.1 right.1) (logRows player db) with sorted_eq
  have same : (logRows player db).insertionSort (fun left right => newestFirst left.1 right.1) =
      sorted := by
    simp only [sorted_eq, Ordered.sortBy, newestFirst_eq]
  simp only [MatchStorage.history] at answered
  rw [← logRows, same, ← window] at answered
  cases items : (window query.limit query.offset sorted).mapM (toPlayedMatch db) with
  | error error =>
      rw [items] at answered
      cases answered
  | ok found =>
      rw [items] at answered
      exact ⟨sorted, found, Ordered.sortBy_perm _ _, sorted_iff.mpr (Ordered.pairwise_sortBy _),
        items, (Except.ok.inj answered).symm⟩

/-- All pages list every played match of the player once, whatever order equal keys come in. -/
def PagesPartition (db : Database) (player : PlayerId) : Prop :=
  ∀ size queries pages, AsksAll queries size (pageCount (rowsOf player db).length size) →
    List.Forall₂ (MayAnswer db player) queries pages →
    ((pages.flatMap Paginated.items).map fun m => (m.tournamentId, m.id)).Perm
      ((rowsOf player db).map fun row => (row.tournament, row.matchId))

/-- Every row is joined with its one tournament. -/
theorem logRows_fst (drawn : db.Drawn used) :
    (logRows player db).map Prod.fst = rowsOf player db := by
  have partner : ∀ row ∈ rowsOf player db,
      db.tournaments.filter (fun t => t.id = row.tournament) =
        (tournament? row.tournament db).toList ∧ (tournament? row.tournament db).isSome := by
    intro row member
    obtain ⟨m, m_mem, -, -, -, -, tournament, -⟩ :=
      side_cases drawn (List.mem_filter.mp member).1
    have linked := drawn.linked m_mem
    obtain ⟨t, t_mem, t_id⟩ := linked.there
    rw [tournament]
    refine ⟨filter_tournaments drawn.good linked, ?_⟩
    rw [← t_id, tournament?_of_mem drawn.good.tournaments t_mem]
    rfl
  rw [logRows, innerJoin_eq_filterMap fun row member => (partner row member).1, List.map_filterMap]
  refine (List.filterMap_congr fun row member => ?_).trans List.filterMap_some
  obtain ⟨t, found⟩ := Option.isSome_iff_exists.mp (partner row member).2
  rw [found]
  rfl

theorem toPlayedMatch_eq_ok {row : SideRow × TournamentRow} {played : PlayedMatch}
    (shown : toPlayedMatch db row = .ok played) :
    (played.tournamentId, played.id) = (row.1.tournament, row.1.matchId) := by
  rw [toPlayedMatch] at shown
  cases round : count row.1.round with
  | error error =>
      rw [round] at shown
      cases shown
  | ok number =>
      cases rounds : count (roundsOf row.1.tournament db) with
      | error error =>
          rw [round, rounds] at shown
          cases shown
      | ok last =>
          rw [round, rounds] at shown
          cases won : row.1.won with
          | none =>
              rw [won] at shown
              cases shown
          | some result =>
              rw [won] at shown
              obtain rfl := Except.ok.inj shown
              rfl

/-- Rows with distinct keys have one order, and its pages are the rows. -/
theorem pagesPartition_of_distinct (drawn : db.Drawn used) (distinct : KeysDistinct db player) :
    PagesPartition db player := by
  have := transCmp_rows
  intro size queries pages asks read
  set rows := Ordered.sortBy (fun left right : SideRow × TournamentRow =>
    compareNewest left.1 right.1) (logRows player db) with rows_eq
  have perm : rows.Perm (logRows player db) := Ordered.sortBy_perm _ _
  have firsts : (rows.map Prod.fst).Perm (rowsOf player db) := by
    rw [← logRows_fst drawn]
    exact perm.map Prod.fst
  have unique : ∀ sorted : List (SideRow × TournamentRow), sorted.Perm (logRows player db) →
      sorted.Pairwise (fun left right => newestFirst left.1 right.1) → sorted = rows := by
    intro sorted sorted_perm in_order
    refine Ordered.eq_of_sorted (fun left left_mem right right_mem same => ?_)
      (sorted_iff.mp in_order) (Ordered.pairwise_sortBy _) (sorted_perm.trans perm.symm)
    obtain ⟨leftRow, left_t⟩ := left
    obtain ⟨rightRow, right_t⟩ := right
    obtain ⟨left_row, left_there, left_named⟩ := mem_innerJoin.mp (sorted_perm.subset left_mem)
    obtain ⟨right_row, right_there, right_named⟩ := mem_innerJoin.mp (sorted_perm.subset right_mem)
    obtain rfl := List.inj_on_of_nodup_map distinct left_row right_row (key_eq same)
    have same_id : left_t.id = right_t.id :=
      (of_decide_eq_true left_named).trans (of_decide_eq_true right_named).symm
    rw [List.inj_on_of_nodup_map drawn.good.tournaments left_there right_there same_id]
  have length : rows.length = (rowsOf player db).length := by
    rw [← firsts.length_eq, List.length_map]
  rw [← length] at asks
  have windows : List.Forall₂ (fun query page =>
      (window query.limit query.offset rows).mapM (toPlayedMatch db) = .ok page.items)
        queries pages := by
    refine read.imp ?_
    rintro query page ⟨sorted, items, sorted_perm, in_order, shown, rfl⟩
    rw [unique sorted sorted_perm in_order] at shown
    exact shown
  have shown := Ordered.map_eq_of_mapM_ok (fun _ _ => toPlayedMatch_eq_ok)
    (asks.mapM_eq_ok windows)
  rw [shown]
  have whole := firsts.map fun row => (row.tournament, row.matchId)
  rwa [List.map_map] at whole

end Pages

/-- In every run every page of the log is read.  The keys are distinct, and the pages partition the
log, exactly if no two tournaments of one day and one creation instant hold results of the player
at one position. -/
theorem pages_partition_iff {clock : Instant} {trace : List (Moment bunker)} {stop : Config bunker}
    (run : Run (Config.quiet (World.initial clock)) trace stop) (player : PlayerId) :
    (∀ query, ∃ page, (MatchStorage.history player query stop.state.db).1 = .ok page ∧
      MayAnswer stop.state.db player query page) ∧
    (KeysDistinct stop.state.db player ∧ PagesPartition stop.state.db player ↔
      ¬HasTwins stop.state.db player) := by
  have drawn : stop.state.db.Drawn stop.state.used :=
    ⟨(boards_along run).1, opening_nodup_along run⟩
  refine ⟨fun query => ?_, ?_⟩
  · obtain ⟨page, answered, -⟩ := exists_history drawn player query
    exact ⟨page, answered, mayAnswer_history answered⟩
  have keys : KeysDistinct stop.state.db player ↔ ¬HasTwins stop.state.db player :=
    keysDistinct_iff drawn (accounts_along run)
  constructor
  · rintro ⟨distinct, -⟩
    exact keys.mp distinct
  · intro no_twins
    have distinct := keys.mpr no_twins
    exact ⟨distinct, pagesPartition_of_distinct drawn distinct⟩

namespace Cup

/-- The player 1 wins the finals 31 and 32 of two tournaments that were created in one
microsecond. -/
def twice : List bunkerScript.Command :=
  drawn ++ alone 5 (.createTournament new) 11 ++ alone 6 (.changeStatus ⟨11⟩ ⟨.live, none⟩) 100 ++
    alone 7 (.addEntrant ⟨11⟩ ⟨1⟩ none) 23 ++ alone 7 (.addEntrant ⟨11⟩ ⟨2⟩ none) 24 ++
    alone 7 (.generateBracket ⟨11⟩) 32 ++ alone 4 (.reportResult id ⟨31⟩ ⟨21⟩) 0 ++
    alone 4 (.reportResult ⟨11⟩ ⟨32⟩ ⟨23⟩) 0

end Cup

set_option maxRecDepth 10000 in
theorem pages_partition_iff_twice :
    ∃ trace stop, Run Cup.start trace stop ∧ (rowsOf ⟨1⟩ stop.state.db).length = 2 ∧
      (∀ query, ∃ page, (MatchStorage.history ⟨1⟩ query stop.state.db).1 = .ok page ∧
        MayAnswer stop.state.db ⟨1⟩ query page) ∧
      (KeysDistinct stop.state.db ⟨1⟩ ∧ PagesPartition stop.state.db ⟨1⟩ ↔
        ¬HasTwins stop.state.db ⟨1⟩) := by
  obtain ⟨trace, stop, run, tested⟩ := bunkerScript.exists_run Cup.start Cup.twice
    (fun _ stop => decide ((rowsOf ⟨1⟩ stop.state.db).length = 2)) (by decide +kernel)
  exact ⟨trace, stop, run, of_decide_eq_true tested, pages_partition_iff run ⟨1⟩⟩

open PageQuery in
/-- Two pages of one row each, read with the rows in either order, are the same row. -/
theorem not_pagesPartition_of_pair {db : Database} {player : PlayerId}
    {first second : SideRow × TournamentRow} (rows : logRows player db = [first, second])
    (listed : (rowsOf player db).map SideRow.tournament =
      [first.1.tournament, second.1.tournament])
    (apart : first.1.tournament ≠ second.1.tournament)
    (forth : newestFirst first.1 second.1) (back : newestFirst second.1 first.1)
    {played : PlayedMatch} (shown : toPlayedMatch db first = .ok played) :
    ¬PagesPartition db player := by
  intro partition
  have count : (rowsOf player db).length = 2 := by
    have lengths := congrArg List.length listed
    rwa [List.length_map] at lengths
  have same_twice : [first].mapM (toPlayedMatch db) = .ok [played] := by
    rw [List.mapM_cons, shown]
    rfl
  have asks : AsksAll [one 1 (by decide) (by decide), one 2 (by decide) (by decide)] .one
      (pageCount (rowsOf player db).length .one) := by
    rw [count]
    exact .two_rows
  have first_page : MayAnswer db player (one 1 (by decide) (by decide))
      (.new [played] (rowsOf player db).length (one 1 (by decide) (by decide))) :=
    ⟨[first, second], [played], rows ▸ .refl _, by simpa using forth, same_twice, rfl⟩
  have second_page : MayAnswer db player (one 2 (by decide) (by decide))
      (.new [played] (rowsOf player db).length (one 2 (by decide) (by decide))) :=
    ⟨[second, first], [played], rows ▸ .swap _ _ _, by simpa using back, same_twice, rfl⟩
  have partitioned := partition _ _ _ asks (.cons first_page (.cons second_page .nil))
  have tournaments := partitioned.map Prod.fst
  rw [List.map_map, List.map_map] at tournaments
  have log : [played.tournamentId, played.tournamentId].Perm
      [first.1.tournament, second.1.tournament] := tournaments.trans (List.Perm.of_eq listed)
  have own : first.1.tournament = played.tournamentId := by
    simpa using log.symm.subset List.mem_cons_self
  have other : second.1.tournament = played.tournamentId := by
    simpa using log.symm.subset (List.mem_cons_of_mem _ List.mem_cons_self)
  exact apart (own.trans other.symm)

/-- The player 1 has two rows in the log, of two tournaments and with one key. -/
def Cup.isTwice (db : Database) : Bool :=
  (logRows ⟨1⟩ db).length = 2 ∧
    (rowsOf ⟨1⟩ db).map SideRow.tournament =
      (logRows ⟨1⟩ db).map (fun row => row.1.tournament) ∧
    ((logRows ⟨1⟩ db).Pairwise fun first second : SideRow × TournamentRow =>
      first.1.tournament ≠ second.1.tournament ∧ newestFirst first.1 second.1 ∧
        newestFirst second.1 first.1) ∧
    (∀ row ∈ logRows ⟨1⟩ db, (toPlayedMatch db row).isOk) ∧ ¬KeysDistinct db ⟨1⟩

set_option maxRecDepth 10000 in
/-- The player's two finals have one key, and two pages can show one of them twice. -/
theorem twins_split :
    ∃ trace stop, Run Cup.start trace stop ∧ ¬KeysDistinct stop.state.db ⟨1⟩ ∧
      ¬PagesPartition stop.state.db ⟨1⟩ := by
  obtain ⟨trace, stop, run, tested⟩ := bunkerScript.exists_run Cup.start Cup.twice
    (fun _ stop => Cup.isTwice stop.state.db) (by decide +kernel)
  obtain ⟨two, listed, pairs, shown, shared⟩ := of_decide_eq_true tested
  obtain ⟨first, second, rows⟩ := List.length_eq_two.mp two
  rw [rows] at listed pairs shown
  obtain ⟨apart, forth, back⟩ := List.rel_of_pairwise_cons pairs List.mem_cons_self
  have first_shown := shown first List.mem_cons_self
  refine ⟨trace, stop, run, shared, ?_⟩
  cases played : toPlayedMatch stop.state.db first with
  | error error =>
      rw [played] at first_shown
      cases first_shown
  | ok found => exact not_pagesPartition_of_pair rows listed apart forth back played

end LanBunker
