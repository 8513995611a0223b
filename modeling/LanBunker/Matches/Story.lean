import LanBunker.Matches.Sides
import LanBunker.Matches.Wins

/-!
# The ledger and the match log

The wins on the ledger were computed when the tournament was concluded, and the match log is read
from the bracket every time.  Both follow the same matches.
-/

namespace LanBunker

open Relational Interleaving TournamentStorage MatchStorage

/-! ## The view, match by match -/

section View

variable {used : List Nat} {db : Database}

/-- Every row of the view is one of the two of a played match. -/
theorem side_cases (drawn : db.Drawn used) {side : SideRow} (member : side ∈ db.playerMatches) :
    ∃ m ∈ db.matchRows, ∃ won lost, Sides db m won lost ∧ side.round = m.round ∧
      side.tournament = m.tournament ∧ (side = won ∨ side = lost) := by
  obtain ⟨m, m_mem, side_mem⟩ := List.mem_flatMap.mp ((playerMatches_perm drawn).subset member)
  have shown : m.isPlayed ∧ db.isPublic m.tournament := by
    by_contra hidden
    rw [sidesOf_eq_nil hidden] at side_mem
    cases side_mem
  obtain ⟨won, lost, sides⟩ := exists_sides drawn m_mem shown.1 shown.2
  obtain ⟨tournament, -, round⟩ := of_mem_sidesOf side_mem
  exact ⟨m, m_mem, won, lost, sides, round, tournament,
    List.mem_pair.mp (sides.sides.subset side_mem)⟩

/-- Every row was won or lost. -/
theorem decided (drawn : db.Drawn used) {side : SideRow} (member : side ∈ db.playerMatches) :
    ∃ won, side.won = some won := by
  obtain ⟨m, -, won, lost, sides, -, -, rfl | rfl⟩ := side_cases drawn member
  · exact ⟨true, sides.winner⟩
  · exact ⟨false, sides.loser⟩

/-- The rows of a tournament are those of its matches. -/
theorem filter_playerMatches (drawn : db.Drawn used) (id : TournamentId) (kept : SideRow → Bool) :
    (db.playerMatches.filter fun side => side.tournament = id ∧ kept side).Perm
      ((db.board id).rows.flatMap fun m => (db.sidesOf m).filter kept) := by
  have elsewhere : ∀ m ∈ db.matchRows, ¬decide (m.tournament = id) →
      (db.sidesOf m).filter (fun side => side.tournament = id ∧ kept side) = [] := by
    intro m _ apart
    rw [List.filter_eq_nil_iff]
    intro side side_mem named
    have here := (of_decide_eq_true named).1
    exact apart (decide_eq_true ((of_mem_sidesOf side_mem).1.symm.trans here))
  refine ((playerMatches_perm drawn).filter _).trans (List.Perm.of_eq ?_)
  rw [List.filter_flatMap, flatMap_filter_of_nil elsewhere]
  refine List.flatMap_congr fun m member => List.filter_congr fun side side_mem => ?_
  have here := of_decide_eq_true (List.mem_filter.mp member).2
  simp [(of_mem_sidesOf side_mem).1, here]

/-! ## The wins -/

/-- A board and its database find the same account for a winner. -/
theorem accountOf_board (drawn : db.Drawn used) {m : MatchRow} (member : m ∈ db.matchRows) :
    (db.board m.tournament).accountOf m.winner = db.accountOf m.winner := by
  cases won : m.winner with
  | none => rfl
  | some winner =>
      have linked := drawn.linked member
      obtain ⟨e, e_mem, rfl, here⟩ := linked.sides winner (linked.winner winner won)
      have listed : e ∈ entrantRows m.tournament db :=
        List.mem_filter.mpr ⟨e_mem, decide_eq_true here⟩
      have found : (entrantRows m.tournament db).find? (fun row => row.id = e.id) = some e :=
        find?_key_of_mem (drawn.good.entrants_nodup m.tournament) listed
      rw [Database.accountOf, seat_of_mem drawn.good e_mem, Board.accountOf, Option.bind_some]
      exact congrArg (Option.bind · EntrantRow.player) found

/-- The wins of a player in a tournament, as the ledger has them. -/
def Database.winsPaid (db : Database) (id : TournamentId) (player : PlayerId) : List PointRow :=
  db.pointEntries.filter fun row =>
    row.tournament = some id ∧ row.kind = .matchWin ∧ row.player = player

/-- The wins of a player in a tournament, as the match log has them. -/
def Database.winsLogged (db : Database) (id : TournamentId) (player : PlayerId) : List SideRow :=
  db.playerMatches.filter fun row =>
    row.tournament = id ∧ row.player = some player ∧ row.won = some true

/-- The row is a win of the player. -/
def SideRow.isWinOf (player : PlayerId) (side : SideRow) : Bool :=
  side.player = some player ∧ side.won = some true

/-- A match that the player won is one win of the player. -/
theorem won_sides (drawn : db.Drawn used) {m : MatchRow} (member : m ∈ db.matchRows)
    (played : m.isPlayed) (is_public : db.isPublic m.tournament) {player : PlayerId}
    (account : db.accountOf m.winner = some player) :
    (((db.sidesOf m).filter (SideRow.isWinOf player)).map SideRow.matchId).Perm [m.id] := by
  obtain ⟨won, lost, sides⟩ := exists_sides drawn member played is_public
  have won_counts : won.isWinOf player := by
    simp [SideRow.isWinOf, sides.won_player, account, sides.winner]
  have lost_not : ¬lost.isWinOf player := by simp [SideRow.isWinOf, sides.loser]
  have named := (of_mem_sidesOf (sides.sides.symm.subset List.mem_cons_self)).2.1
  have only := (sides.sides.filter (SideRow.isWinOf player)).map SideRow.matchId
  rwa [List.filter_cons_of_pos won_counts, List.filter_cons_of_neg lost_not, List.filter_nil,
    List.map_singleton, named] at only

/-- Any other match is none. -/
theorem won_sides_eq_nil (drawn : db.Drawn used) {m : MatchRow} (member : m ∈ db.matchRows)
    (is_public : db.isPublic m.tournament) {player : PlayerId}
    (other : ¬(m.isPlayed ∧ db.accountOf m.winner = some player)) :
    (db.sidesOf m).filter (SideRow.isWinOf player) = [] := by
  rw [List.filter_eq_nil_iff]
  intro side side_mem counted
  obtain ⟨account, won_side⟩ := of_decide_eq_true counted
  by_cases played : m.isPlayed
  · obtain ⟨won, lost, sides⟩ := exists_sides drawn member played is_public
    rcases List.mem_pair.mp (sides.sides.subset side_mem) with rfl | rfl
    · exact other ⟨played, sides.won_player.symm.trans account⟩
    · rw [sides.loser] at won_side
      cases won_side
  · rw [sidesOf_eq_nil fun both => played both.1] at side_mem
    cases side_mem

/-- The match log has the played matches that the player won. -/
theorem winsLogged_perm (drawn : db.Drawn used) {id : TournamentId} (is_public : db.isPublic id)
    (player : PlayerId) :
    ((db.winsLogged id player).map SideRow.matchId).Perm
      (((db.board id).winsPlayed player).map MatchRow.id) := by
  have here : ∀ m ∈ (db.board id).rows, m ∈ db.matchRows ∧ m.tournament = id ∧
      (db.board id).accountOf m.winner = db.accountOf m.winner := by
    intro m member
    obtain ⟨stored, same⟩ := List.mem_filter.mp member
    obtain rfl := of_decide_eq_true same
    exact ⟨stored, rfl, accountOf_board drawn stored⟩
  have nothing : ∀ m ∈ (db.board id).rows,
      ¬decide (m.isPlayed ∧ (db.board id).accountOf m.winner = some player) →
        (db.sidesOf m).filter (SideRow.isWinOf player) = [] := by
    intro m listed other
    obtain ⟨stored, rfl, same⟩ := here m listed
    exact won_sides_eq_nil drawn stored is_public fun won =>
      other (decide_eq_true ⟨won.1, same.trans won.2⟩)
  have one_each : ∀ m ∈ (db.board id).winsPlayed player,
      (((db.sidesOf m).filter (SideRow.isWinOf player)).map SideRow.matchId).Perm [m.id] := by
    intro m member
    obtain ⟨listed, counted⟩ := List.mem_filter.mp member
    obtain ⟨played, account⟩ := of_decide_eq_true counted
    obtain ⟨stored, rfl, same⟩ := here m listed
    exact won_sides drawn stored played is_public (same.symm.trans account)
  have by_match := (filter_playerMatches drawn id (SideRow.isWinOf player)).map SideRow.matchId
  rw [flatMap_filter_of_nil nothing, List.map_flatMap] at by_match
  have logged : db.winsLogged id player =
      db.playerMatches.filter fun side => side.tournament = id ∧ side.isWinOf player := by
    refine List.filter_congr fun side _ => ?_
    simp [SideRow.isWinOf]
  rw [logged, List.map_eq_flatMap (l := (db.board id).winsPlayed player)]
  exact by_match.trans (List.Perm.flatMap_left _ one_each)

/-! ## One winner and one loser -/

/-- The rows of a match in the log that were won, or that were lost. -/
def Database.sidesThat (db : Database) (m : MatchRow) (won : Bool) : List SideRow :=
  db.playerMatches.filter fun row =>
    row.tournament = m.tournament ∧ row.matchId = m.id ∧ row.won = some won

theorem board_rows_nodup (good : db.Good used) (id : TournamentId) :
    ((db.board id).rows.map MatchRow.id).Nodup := by
  rcases (good.boards id).bracket with no_rows | ⟨order, bracket, bracket_drawn, -, rows_eq⟩
  · rw [no_rows]
    exact List.nodup_nil
  · rw [rows_eq, List.map_map]
    exact bracket_drawn.distinctIds

theorem sidesThat_length (drawn : db.Drawn used) {m : MatchRow} (member : m ∈ db.matchRows)
    (played : m.isPlayed) (is_public : db.isPublic m.tournament) (won : Bool) :
    (db.sidesThat m won).length = 1 := by
  let named : SideRow → Bool := fun side => side.matchId = m.id ∧ side.won = some won
  have listed : m ∈ (db.board m.tournament).rows :=
    List.mem_filter.mpr ⟨member, decide_eq_true rfl⟩
  have alone : (db.board m.tournament).rows.filter (fun row => row.id = m.id) = [m] :=
    filter_eq_singleton (board_rows_nodup drawn.good _) listed (decide_eq_true rfl)
      fun row _ same => of_decide_eq_true same
  have nothing : ∀ row ∈ (db.board m.tournament).rows, ¬decide (row.id = m.id) →
      (db.sidesOf row).filter named = [] := by
    intro row _ other
    rw [List.filter_eq_nil_iff]
    intro side side_mem counted
    have same := (of_decide_eq_true counted).1
    exact other (decide_eq_true ((of_mem_sidesOf side_mem).2.1.symm.trans same))
  have by_match := filter_playerMatches drawn m.tournament named
  rw [flatMap_filter_of_nil nothing, alone, List.flatMap_singleton] at by_match
  have log : db.sidesThat m won =
      db.playerMatches.filter fun side => side.tournament = m.tournament ∧ named side := by
    refine List.filter_congr fun side _ => ?_
    simp [named]
  obtain ⟨winner, loser, sides⟩ := exists_sides drawn member played is_public
  have winner_named := (of_mem_sidesOf (sides.sides.symm.subset List.mem_cons_self)).2.1
  have loser_named := (of_mem_sidesOf (sides.sides.symm.subset
    (List.mem_cons_of_mem _ List.mem_cons_self))).2.1
  rw [log, (by_match.trans (sides.sides.filter named)).length_eq]
  cases won with
  | true => simp [named, winner_named, loser_named, sides.winner, sides.loser]
  | false => simp [named, winner_named, loser_named, sides.winner, sides.loser]

/-! ## The record and the log of a player -/

theorem record_eq_ok {player : PlayerId} {record : MatchRecord}
    (answered : (MatchStorage.record player db).1 = .ok record) :
    record.wins = ((rowsOf player db).countP fun row => row.won = some true) ∧
      record.losses = (rowsOf player db).countP fun row => row.won = some false := by
  simp only [MatchStorage.record] at answered
  cases wins : count ((rowsOf player db).countP fun row => row.won = some true) with
  | error error =>
      rw [wins] at answered
      cases answered
  | ok won =>
      cases losses : count ((rowsOf player db).countP fun row => row.won = some false) with
      | error error =>
          rw [wins, losses] at answered
          cases answered
      | ok lost =>
          rw [wins, losses] at answered
          obtain rfl := Except.ok.inj answered
          exact ⟨count_eq_ok wins, count_eq_ok losses⟩

/-- Every row of a player was won or lost, and not both. -/
theorem wins_add_losses (drawn : db.Drawn used) (player : PlayerId) :
    ((rowsOf player db).countP fun row => row.won = some true) +
      ((rowsOf player db).countP fun row => row.won = some false) =
        (rowsOf player db).length := by
  rw [List.length_eq_countP_add_countP fun row : SideRow => decide (row.won = some true)]
  congr 1
  refine List.countP_congr fun side side_mem => ?_
  obtain ⟨won, ended⟩ := decided drawn (List.mem_filter.mp side_mem).1
  cases won with
  | true => simp [ended]
  | false => simp [ended]

theorem exists_record {player : PlayerId} (short : (rowsOf player db).length < 2 ^ 32) :
    ∃ record, (MatchStorage.record player db).1 = .ok record := by
  have counted : ∀ ended : SideRow → Bool, count ((rowsOf player db).countP ended) =
      .ok ((rowsOf player db).countP ended) := fun ended =>
    count_of_lt (lt_of_le_of_lt List.countP_le_length short)
  simp only [MatchStorage.record]
  rw [counted, counted]
  exact ⟨_, rfl⟩

theorem round_fits (drawn : db.Drawn used) {m : MatchRow} (member : m ∈ db.matchRows) :
    m.round < 2 ^ 32 := by
  have listed : m ∈ (db.board m.tournament).rows :=
    List.mem_filter.mpr ⟨member, decide_eq_true rfl⟩
  obtain ⟨order, bracket, bracket_drawn, -, rows_eq⟩ :=
    (drawn.good.boards m.tournament).bracket.resolve_left (List.ne_nil_of_mem listed)
  rw [rows_eq] at listed
  obtain ⟨stored, stored_mem, stored_eq⟩ := List.mem_map.mp listed
  have same : stored.round = m.round := congrArg MatchRow.round stored_eq
  have le := bracket_drawn.coherent.round_le stored_mem
  have short := bracket_drawn.flat_length
  rw [maxEntrants] at short
  omega

theorem roundsOf_fits (drawn : db.Drawn used) (id : TournamentId) : roundsOf id db < 2 ^ 32 := by
  have largest : ∀ rounds : List Nat, (∀ round ∈ rounds, round < 2 ^ 32) →
      rounds.foldr max 0 < 2 ^ 32 := by
    intro rounds fit
    induction rounds with
    | nil => simp
    | cons round rounds ih =>
        exact max_lt (fit round List.mem_cons_self)
          (ih fun other member => fit other (List.mem_cons_of_mem round member))
  refine largest _ fun round member => ?_
  obtain ⟨m, m_mem, rfl⟩ := List.mem_map.mp member
  exact round_fits drawn (List.mem_filter.mp m_mem).1

/-- The log of a player is always read, and its total counts every row of the player. -/
theorem exists_history (drawn : db.Drawn used) (player : PlayerId) (query : PageQuery) :
    ∃ page, (MatchStorage.history player query db).1 = .ok page ∧
      page.total = (rowsOf player db).length := by
  have reads : ∀ row ∈ innerJoin (rowsOf player db) db.tournaments
      (fun row t => t.id = row.tournament), ∃ played, toPlayedMatch db row = .ok played := by
    rintro ⟨side, t⟩ member
    have side_mem := (List.mem_filter.mp (mem_innerJoin.mp member).1).1
    obtain ⟨m, m_mem, -, -, -, round_eq, -⟩ := side_cases drawn side_mem
    obtain ⟨won, ended⟩ := decided drawn side_mem
    have round : count side.round = .ok side.round :=
      count_of_lt (round_eq ▸ round_fits drawn m_mem)
    have rounds : count (roundsOf side.tournament db) = .ok (roundsOf side.tournament db) :=
      count_of_lt (roundsOf_fits drawn side.tournament)
    simp only [toPlayedMatch, round, rounds, ended]
    exact ⟨_, rfl⟩
  have answers : ∃ items, ((((innerJoin (rowsOf player db) db.tournaments
      fun row t => t.id = row.tournament).insertionSort fun left right =>
        newestFirst left.1 right.1).drop query.offset).take query.limit).mapM
          (toPlayedMatch db) = .ok items :=
    Ordered.exists_mapM_eq_ok fun row member => reads row ((List.perm_insertionSort _ _).subset
      (List.mem_of_mem_drop (List.mem_of_mem_take member)))
  obtain ⟨items, items_eq⟩ := answers
  simp only [MatchStorage.history]
  rw [items_eq]
  exact ⟨_, rfl, rfl⟩

/-! ## All players together -/

/-- The records of all players. -/
def Database.records (db : Database) : Except StorageError (List MatchRecord) :=
  db.players.mapM fun row => (MatchStorage.record row.id db).1

/-- Half of the rows were won. -/
theorem wins_eq_losses (drawn : db.Drawn used) :
    (db.playerMatches.countP fun row => row.won = some true) =
      db.playerMatches.countP fun row => row.won = some false := by
  rw [(playerMatches_perm drawn).countP_eq, (playerMatches_perm drawn).countP_eq,
    List.countP_flatMap, List.countP_flatMap]
  congr 1
  refine List.map_congr_left fun m member => ?_
  simp only [Function.comp_apply]
  by_cases shown : m.isPlayed ∧ db.isPublic m.tournament
  · obtain ⟨won, lost, sides⟩ := exists_sides drawn member shown.1 shown.2
    rw [sides.sides.countP_eq, sides.sides.countP_eq]
    simp [sides.winner, sides.loser]
  · rw [sidesOf_eq_nil shown]
    rfl

/-- Where every entry has its player, the rows of the players are all rows. -/
theorem sum_rowsOf (drawn : db.Drawn used) (referenced : db.Referenced) (complete : db.Complete)
    (ids : (db.players.map PlayerRow.id).Nodup) (ended : SideRow → Bool) :
    (db.players.map fun row => (rowsOf row.id db).countP ended).sum =
      db.playerMatches.countP ended := by
  have named : ∀ side ∈ db.playerMatches,
      side.player ∈ (db.players.map PlayerRow.id).map some := by
    intro side member
    obtain ⟨m, -, won, lost, sides, -, -, is_side⟩ := side_cases drawn member
    obtain ⟨e, e_mem, e_player⟩ := sides.players side (List.mem_pair.mpr is_side)
    obtain ⟨player, account⟩ := Option.isSome_iff_exists.mp (complete e e_mem)
    obtain ⟨row, row_mem, same⟩ := List.any_eq_true.mp (referenced e e_mem player account)
    rw [← e_player, account, ← of_decide_eq_true same]
    exact List.mem_map_of_mem (List.mem_map_of_mem row_mem)
  rw [← sum_countP_by_key (ids.map (Option.some_injective _)) SideRow.player ended named,
    List.map_map, List.map_map]
  congr 1
  refine List.map_congr_left fun row _ => ?_
  rw [rowsOf, List.countP_filter]
  refine List.countP_congr fun side _ => ?_
  simp [and_comm]

/-- Wins and losses add up to the same. -/
theorem records_balance (drawn : db.Drawn used) (referenced : db.Referenced)
    (complete : db.Complete) (ids : (db.players.map PlayerRow.id).Nodup)
    {records : List MatchRecord} (answered : db.records = .ok records) :
    (records.map MatchRecord.wins).sum = (records.map MatchRecord.losses).sum := by
  have wins := Ordered.map_eq_of_mapM_ok (fun _ _ read => (record_eq_ok read).1) answered
  have losses := Ordered.map_eq_of_mapM_ok (fun _ _ read => (record_eq_ok read).2) answered
  rw [wins, losses, sum_rowsOf drawn referenced complete ids,
    sum_rowsOf drawn referenced complete ids, wins_eq_losses drawn]

end View

/-! ## One story -/

/-- The ledger and the match log tell the same story. -/
structure Database.SameStory (db : Database) : Prop where
  /-- In a concluded tournament the wins a player was paid for are the wins in the log, each match
  once. -/
  wins : ∀ t ∈ db.tournaments, t.status = .concluded → ∀ player,
    ((db.winsPaid t.id player).map PointRow.sourceRef).Nodup ∧
      ((db.winsPaid t.id player).map PointRow.sourceRef).Perm
        ((db.winsLogged t.id player).map fun row => row.matchId.toText)
  /-- The record of a player adds up to the total of the log.  It is read as long as that fits. -/
  totals : ∀ player query, ∃ page, (MatchStorage.history player query db).1 = .ok page ∧
    (∀ record, (MatchStorage.record player db).1 = .ok record →
      record.wins + record.losses = page.total) ∧
    (page.total < 2 ^ 32 → ∃ record, (MatchStorage.record player db).1 = .ok record)
  /-- A played match has one row that won and one that lost. -/
  sides : ∀ m ∈ db.matchRows, m.isPlayed → ∀ t ∈ db.tournaments, t.id = m.tournament →
    (t.status = .live ∨ t.status = .concluded) → ∀ won, (db.sidesThat m won).length = 1

section Story

variable {used : List Nat} {db : Database}

theorem isPublic_of_mem (good : db.Good used) {t : TournamentRow} (member : t ∈ db.tournaments)
    (shown : t.status = .live ∨ t.status = .concluded) : db.isPublic t.id := by
  rw [Database.isPublic, tournament?_of_mem good.tournaments member, Option.any_some]
  rcases shown with live | concluded
  · rw [live]
    rfl
  · rw [concluded]
    rfl

theorem sameStory_of_settled (drawn : db.Drawn used) (settled : ∀ id, (db.board id).Settled) :
    db.SameStory where
  wins t member concluded player := by
    have is_public := isPublic_of_mem drawn.good member (Or.inr concluded)
    have row_found : (db.board t.id).row = some t :=
      tournament?_of_mem drawn.good.tournaments member
    have board_concluded : (db.board t.id).status = some .concluded := by
      rw [Board.status, row_found, Option.map_some, concluded]
    have paid : (db.winsPaid t.id player).map PointRow.sourceRef =
        (db.board t.id).winsPaid player := by
      rw [Board.winsPaid, Database.board, List.filter_filter]
      congr 1
      refine List.filter_congr fun row _ => ?_
      rw [← Bool.decide_and, decide_eq_decide]
      tauto
    have logged := (winsLogged_perm drawn is_public player).map Id.toText
    rw [List.map_map, List.map_map] at logged
    have played := settled t.id board_concluded player
    refine ⟨?_, paid ▸ played.trans logged.symm⟩
    have texts : ((db.board t.id).rows.map fun row => row.id.toText).Nodup := by
      have distinct := (board_rows_nodup drawn.good t.id).map fun _ _ => Id.toText_inj.mp
      rwa [List.map_map] at distinct
    rw [paid, played.nodup_iff]
    exact texts.sublist (List.filter_sublist.map _)
  totals player query := by
    obtain ⟨page, read, total⟩ := exists_history drawn player query
    refine ⟨page, read, fun record answered => ?_, fun short => exists_record (total ▸ short)⟩
    obtain ⟨wins, losses⟩ := record_eq_ok answered
    rw [wins, losses, total]
    exact wins_add_losses drawn player
  sides m member played t t_mem same shown won :=
    sidesThat_length drawn member played (same ▸ isPublic_of_mem drawn.good t_mem shown) won

end Story

/-- After every run of requests one at a time the ledger and the match log tell the same story,
and where no account was deleted the wins of all players are as many as their losses. -/
theorem same_story {clock : Instant} {trace : List (Moment bunker)} {stop : Config bunker}
    (serial : SerialRun (Config.quiet (World.initial clock)) trace stop) :
    stop.state.db.SameStory ∧
      ((∀ moment ∈ trace, ¬removesAccount moment) →
        ∀ records, stop.state.db.records = .ok records →
          (records.map MatchRecord.wins).sum = (records.map MatchRecord.losses).sum) := by
  have run := serial.run
  have drawn : stop.state.db.Drawn stop.state.used :=
    ⟨(boards_along run).1, opening_nodup_along run⟩
  refine ⟨sameStory_of_settled drawn (settled_along serial), fun kept records answered => ?_⟩
  exact records_balance drawn (referenced_along run).1 (complete_along run kept)
    (registered_along run).1.ids answered

set_option maxRecDepth 10000 in
/-- After the cup its winner has one win in both, and two records balance. -/
theorem same_story_cup :
    ∃ trace stop, SerialRun Cup.start trace stop ∧ stop.state.db.SameStory ∧
      (stop.state.db.winsPaid Cup.id ⟨1⟩).length = 1 ∧
      (stop.state.db.winsLogged Cup.id ⟨1⟩).length = 1 ∧
      ∃ records, stop.state.db.records = .ok records ∧ records.length = 2 ∧
        (records.map MatchRecord.wins).sum = (records.map MatchRecord.losses).sum := by
  obtain ⟨trace, stop, serial, tested⟩ := bunkerScript.exists_serial Cup.start
    (Cup.drawn ++ alone 4 (.reportResult Cup.id ⟨31⟩ ⟨21⟩) 0 ++
      alone 8 (.changeStatus Cup.id ⟨.concluded, none⟩) 200)
    (fun trace stop => (trace.all fun moment => !removesAccount moment) ∧
      (stop.state.db.winsPaid Cup.id ⟨1⟩).length = 1 ∧
      (stop.state.db.winsLogged Cup.id ⟨1⟩).length = 1 ∧
      stop.state.db.records.toOption.any fun records => records.length = 2)
    (by decide +kernel) (by decide +kernel)
  obtain ⟨kept, paid, logged, read⟩ := of_decide_eq_true tested
  obtain ⟨story, balance⟩ := same_story serial
  cases answered : stop.state.db.records with
  | error error =>
      rw [answered] at read
      cases read
  | ok records =>
      rw [answered] at read
      refine ⟨trace, stop, serial, story, paid, logged, records, answered,
        of_decide_eq_true read, ?_⟩
      refine balance (fun moment member removed => ?_) records answered
      have stays := List.all_eq_true.mp kept moment member
      simp [removed] at stays

end LanBunker
