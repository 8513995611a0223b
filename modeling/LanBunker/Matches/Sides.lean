import LanBunker.Storage.Matches
import LanBunker.Tournaments.Runs
import LanBunker.Tournaments.Field
import LanBunker.Points.Payout

/-!
# The sides of a played match

Every match with both sides and a winner, in a live or concluded tournament, is two rows of
`player_matches`: one that won and one that lost.  No other match is a row of it.
-/

namespace LanBunker

open Relational Interleaving TournamentStorage

/-! ## What a stored match points at -/

/-- What the bracket says of a stored match. -/
structure MatchRow.Linked (m : MatchRow) (db : Database) : Prop where
  there : ∃ t ∈ db.tournaments, t.id = m.tournament
  sides : ∀ entrant, m.entrantA = some entrant ∨ m.entrantB = some entrant →
    ∃ e ∈ db.tournamentEntrants, e.id = entrant ∧ e.tournament = m.tournament
  winner : ∀ entrant, m.winner = some entrant →
    m.entrantA = some entrant ∨ m.entrantB = some entrant
  apart : ∀ entrant, m.entrantA = some entrant → m.entrantB ≠ some entrant

/-- The boards are in order, and no entrant opens a bracket twice. -/
structure Database.Drawn (used : List Nat) (db : Database) : Prop where
  good : db.Good used
  openings : ∀ id, (db.board id).opening.Nodup

namespace Bracket

/-- Nobody plays against themselves. -/
theorem Coherent.apart {seeded : List EntrantId} {bracket : Bracket}
    (coherent : Coherent seeded bracket) (distinct : seeded.Nodup) {m : Match}
    (member : m ∈ bracket.flat) {entrant : EntrantId} (side : m.entrantA = some entrant) :
    m.entrantB ≠ some entrant := by
  intro other
  obtain ⟨round, slot, found⟩ := mem_flat_iff.mp member
  obtain ⟨slots, slots_eq, m_found⟩ := get_eq_some_iff.mp found
  have round_nodup := coherent.competitors_nodup distinct slots_eq
  have own : (m.pairing.competitors).Nodup := by
    rw [Knockout.competitors] at round_nodup
    exact (List.nodup_flatMap.mp round_nodup).1 _
      (List.mem_map_of_mem (List.mem_of_getElem? m_found))
  simp [Knockout.Pairing.competitors, side, other] at own

end Bracket

section Linked

variable {used : List Nat} {db : Database} {m : MatchRow}

theorem Database.Drawn.linked (drawn : db.Drawn used) (member : m ∈ db.matchRows) :
    m.Linked db := by
  have on_board : m ∈ (db.board m.tournament).rows :=
    List.mem_filter.mpr ⟨member, decide_eq_true rfl⟩
  have ok := drawn.good.boards m.tournament
  have some_row : (db.board m.tournament).rows ≠ [] := List.ne_nil_of_mem on_board
  obtain ⟨order, bracket, holds⟩ := ok.bracket.resolve_left some_row
  have order_nodup : order.Nodup := holds.opening_eq ▸ drawn.openings m.tournament
  obtain ⟨bracket_drawn, seated, rows_eq⟩ := holds
  have coherent := bracket_drawn.coherent
  rw [rows_eq] at on_board
  obtain ⟨stored, stored_mem, stored_eq⟩ := List.mem_map.mp on_board
  obtain ⟨round, slot, found⟩ := Bracket.mem_flat_iff.mp stored_mem
  have same_a : stored.entrantA = m.entrantA := congrArg MatchRow.entrantA stored_eq
  have same_b : stored.entrantB = m.entrantB := congrArg MatchRow.entrantB stored_eq
  have same_winner : stored.winner = m.winner := congrArg MatchRow.winner stored_eq
  refine ⟨?_, fun entrant side => ?_, fun entrant won => ?_, fun entrant side => ?_⟩
  · cases row_found : (db.board m.tournament).row with
    | none =>
        have empty := ok.absent row_found
        rw [empty] at some_row
        exact absurd rfl some_row
    | some t =>
        obtain ⟨t_mem, t_id⟩ := tournament?_eq_some row_found
        exact ⟨t, t_mem, t_id⟩
  · rw [← same_a, ← same_b] at side
    obtain ⟨e, e_mem, e_id⟩ := seated entrant (coherent.side_mem found side)
    obtain ⟨e_there, e_here⟩ := List.mem_filter.mp e_mem
    exact ⟨e, e_there, e_id, of_decide_eq_true e_here⟩
  · rw [← same_a, ← same_b]
    exact coherent.sound round slot stored found entrant (same_winner.trans won)
  · rw [← same_b]
    exact coherent.apart order_nodup stored_mem (same_a.trans side)

end Linked

/-! ## The joins of one match -/

namespace Database

variable (db : Database)

/-- The entrant row a match points at. -/
def seat (entrant : Option EntrantId) : Option EntrantRow :=
  entrant.bind fun id => db.tournamentEntrants.find? fun row => row.id = id

/-- The player behind an entrant, as the entrant row has it. -/
def accountOf (entrant : Option EntrantId) : Option PlayerId :=
  (db.seat entrant).bind EntrantRow.player

/-- The results of a tournament are public. -/
def isPublic (id : TournamentId) : Bool :=
  (tournament? id db).any fun row => row.status.isPublic

/-- The one joined row of a match. -/
def joined? (m : MatchRow) : Option Joined := do
  let t ← tournament? m.tournament db
  let a ← db.seat m.entrantA
  let b ← db.seat m.entrantB
  if m.winner.isSome ∧ t.status.isPublic then some (((m, t), a), b) else none

/-- The rows of a match in the view. -/
def sidesOf (m : MatchRow) : List SideRow :=
  (db.joined? m).toList.flatMap fun row => [sideA row, sideB row]

end Database

section Joins

variable {used : List Nat} {db : Database} {m : MatchRow}

theorem seat_of_mem (good : db.Good used) {e : EntrantRow} (member : e ∈ db.tournamentEntrants) :
    db.seat (some e.id) = some e := by
  rw [Database.seat, Option.bind_some]
  exact find?_key_of_mem good.entrants member

theorem filter_tournaments (good : db.Good used) (linked : m.Linked db) :
    db.tournaments.filter (fun t => t.id = m.tournament) =
      (tournament? m.tournament db).toList := by
  obtain ⟨t, t_mem, t_id⟩ := linked.there
  rw [← t_id, tournament?_of_mem good.tournaments t_mem]
  exact filter_eq_singleton good.tournaments t_mem (decide_eq_true rfl)
    fun other _ same => of_decide_eq_true same

theorem filter_seats (good : db.Good used) {entrant : Option EntrantId}
    (linked : ∀ id, entrant = some id →
      ∃ e ∈ db.tournamentEntrants, e.id = id ∧ e.tournament = m.tournament) :
    db.tournamentEntrants.filter (fun e => e.tournament = m.tournament ∧ entrant = some e.id) =
      (db.seat entrant).toList := by
  cases entrant with
  | none =>
      rw [Database.seat, Option.bind_none, Option.toList_none, List.filter_eq_nil_iff]
      simp
  | some id =>
      obtain ⟨e, e_mem, rfl, here⟩ := linked id rfl
      rw [seat_of_mem good e_mem]
      refine filter_eq_singleton good.entrants e_mem (by simp [here]) fun other _ same => ?_
      exact (Option.some.inj (of_decide_eq_true same).2).symm

/-- The joins of the view, match by match. -/
theorem joinedMatches_eq (drawn : db.Drawn used) :
    db.joinedMatches = db.matchRows.filterMap db.joined? := by
  have good := drawn.good
  have tournaments : innerJoin db.matchRows db.tournaments (fun m t => t.id = m.tournament) =
      db.matchRows.filterMap fun m => (tournament? m.tournament db).map fun t => (m, t) :=
    innerJoin_eq_filterMap fun m member => filter_tournaments good (drawn.linked member)
  have as : ∀ rows : List (MatchRow × TournamentRow), (∀ row ∈ rows, row.1 ∈ db.matchRows) →
      innerJoin rows db.tournamentEntrants (fun row a =>
        a.tournament = row.1.tournament ∧ row.1.entrantA = some a.id) =
      rows.filterMap fun row => (db.seat row.1.entrantA).map fun a => (row, a) :=
    fun rows stored => innerJoin_eq_filterMap fun row member =>
      filter_seats good fun id side => (drawn.linked (stored row member)).sides id (Or.inl side)
  have bs : ∀ rows : List ((MatchRow × TournamentRow) × EntrantRow),
      (∀ row ∈ rows, row.1.1 ∈ db.matchRows) →
      innerJoin rows db.tournamentEntrants (fun row b =>
        b.tournament = row.1.1.tournament ∧ row.1.1.entrantB = some b.id) =
      rows.filterMap fun row => (db.seat row.1.1.entrantB).map fun b => (row, b) :=
    fun rows stored => innerJoin_eq_filterMap fun row member =>
      filter_seats good fun id side => (drawn.linked (stored row member)).sides id (Or.inr side)
  rw [Database.joinedMatches, tournaments, as, bs, List.filter_filterMap, List.filterMap_filterMap,
    List.filterMap_filterMap]
  · refine List.filterMap_congr fun m _ => ?_
    rw [Database.joined?]
    cases tournament? m.tournament db with
    | none => rfl
    | some t =>
        simp only [Option.map_some, Option.bind_eq_bind, Option.bind_some]
        cases db.seat m.entrantA with
        | none => rfl
        | some a =>
            simp only [Option.map_some, Option.bind_some]
            cases db.seat m.entrantB with
            | none => rfl
            | some b => simp [Option.filter_some]
  · intro row member
    obtain ⟨first, first_mem, same⟩ := List.mem_filterMap.mp member
    obtain ⟨m, m_mem, found⟩ := List.mem_filterMap.mp first_mem
    obtain ⟨a, -, rfl⟩ := Option.map_eq_some_iff.mp same
    obtain ⟨t, -, rfl⟩ := Option.map_eq_some_iff.mp found
    exact m_mem
  · intro row member
    obtain ⟨m, m_mem, found⟩ := List.mem_filterMap.mp member
    obtain ⟨t, -, rfl⟩ := Option.map_eq_some_iff.mp found
    exact m_mem

/-- The view, match by match. -/
theorem playerMatches_perm (drawn : db.Drawn used) :
    db.playerMatches.Perm (db.matchRows.flatMap db.sidesOf) := by
  have by_row : ∀ rows : List Joined,
      (rows.map Database.sideA ++ rows.map Database.sideB).Perm
        (rows.flatMap fun row => [Database.sideA row, Database.sideB row]) := by
    intro rows
    rw [List.map_eq_flatMap, List.map_eq_flatMap]
    exact List.flatMap_append_perm rows (fun row => [Database.sideA row])
      fun row => [Database.sideB row]
  rw [Database.playerMatches, joinedMatches_eq drawn]
  refine (by_row _).trans (List.Perm.of_eq ?_)
  induction db.matchRows with
  | nil => rfl
  | cons m rows ih =>
      rw [List.filterMap_cons, List.flatMap_cons, ← ih, Database.sidesOf]
      cases db.joined? m with
      | none => rfl
      | some row => rfl

/-- A row of a match in the view names the match. -/
theorem of_mem_sidesOf {side : SideRow} (member : side ∈ db.sidesOf m) :
    side.tournament = m.tournament ∧ side.matchId = m.id ∧ side.round = m.round := by
  obtain ⟨row, joined, side_mem⟩ := List.mem_flatMap.mp member
  obtain ⟨t, -, rest⟩ := Option.bind_eq_some_iff.mp (Option.mem_toList.mp joined)
  obtain ⟨a, -, rest⟩ := Option.bind_eq_some_iff.mp rest
  obtain ⟨b, -, rest⟩ := Option.bind_eq_some_iff.mp rest
  split_ifs at rest
  obtain rfl := Option.some.inj rest
  rcases List.mem_pair.mp side_mem with rfl | rfl
  · exact ⟨rfl, rfl, rfl⟩
  · exact ⟨rfl, rfl, rfl⟩

/-- What a played match of a public tournament is joined with. -/
structure Parties (db : Database) (m : MatchRow) (t : TournamentRow) (a b : EntrantRow) : Prop where
  tournament : t ∈ db.tournaments
  named : t.id = m.tournament
  entrantA : a ∈ db.tournamentEntrants
  entrantB : b ∈ db.tournamentEntrants
  hereA : a.tournament = m.tournament
  hereB : b.tournament = m.tournament
  sideA : m.entrantA = some a.id
  sideB : m.entrantB = some b.id
  apart : a.id ≠ b.id
  sides : db.sidesOf m = [Database.sideA (((m, t), a), b), Database.sideB (((m, t), a), b)]

theorem exists_parties (drawn : db.Drawn used) (member : m ∈ db.matchRows) (played : m.isPlayed)
    (is_public : db.isPublic m.tournament) : ∃ t a b, Parties db m t a b := by
  have linked := drawn.linked member
  obtain ⟨t, t_mem, t_id⟩ := linked.there
  have t_found : tournament? m.tournament db = some t :=
    t_id ▸ tournament?_of_mem drawn.good.tournaments t_mem
  simp only [MatchRow.isPlayed, Bool.and_eq_true, Option.isSome_iff_exists] at played
  obtain ⟨⟨⟨winner, winner_eq⟩, a, a_eq⟩, b, b_eq⟩ := played
  obtain ⟨rowA, rowA_mem, rfl, hereA⟩ := linked.sides a (Or.inl a_eq)
  obtain ⟨rowB, rowB_mem, rfl, hereB⟩ := linked.sides b (Or.inr b_eq)
  have seat_a := seat_of_mem drawn.good rowA_mem
  have seat_b := seat_of_mem drawn.good rowB_mem
  have apart : rowA.id ≠ rowB.id := fun same => linked.apart _ a_eq (same ▸ b_eq)
  rw [Database.isPublic, t_found, Option.any_some] at is_public
  have joined : db.joined? m = some (((m, t), rowA), rowB) := by
    simp [Database.joined?, t_found, a_eq, b_eq, seat_a, seat_b, winner_eq, is_public]
  have sides : db.sidesOf m =
      [Database.sideA (((m, t), rowA), rowB), Database.sideB (((m, t), rowA), rowB)] := by
    rw [Database.sidesOf, joined]
    rfl
  exact ⟨t, rowA, rowB, t_mem, t_id, rowA_mem, rowB_mem, hereA, hereB, a_eq, b_eq, apart, sides⟩

/-- The two rows of a match in the view. -/
structure Sides (db : Database) (m : MatchRow) (won lost : SideRow) : Prop where
  sides : (db.sidesOf m).Perm [won, lost]
  winner : won.won = some true
  loser : lost.won = some false
  won_player : won.player = db.accountOf m.winner
  /-- The players are those of the two entrants. -/
  players : ∀ side ∈ [won, lost], ∃ e ∈ db.tournamentEntrants, e.player = side.player

/-- A played match of a public tournament has its two rows. -/
theorem exists_sides (drawn : db.Drawn used) (member : m ∈ db.matchRows) (played : m.isPlayed)
    (is_public : db.isPublic m.tournament) : ∃ won lost, Sides db m won lost := by
  obtain ⟨t, rowA, rowB, parties⟩ := exists_parties drawn member played is_public
  have sides := parties.sides
  have players : ∀ side ∈ [Database.sideA (((m, t), rowA), rowB),
      Database.sideB (((m, t), rowA), rowB)], ∃ e ∈ db.tournamentEntrants,
        e.player = side.player := by
    intro side side_mem
    rcases List.mem_pair.mp side_mem with rfl | rfl
    · exact ⟨rowA, parties.entrantA, rfl⟩
    · exact ⟨rowB, parties.entrantB, rfl⟩
  simp only [MatchRow.isPlayed, Bool.and_eq_true, Option.isSome_iff_exists] at played
  obtain ⟨⟨winner, winner_eq⟩, -⟩ := played.1
  have won_a : (Database.sideA (((m, t), rowA), rowB)).won = some (decide (winner = rowA.id)) := by
    simp [Database.sideA, Database.sideRow, sqlEquals, winner_eq, parties.sideA]
  have won_b : (Database.sideB (((m, t), rowA), rowB)).won = some (decide (winner = rowB.id)) := by
    simp [Database.sideB, Database.sideRow, sqlEquals, winner_eq, parties.sideB]
  rcases (drawn.linked member).winner winner winner_eq with own | own
  · obtain rfl := Option.some.inj (parties.sideA.symm.trans own)
    refine ⟨_, _, ⟨sides ▸ .refl _, ?_, ?_, ?_, players⟩⟩
    · simpa using won_a
    · simpa [parties.apart] using won_b
    · rw [Database.accountOf, winner_eq, seat_of_mem drawn.good parties.entrantA]
      rfl
  · obtain rfl := Option.some.inj (parties.sideB.symm.trans own)
    refine ⟨_, _, ⟨sides ▸ List.Perm.swap _ _ _, ?_, ?_, ?_, ?_⟩⟩
    · simpa using won_b
    · simpa [Ne.symm parties.apart] using won_a
    · rw [Database.accountOf, winner_eq, seat_of_mem drawn.good parties.entrantB]
      rfl
    · exact fun side side_mem => players side ((List.Perm.swap _ _ _).subset side_mem)

/-- Any other match has none. -/
theorem sidesOf_eq_nil (hidden : ¬(m.isPlayed ∧ db.isPublic m.tournament)) : db.sidesOf m = [] := by
  rw [Database.sidesOf]
  cases joined : db.joined? m with
  | none => rfl
  | some row =>
      refine absurd ?_ hidden
      obtain ⟨t, t_found, rest⟩ := Option.bind_eq_some_iff.mp joined
      obtain ⟨a, a_found, rest⟩ := Option.bind_eq_some_iff.mp rest
      obtain ⟨b, b_found, rest⟩ := Option.bind_eq_some_iff.mp rest
      have shown : m.winner.isSome ∧ t.status.isPublic := by
        by_contra not_shown
        rw [if_neg not_shown] at rest
        cases rest
      obtain ⟨x, x_eq, -⟩ := Option.bind_eq_some_iff.mp a_found
      obtain ⟨y, y_eq, -⟩ := Option.bind_eq_some_iff.mp b_found
      simp [MatchRow.isPlayed, Database.isPublic, t_found, x_eq, y_eq, shown]

end Joins

end LanBunker
