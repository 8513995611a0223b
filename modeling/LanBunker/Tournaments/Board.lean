import LanBunker.Brackets.Rows
import LanBunker.Services.Provenance

/-!
# The board of one tournament

All a database holds of one tournament, and every way one step can change it.  The guards of the
writes are the hypotheses of the moves: but for a deletion and for the player that an account
leaves behind, nothing moves the board of a concluded tournament.
-/

namespace LanBunker

open Interleaving

/-- The row of a tournament, its entrants, its matches and the ledger rows tied to it. -/
@[ext]
structure Board where
  row : Option TournamentRow
  entrants : List EntrantRow
  rows : List MatchRow
  ledger : List PointRow

/-- What the database holds of a tournament. -/
def Database.board (db : Database) (id : TournamentId) : Board :=
  { row := TournamentStorage.tournament? id db
    entrants := TournamentStorage.entrantRows id db
    rows := TournamentStorage.matchRowsOf id db
    ledger := db.pointEntries.filter fun row => row.tournament = some id }

namespace Board

/-- Nothing is stored. -/
def empty : Board := ⟨none, [], [], []⟩

def status (board : Board) : Option TournamentStatus := board.row.map TournamentRow.status

/-- The entrants of the board have an entrant with this id. -/
def Seats (board : Board) (entrant : EntrantId) : Prop := ∃ row ∈ board.entrants, row.id = entrant

/-- The match rows hold a bracket, drawn over an order of entrants that are on the board. -/
def Holds (board : Board) (id : TournamentId) (order : List EntrantId) (bracket : Bracket) :
    Prop :=
  Bracket.Drawn order bracket ∧ (∀ entrant ∈ order, board.Seats entrant) ∧
    board.rows = bracket.flat.map (MatchRow.ofMatch id)

/-- The board after the account of a player went. -/
def anonymised (board : Board) (player : PlayerId) : Board :=
  { board with
    entrants := board.entrants.map fun row =>
      if row.player = some player then { row with player := none } else row
    ledger := (board.ledger.filter fun row => row.player ≠ player).map fun row =>
      if row.createdBy = some player then { row with createdBy := none } else row }

/-! ## The moves of a board -/

/-- A storage method of a tournament that answered. -/
def Answered (label : Label bunker) (op : TournamentOp) (answer : op.Ans) : Prop :=
  ∃ name request past, label = .call name request past (.store (.tournaments op)) (.ok answer)

/-- One step of the board of the tournament `id`.  `fresh` are the identifiers that the step
generated. -/
inductive Move (label : Label bunker) (fresh : List Nat) (id : TournamentId) :
    Board → Board → Prop where
  | stay (board : Board) : Move label fresh id board board
  | anonymised (board : Board) (player : PlayerId) :
      Move label fresh id board (board.anonymised player)
  | created {board : Board} {row : TournamentRow} (absent : board.row = none)
      (new : id.uuid ∈ fresh) (draft : row.status = .draft) (unwon : row.winner = none) :
      Move label fresh id board { board with row := some row }
  | edited {board : Board} {row edit : TournamentRow} (found : board.row = some row)
      (open_row : row.status ≠ .concluded) (same_status : edit.status = row.status)
      (same_winner : edit.winner = row.winner) :
      Move label fresh id board { board with row := some edit }
  | moved {board : Board} {row : TournamentRow} {target : TournamentStatus} {instant : Instant}
      {draw : Nat → PointEntryId} (found : board.row = some row)
      (move : Moves row.status target)
      (answered : Answered label (.setStatus id row.status target none [] instant draw) true) :
      Move label fresh id board
        { board with row := some { row with status := target, winner := none } }
  | concluded {board : Board} {row : TournamentRow} {winner : Option EntrantId}
      {paid : List PointRow} {awards : List Award} {instant : Instant}
      {draw : Nat → PointEntryId} (found : board.row = some row)
      (open_row : row.status ≠ .concluded)
      (seated : ∀ entrant, winner = some entrant → board.Seats entrant)
      (tied : ∀ entry ∈ paid, entry.event = none)
      (answered : Answered label (.setStatus id row.status .concluded winner awards instant draw)
        true) :
      Move label fresh id board
        { board with
          row := some { row with status := .concluded, winner }
          ledger := board.ledger ++ paid }
  | deleted (board : Board) : Move label fresh id board empty
  | entered {board : Board} {row : TournamentRow} {entrant : EntrantRow}
      (found : board.row = some row) (open_row : row.status ≠ .concluded)
      (no_bracket : board.rows = []) (new : entrant.id.uuid ∈ fresh)
      (room : board.entrants.length < maxEntrants)
      (alone : ∀ other ∈ board.entrants, entrant.player.isSome → other.player ≠ entrant.player) :
      Move label fresh id board { board with entrants := board.entrants ++ [entrant] }
  | rated {board : Board} {row : TournamentRow} {write : EntrantRow → EntrantRow}
      (found : board.row = some row) (open_row : row.status ≠ .concluded)
      (no_bracket : board.rows = []) (same_ids : ∀ entrant, (write entrant).id = entrant.id)
      (same_players : ∀ entrant, (write entrant).player = entrant.player) :
      Move label fresh id board { board with entrants := board.entrants.map write }
  | left {board : Board} {row : TournamentRow} {stays : EntrantRow → Bool}
      (found : board.row = some row) (open_row : row.status ≠ .concluded)
      (no_bracket : board.rows = []) :
      Move label fresh id board { board with entrants := board.entrants.filter stays }
  | drawn {board : Board} {row : TournamentRow} {order : List EntrantId}
      {draw : Nat → MatchId} {bracket : Bracket} {seat : EntrantRow → EntrantRow}
      (found : board.row = some row) (live : row.status = .live)
      (unplayed : ∀ stored ∈ board.rows, stored.isPlayed = false)
      (generated : Bracket.generate draw order = .ok bracket) (ids : bracket.DistinctIds)
      (new : ∀ m ∈ bracket.flat, m.id.uuid ∈ fresh) (order_nodup : order.Nodup)
      (seated : ∀ entrant ∈ order, board.Seats entrant)
      (same_ids : ∀ entrant, (seat entrant).id = entrant.id)
      (seeds : ∀ entrant ∈ board.entrants, ∀ place, order[place]? = some entrant.id →
        (seat entrant).seed = some (place + 1))
      (answered : Answered label (.replaceBracket id .live order bracket) .done)
      (same_players : ∀ entrant, (seat entrant).player = entrant.player) :
      Move label fresh id board
        { board with
          entrants := board.entrants.map seat
          rows := bracket.flat.map (MatchRow.ofMatch id) }
  | undrawn {board : Board} {row : TournamentRow} {unseat : EntrantRow → EntrantRow}
      (found : board.row = some row) (open_row : row.status ≠ .concluded)
      (unplayed : ∀ stored ∈ board.rows, stored.isPlayed = false)
      (same_ids : ∀ entrant, (unseat entrant).id = entrant.id)
      (same_players : ∀ entrant, (unseat entrant).player = entrant.player) :
      Move label fresh id board
        { board with entrants := board.entrants.map unseat, rows := [] }
  | resulted {board : Board} {row : TournamentRow} {order : List EntrantId} {bracket : Bracket}
      {call : Bracket.Call} (found : board.row = some row) (open_row : row.status ≠ .concluded)
      (holds : board.Holds id order bracket) :
      Move label fresh id board
        { board with rows := (bracket.play call).flat.map (MatchRow.ofMatch id) }

/-! ## What every board keeps -/

/-- The invariant of a board.  `used` are the identifiers generated so far. -/
structure Ok (used : List Nat) (id : TournamentId) (board : Board) : Prop where
  /-- Rows are tied to a tournament that is there. -/
  absent : board.row = none → board = empty
  /-- Only a conclusion pays. -/
  paid : board.ledger ≠ [] → board.status = some .concluded
  /-- A winner is an entrant of a concluded tournament. -/
  won : ∀ row, board.row = some row → ∀ winner, row.winner = some winner →
    row.status = .concluded ∧ board.Seats winner
  /-- Everything stored was generated. -/
  row_used : board.row.isSome → id.uuid ∈ used
  entrants_used : ∀ entrant ∈ board.entrants, entrant.id.uuid ∈ used
  rows_used : ∀ stored ∈ board.rows, stored.id.uuid ∈ used
  /-- The matches are a whole bracket. -/
  bracket : board.rows = [] ∨ ∃ order bracket, board.Holds id order bracket
  /-- No check-in is tied to a tournament. -/
  tied : ∀ entry ∈ board.ledger, entry.event = none

theorem ok_empty (used : List Nat) (id : TournamentId) : Ok used id empty where
  absent _ := rfl
  paid nonempty := absurd rfl nonempty
  won row found := by cases found
  row_used found := by cases found
  entrants_used entrant member := by cases member
  rows_used stored member := by cases member
  bracket := Or.inl rfl
  tied entry member := by cases member

/-- An entrant of a concluded tournament stays as it is, but for an account that goes. -/
def Stays (entrant later : EntrantRow) : Prop :=
  later = entrant ∨ later = { entrant with player := none }

/-- What a conclusion freezes: the row, the entrants but for their accounts, the matches, and the
ledger but for entries that go with an account. -/
structure Frozen (board later : Board) : Prop where
  row : later.row = board.row
  entrants : List.Forall₂ Stays board.entrants later.entrants
  rows : later.rows = board.rows
  ledger : (later.ledger.map PointRow.id).Sublist (board.ledger.map PointRow.id)

theorem Frozen.refl (board : Board) : Frozen board board where
  row := rfl
  entrants := List.forall₂_same.mpr fun _ _ => Or.inl rfl
  rows := rfl
  ledger := List.Sublist.refl _

theorem Stays.trans {first second third : EntrantRow} (early : Stays first second)
    (late : Stays second third) : Stays first third := by
  rcases early with rfl | rfl
  · exact late
  · rcases late with rfl | rfl
    · exact Or.inr rfl
    · exact Or.inr rfl

private theorem stays_trans {first second third : List EntrantRow}
    (early : List.Forall₂ Stays first second) (late : List.Forall₂ Stays second third) :
    List.Forall₂ Stays first third := by
  induction early generalizing third with
  | nil => exact late
  | cons stays rest ih =>
      cases late with
      | cons stays' rest' => exact .cons (stays.trans stays') (ih rest')

theorem Frozen.trans {first second third : Board} (early : Frozen first second)
    (late : Frozen second third) : Frozen first third where
  row := late.row.trans early.row
  entrants := stays_trans early.entrants late.entrants
  rows := late.rows.trans early.rows
  ledger := late.ledger.trans early.ledger

theorem Frozen.status_eq {board later : Board} (frozen : Frozen board later) :
    later.status = board.status := congrArg (Option.map TournamentRow.status) frozen.row

/-- What a match row keeps as long as it is stored. -/
def place (row : MatchRow) : MatchId × Nat × Nat := (row.id, row.round, row.slot)

/-- How a later board follows an earlier one.  `used` are the identifiers generated by the earlier:
what goes of them does not come back. -/
structure Later (used : List Nat) (id : TournamentId) (board later : Board) : Prop where
  /-- A tournament that was there is the same one, or gone for good. -/
  row : id.uuid ∈ used → later.row.isSome → board.row.isSome
  /-- An entrant that could have been there was there. -/
  entrants : ∀ entrant ∈ later.entrants, entrant.id.uuid ∈ used → board.Seats entrant.id
  /-- The matches are those of another draw, or they stand where they stood. -/
  rows : (∀ stored ∈ later.rows, stored.id.uuid ∉ used) ∨
    later.rows.map place = board.rows.map place
  /-- A conclusion is final. -/
  final : id.uuid ∈ used → board.status = some .concluded → later.row.isSome →
    Frozen board later

theorem Later.refl (used : List Nat) (id : TournamentId) (board : Board) :
    Later used id board board where
  row _ found := found
  entrants entrant member _ := ⟨entrant, member, rfl⟩
  rows := Or.inr rfl
  final _ _ _ := .refl board

theorem Later.trans {used used' : List Nat} {id : TournamentId} {first second third : Board}
    (grown : used ⊆ used') (early : Later used id first second)
    (late : Later used' id second third) : Later used id first third where
  row known found := early.row known (late.row (grown known) found)
  entrants entrant member known := by
    obtain ⟨there, there_mem, id_eq⟩ := late.entrants entrant member (grown known)
    rw [← id_eq] at known ⊢
    exact early.entrants there there_mem known
  rows := by
    rcases late.rows with new | same
    · exact Or.inl fun stored member known => new stored member (grown known)
    · rcases early.rows with new | before
      · refine Or.inl fun stored member => ?_
        have placed : place stored ∈ second.rows.map place := same ▸ List.mem_map_of_mem member
        obtain ⟨there, there_mem, place_eq⟩ := List.mem_map.mp placed
        have id_eq : there.id = stored.id := congrArg Prod.fst place_eq
        exact id_eq ▸ new there there_mem
      · exact Or.inr (same.trans before)
  final known was_concluded found := by
    have still := late.row (grown known) found
    have frozen := early.final known was_concluded still
    have is_concluded := frozen.status_eq.trans was_concluded
    exact frozen.trans (late.final (grown known) is_concluded found)

/-! ## A move keeps the invariant -/

section Ok

variable {label : Label bunker} {used fresh : List Nat} {id : TournamentId} {board after : Board}

theorem Ok.grow (ok : Ok used id board) (fresh : List Nat) : Ok (used ++ fresh) id board where
  absent := ok.absent
  paid := ok.paid
  won := ok.won
  row_used found := List.mem_append_left _ (ok.row_used found)
  entrants_used entrant member := List.mem_append_left _ (ok.entrants_used entrant member)
  rows_used stored member := List.mem_append_left _ (ok.rows_used stored member)
  bracket := ok.bracket
  tied := ok.tied

/-- Writes that keep the ids keep who is seated. -/
theorem seats_map {entrants : List EntrantRow} {write : EntrantRow → EntrantRow}
    (same_ids : ∀ entrant, (write entrant).id = entrant.id) {entrant : EntrantId} :
    (∃ row ∈ entrants.map write, row.id = entrant) ↔ ∃ row ∈ entrants, row.id = entrant := by
  simp [same_ids]

theorem Ok.ledger_of_open (ok : Ok used id board) {row : TournamentRow}
    (found : board.row = some row) (open_row : row.status ≠ .concluded) : board.ledger = [] := by
  by_contra nonempty
  have concluded := ok.paid nonempty
  rw [status, found] at concluded
  exact open_row (Option.some.inj concluded)

theorem Ok.winner_of_open (ok : Ok used id board) {row : TournamentRow}
    (found : board.row = some row) (open_row : row.status ≠ .concluded) : row.winner = none := by
  by_contra someone
  obtain ⟨winner, won⟩ := Option.ne_none_iff_exists'.mp someone
  exact open_row (ok.won row found winner won).1

private theorem Ok.anonymised (ok : Ok used id board) (player : PlayerId) :
    Ok used id (board.anonymised player) := by
  have same_ids : ∀ row : EntrantRow,
      (if row.player = some player then { row with player := none } else row).id = row.id := by
    intro row
    split_ifs <;> rfl
  refine
    { absent := ?_, paid := ?_, won := ?_, row_used := ok.row_used, entrants_used := ?_,
      rows_used := ok.rows_used, bracket := ?_, tied := ?_ }
  · intro no_row
    rw [ok.absent no_row]
    rfl
  · intro nonempty
    refine ok.paid fun none_paid => nonempty ?_
    simp [Board.anonymised, none_paid]
  · intro row found winner won
    obtain ⟨concluded, seated⟩ := ok.won row found winner won
    exact ⟨concluded, (seats_map same_ids).mpr seated⟩
  · intro entrant member
    obtain ⟨before, before_mem, rfl⟩ := List.mem_map.mp member
    rw [same_ids before]
    exact ok.entrants_used before before_mem
  · refine ok.bracket.imp_right ?_
    rintro ⟨order, bracket, drawn, seated, rows_eq⟩
    exact ⟨order, bracket, drawn,
      fun entrant member => (seats_map same_ids).mpr (seated entrant member), rows_eq⟩
  · intro entry member
    obtain ⟨before, before_mem, rfl⟩ := List.mem_map.mp member
    have untied := ok.tied before (List.mem_filter.mp before_mem).1
    split_ifs <;> exact untied

/-- Another row without a winner, before a conclusion. -/
private theorem Ok.rewritten (ok : Ok used id board) {row edit : TournamentRow}
    (found : board.row = some row) (open_row : row.status ≠ .concluded)
    (unwon : edit.winner = none) : Ok used id { board with row := some edit } where
  absent impossible := by cases impossible
  paid nonempty := absurd (ok.ledger_of_open found open_row) nonempty
  won other found' winner won := by
    obtain rfl := Option.some.inj found'
    simp [unwon] at won
  row_used _ := ok.row_used (by simp [found])
  entrants_used := ok.entrants_used
  rows_used := ok.rows_used
  bracket := ok.bracket
  tied := ok.tied

/-- Other entrants and other matches, before a conclusion. -/
private theorem Ok.refilled (ok : Ok used id board) {row : TournamentRow}
    (found : board.row = some row) (open_row : row.status ≠ .concluded)
    {entrants : List EntrantRow} {rows : List MatchRow}
    (entrants_used : ∀ entrant ∈ entrants, entrant.id.uuid ∈ used)
    (rows_used : ∀ stored ∈ rows, stored.id.uuid ∈ used)
    (bracket : rows = [] ∨ ∃ order bracket,
      Holds { board with entrants, rows } id order bracket) :
    Ok used id { board with entrants, rows } where
  absent no_row := by simp [found] at no_row
  paid nonempty := absurd (ok.ledger_of_open found open_row) nonempty
  won other found' winner won := by
    obtain rfl := Option.some.inj (found'.symm.trans found)
    rw [ok.winner_of_open found open_row] at won
    cases won
  row_used := ok.row_used
  entrants_used := entrants_used
  rows_used := rows_used
  bracket := bracket
  tied := ok.tied

private theorem Ok.entrants_used_map (ok : Ok used id board) {write : EntrantRow → EntrantRow}
    (same_ids : ∀ entrant, (write entrant).id = entrant.id) :
    ∀ entrant ∈ board.entrants.map write, entrant.id.uuid ∈ used := by
  intro entrant member
  obtain ⟨before, before_mem, rfl⟩ := List.mem_map.mp member
  rw [same_ids before]
  exact ok.entrants_used before before_mem

/-- A move keeps the invariant, with the identifiers it generated. -/
theorem Move.ok (move : Move label fresh id board after) (ok : Ok used id board) :
    Ok (used ++ fresh) id after := by
  have grown := ok.grow fresh
  cases move with
  | stay => exact grown
  | anonymised player => exact grown.anonymised player
  | @created row absent new draft unwon =>
      rw [ok.absent absent]
      exact
        { absent := fun impossible => by cases impossible
          paid := fun nonempty => absurd rfl nonempty
          won := fun other found winner won => by
            obtain rfl := Option.some.inj found
            simp [unwon] at won
          row_used := fun _ => List.mem_append_right _ new
          entrants_used := fun entrant member => by cases member
          rows_used := fun stored member => by cases member
          bracket := Or.inl rfl
          tied := fun entry member => by cases member }
  | edited found open_row same_status same_winner =>
      exact grown.rewritten found open_row (same_winner.trans (ok.winner_of_open found open_row))
  | moved found move answered =>
      refine grown.rewritten found ?_ rfl
      intro concluded
      simp [Moves, concluded] at move
  | concluded found open_row seated tied =>
      exact
        { absent := fun impossible => by cases impossible
          paid := fun _ => rfl
          won := fun other found' entrant won => by
            obtain rfl := Option.some.inj found'
            exact ⟨rfl, seated entrant won⟩
          row_used := fun _ => grown.row_used (by simp [found])
          entrants_used := grown.entrants_used
          rows_used := grown.rows_used
          bracket := grown.bracket
          tied := fun entry member =>
            (List.mem_append.mp member).elim (grown.tied entry) (tied entry) }
  | deleted => exact ok_empty _ _
  | entered found open_row no_bracket new =>
      refine grown.refilled found open_row (fun other member => ?_) grown.rows_used
        (Or.inl no_bracket)
      rcases List.mem_append.mp member with old | last
      · exact grown.entrants_used other old
      · obtain rfl := List.mem_singleton.mp last
        exact List.mem_append_right _ new
  | rated found open_row no_bracket same_ids =>
      exact grown.refilled found open_row (grown.entrants_used_map same_ids) grown.rows_used
        (Or.inl no_bracket)
  | left found open_row no_bracket =>
      exact grown.refilled found open_row
        (fun other member => grown.entrants_used other (List.mem_filter.mp member).1)
        grown.rows_used (Or.inl no_bracket)
  | @drawn row order draw bracket seat found live unplayed generated ids new order_nodup seated
      same_ids =>
      refine grown.refilled found (by simp [live]) (grown.entrants_used_map same_ids)
        (fun stored member => ?_) (Or.inr ⟨order, bracket, .of_generate generated ids,
          fun entrant member => (seats_map same_ids).mpr (seated entrant member), rfl⟩)
      obtain ⟨m, m_mem, rfl⟩ := List.mem_map.mp member
      exact List.mem_append_right _ (new m m_mem)
  | undrawn found open_row unplayed same_ids =>
      exact grown.refilled found open_row (grown.entrants_used_map same_ids)
        (fun stored member => by cases member) (Or.inl rfl)
  | @resulted row order bracket call found open_row holds =>
      obtain ⟨drawn, seated, rows_eq⟩ := holds
      refine grown.refilled found open_row grown.entrants_used (fun stored member => ?_)
        (Or.inr ⟨order, bracket.play call, drawn.play call, seated, rfl⟩)
      obtain ⟨m, m_mem, rfl⟩ := List.mem_map.mp member
      have id_mem : m.id ∈ bracket.flat.map Match.id :=
        bracket.play_flat_ids call ▸ List.mem_map_of_mem m_mem
      obtain ⟨before, before_mem, id_eq⟩ := List.mem_map.mp id_mem
      have known := grown.rows_used (.ofMatch id before)
        (rows_eq ▸ List.mem_map_of_mem before_mem)
      rw [MatchRow.ofMatch, ← id_eq]
      exact known

end Ok

/-! ## A move keeps what was said before -/

section Later

variable {label : Label bunker} {used fresh : List Nat} {id : TournamentId} {board after : Board}

/-- Before a conclusion, a step that keeps the row there says nothing about a conclusion. -/
private theorem Later.of_open {row : TournamentRow} (found : board.row = some row)
    (open_row : row.status ≠ .concluded)
    (entrants : ∀ entrant ∈ after.entrants, entrant.id.uuid ∈ used → board.Seats entrant.id)
    (rows : (∀ stored ∈ after.rows, stored.id.uuid ∉ used) ∨
      after.rows.map place = board.rows.map place) : Later used id board after where
  row _ _ := by simp [found]
  entrants := entrants
  rows := rows
  final _ concluded _ := by
    rw [status, found] at concluded
    exact absurd (Option.some.inj concluded) open_row

private theorem seats_of_map {write : EntrantRow → EntrantRow}
    (same_ids : ∀ entrant, (write entrant).id = entrant.id) :
    ∀ entrant ∈ board.entrants.map write, entrant.id.uuid ∈ used → board.Seats entrant.id := by
  intro entrant member _
  exact (seats_map same_ids).mp ⟨entrant, member, rfl⟩

/-- After a move, everything said of the board before still holds. -/
theorem Move.later (move : Move label fresh id board after) (ok : Ok used id board)
    (new_ids : ∀ uuid ∈ fresh, uuid ∉ used) : Later used id board after := by
  cases move with
  | stay => exact .refl used id board
  | anonymised player =>
      have same_ids : ∀ row : EntrantRow,
          (if row.player = some player then { row with player := none } else row).id = row.id := by
        intro row
        split_ifs <;> rfl
      refine
        { row := fun _ found => found, entrants := seats_of_map same_ids, rows := Or.inr rfl
          final := fun _ _ _ => ⟨rfl, ?_, rfl, ?_⟩ }
      · refine List.forall₂_map_right_iff.mpr (List.forall₂_same.mpr fun row _ => ?_)
        split_ifs
        · exact Or.inr rfl
        · exact Or.inl rfl
      · have same_entries : ((board.ledger.filter fun row => row.player ≠ player).map fun row =>
            if row.createdBy = some player then { row with createdBy := none } else row).map
              PointRow.id =
            (board.ledger.filter fun row => row.player ≠ player).map PointRow.id := by
          rw [List.map_map]
          refine List.map_congr_left fun row _ => ?_
          simp only [Function.comp_apply]
          split_ifs <;> rfl
        simp only [Board.anonymised]
        rw [same_entries]
        exact List.filter_sublist.map PointRow.id
  | created absent new =>
      rw [ok.absent absent]
      exact
        { row := fun known _ => absurd known (new_ids _ new)
          entrants := fun entrant member => by cases member
          rows := Or.inr rfl
          final := fun known _ _ => absurd known (new_ids _ new) }
  | edited found open_row =>
      exact .of_open found open_row (fun entrant member _ => ⟨entrant, member, rfl⟩) (Or.inr rfl)
  | moved found move =>
      refine .of_open found ?_ (fun entrant member _ => ⟨entrant, member, rfl⟩) (Or.inr rfl)
      intro concluded
      simp [Moves, concluded] at move
  | concluded found open_row =>
      exact .of_open found open_row (fun entrant member _ => ⟨entrant, member, rfl⟩) (Or.inr rfl)
  | deleted =>
      exact
        { row := fun _ impossible => by cases impossible
          entrants := fun entrant member => by cases member
          rows := Or.inl fun stored member => by cases member
          final := fun _ _ impossible => by cases impossible }
  | entered found open_row no_bracket new =>
      refine .of_open found open_row (fun entrant member known => ?_) (Or.inr rfl)
      rcases List.mem_append.mp member with old | last
      · exact ⟨entrant, old, rfl⟩
      · obtain rfl := List.mem_singleton.mp last
        exact absurd known (new_ids _ new)
  | rated found open_row no_bracket same_ids =>
      exact .of_open found open_row (seats_of_map same_ids) (Or.inr rfl)
  | left found open_row no_bracket =>
      exact .of_open found open_row
        (fun entrant member _ => ⟨entrant, (List.mem_filter.mp member).1, rfl⟩) (Or.inr rfl)
  | drawn found live unplayed generated ids new order_nodup seated same_ids =>
      refine .of_open found (by simp [live]) (seats_of_map same_ids)
        (Or.inl fun stored member => ?_)
      obtain ⟨m, m_mem, rfl⟩ := List.mem_map.mp member
      exact new_ids _ (new m m_mem)
  | undrawn found open_row unplayed same_ids =>
      exact .of_open found open_row (seats_of_map same_ids)
        (Or.inl fun stored member => by cases member)
  | resulted found open_row holds =>
      obtain ⟨drawn, seated, rows_eq⟩ := holds
      refine .of_open found open_row (fun entrant member _ => ⟨entrant, member, rfl⟩) (Or.inr ?_)
      rw [rows_eq, List.map_map, List.map_map]
      exact Bracket.SameRows.play _ _

end Later

end Board
end LanBunker
