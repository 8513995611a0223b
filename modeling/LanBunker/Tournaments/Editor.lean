import LanBunker.Brackets.Rows
import LanBunker.Tournaments.Runs

/-!
# The bracket editor

The bracket of the backoffice computes what a click may do in the browser, on its own reading of
the bracket.  What it offers is what the bracket of the API and the store accept.
-/

namespace LanBunker

/-- The state of the editor and of the page around it. -/
structure BracketEditor where
  entrants : List Entrant
  bracket : Option Bracket
  /-- A concluded tournament shows its bracket and takes no change. -/
  locked : Bool
  hydrated : Bool
  busy : Bool
  /-- The question before a removal takes a click. -/
  armed : Bool

namespace BracketEditor

variable (editor : BracketEditor)

def isPlayed (m : Match) : Bool :=
  m.entrantA.isSome && m.entrantB.isSome && m.winner.isSome

def idle : Bool := editor.hydrated && !editor.busy

def hasResults : Bool :=
  (editor.bracket.map fun bracket => bracket.rounds.flatten.any isPlayed).getD false

def canSwap : Bool := editor.idle && !editor.locked && !editor.hasResults

/-- The next match of `m`, which freezes `m` once it has a result.  Rounds count from 1 and the
list of rounds from 0, so the round of `m` is the index of the next. -/
def nextOf (m : Match) : Option Match :=
  editor.bracket.bind fun bracket =>
    bracket.rounds[m.round]?.bind fun slots => slots[m.slot / 2]?

def isFrozen (m : Match) : Bool :=
  !editor.idle || editor.locked || (editor.nextOf m).any fun next => next.winner.isSome

/-- What a click on a side sends. -/
def onPick (m : Match) (entrant : EntrantId) : Bracket.Call :=
  if m.winner = some entrant then .clear m.id else .report m.id entrant

/-- The button that draws the bracket takes a click. -/
def regenerates : Bool :=
  !editor.locked && !(!editor.idle || editor.hasResults || editor.entrants.length < 2)

/-- The button before the question. -/
def removes : Bool :=
  !editor.locked && editor.bracket.isSome && !(!editor.idle || editor.hasResults)

/-- The answer "yes" to the question. -/
def confirms : Bool :=
  !editor.locked && editor.bracket.isSome && !(!editor.armed || !editor.idle || editor.hasResults)

/-- The sides of a box of the bracket view take a click. -/
def interactive (m : Match) : Bool :=
  let ready := m.entrantA.isSome && m.entrantB.isSome
  ready && !editor.isFrozen m

/-- The sides of a box can be dragged onto each other. -/
def draggable (m : Match) : Bool := editor.canSwap && m.round = 1

end BracketEditor

/-! ## The bracket of the API -/

namespace Bracket

variable {bracket : Bracket} {call : Call} {round slot : Nat} {m : Match}
  {winner : Option EntrantId}

/-- A call that would enter a result is accepted exactly where a result may be entered. -/
theorem result_accepted_iff (ids : bracket.DistinctIds)
    (found : bracket.get round slot = some m) (id_eq : m.id = call.matchId)
    (enters : call.Enters m winner) :
    (∃ changed, (bracket.result call).1 = .ok changed) ↔ bracket.Enterable round slot m := by
  constructor
  · rintro ⟨changed, accepted⟩
    have located := ids.locate_eq found
    have checked : m.isReady ∧ bracket.guardNextUndecided round slot m.id = .ok () := by
      cases call with
      | report id side =>
          obtain rfl : m.id = id := id_eq
          simp only [result, report, located, found] at accepted
          split_ifs at accepted with waiting stranger
          split at accepted
          · cases accepted
          · rename_i guarded
            exact ⟨by simpa using waiting, guarded⟩
      | clear id =>
          obtain rfl : m.id = id := id_eq
          simp only [result, clear, located, found] at accepted
          split_ifs at accepted with waiting undecided
          · exact absurd enters.1 (by simpa using undecided)
          · split at accepted
            · cases accepted
            · rename_i guarded
              exact ⟨by simpa using waiting, guarded⟩
    exact ⟨found, checked.1, guardNextUndecided_ok_iff.mp checked.2⟩
  · intro enterable
    exact ⟨_, congrArg Prod.fst (result_of_enters ids id_eq enterable enters)⟩

end Bracket

/-! ## What the editor offers -/

namespace BracketEditor

variable {editor : BracketEditor} {bracket : Bracket} {order : List EntrantId} {m : Match}
  {db : Database} {id : TournamentId}

theorem hasResults_eq (shown : editor.bracket = some bracket) :
    editor.hasResults = bracket.hasResults := by
  rw [hasResults, shown]
  rfl

/-- What a click sends would enter a result: the side it is on, or none where that side won. -/
theorem onPick_enters {entrant : EntrantId}
    (side : m.entrantA = some entrant ∨ m.entrantB = some entrant) :
    m.id = (onPick m entrant).matchId ∧ ∃ winner, (onPick m entrant).Enters m winner := by
  unfold onPick
  split_ifs with won
  · exact ⟨rfl, none, by simp [won], rfl⟩
  · exact ⟨rfl, some entrant, side, rfl⟩

section Shown

variable (shown : editor.bracket = some bracket) (idle : editor.idle = true)
  (unlocked : editor.locked = false)

include shown in
/-- The editor looks for the next match where the API does. -/
theorem nextOf_eq (coherent : bracket.Coherent order) {round slot : Nat}
    (found : bracket.get round slot = some m) :
    editor.nextOf m = bracket.get (round + 1) (slot / 2) := by
  obtain ⟨round_eq, slot_eq⟩ := coherent.placed round slot m found
  rw [nextOf, shown, round_eq, slot_eq]
  rfl

include shown idle unlocked in
/-- The sides of a match take a click exactly where a result may be entered. -/
theorem interactive_iff (coherent : bracket.Coherent order) {round slot : Nat}
    (found : bracket.get round slot = some m) :
    editor.interactive m = true ↔ bracket.Enterable round slot m := by
  have open_next : editor.isFrozen m = false ↔ bracket.NextUndecided round slot := by
    simp only [isFrozen, idle, unlocked, nextOf_eq shown coherent found, Bracket.NextUndecided]
    cases bracket.get (round + 1) (slot / 2) <;> simp
  have both : editor.interactive m = true ↔ m.isReady = true ∧ editor.isFrozen m = false := by
    simp [interactive, Match.isReady]
  rw [both, open_next]
  constructor
  · rintro ⟨ready, next⟩
    exact ⟨found, ready, next⟩
  · intro enterable
    exact ⟨enterable.ready, enterable.next⟩

end Shown

/-- On the rows of a bracket, the store answers `locked` where the bracket has a result. -/
theorem bracketBlocked_locked_iff
    (stored : (TournamentStorage.matchRowsOf id db).Perm
      (bracket.flat.map (MatchRow.ofMatch id)))
    {status : TournamentStatus}
    (holds : ∃ row ∈ db.tournaments, row.id = id ∧ row.status = status) :
    TournamentStorage.bracketBlocked id status db = .locked ↔ bracket.hasResults = true := by
  have status_holds : (db.tournaments.any fun t => t.id = id ∧ t.status = status) = true := by
    simpa using holds
  have played : (db.matchRows.any fun m => m.tournament = id ∧ m.isPlayed) =
      bracket.hasResults := by
    have rows : (db.matchRows.any fun m => m.tournament = id ∧ m.isPlayed) =
        (TournamentStorage.matchRowsOf id db).any MatchRow.isPlayed := by
      rw [TournamentStorage.matchRowsOf, List.any_filter]
      simp
    rw [rows, stored.any_eq, List.any_map, Bracket.hasResults]
    congr 1
    funext m
    simp only [MatchRow.isPlayed, MatchRow.ofMatch, Match.isPlayed, Match.isReady,
      Function.comp_apply]
    rw [Bool.and_assoc, Bool.and_comm]
  simp only [TournamentStorage.bracketBlocked, status_holds, played]
  cases bracket.hasResults <;> simp

/-- An idle editor of a live tournament offers what the API and the store accept.  A side takes a
click exactly when the call that click sends is accepted; and the controls that rebuild, remove or
reorder the bracket are open exactly when it has no result, in the eyes of both. -/
theorem offers_accepted (drawn : Bracket.Drawn order bracket)
    (stored : (TournamentStorage.matchRowsOf id db).Perm
      (bracket.flat.map (MatchRow.ofMatch id)))
    (live : ∃ row ∈ db.tournaments, row.id = id ∧ row.status = .live)
    (shown : editor.bracket = some bracket) (idle : editor.idle = true)
    (unlocked : editor.locked = false) :
    (∀ m ∈ bracket.flat, ∀ entrant, m.entrantA = some entrant ∨ m.entrantB = some entrant →
      (editor.interactive m = true ↔
        ∃ changed, (bracket.result (onPick m entrant)).1 = .ok changed)) ∧
    (editor.hasResults = false ↔
      bracket.hasResults = false ∧ TournamentStorage.bracketBlocked id .live db ≠ .locked) ∧
    (bracket.hasResults = false ↔ TournamentStorage.bracketBlocked id .live db ≠ .locked) ∧
    (editor.regenerates = true ↔ editor.hasResults = false ∧ 2 ≤ editor.entrants.length) ∧
    (editor.removes = true ↔ editor.hasResults = false) ∧
    (editor.confirms = true ↔ editor.hasResults = false ∧ editor.armed = true) ∧
    ∀ m, editor.draggable m = true ↔ editor.hasResults = false ∧ m.round = 1 := by
  have locked := bracketBlocked_locked_iff stored live
  have free : bracket.hasResults = false ↔
      TournamentStorage.bracketBlocked id .live db ≠ .locked := by
    rw [Ne, locked, Bool.not_eq_true]
  refine ⟨fun m member entrant side => ?_, ?_, free, ?_, ?_, ?_, fun m => ?_⟩
  · obtain ⟨round, slot, found⟩ := Bracket.mem_flat_iff.mp member
    obtain ⟨id_eq, winner, enters⟩ := onPick_enters side
    rw [interactive_iff shown idle unlocked drawn.coherent found]
    exact (Bracket.result_accepted_iff drawn.distinctIds found id_eq enters).symm
  · rw [hasResults_eq shown, ← free, and_self]
  · simp only [regenerates, idle, unlocked, Bool.not_false, Bool.not_true, Bool.true_and,
      Bool.false_or, Bool.not_eq_true', Bool.or_eq_false_iff, decide_eq_false_iff_not, Nat.not_lt]
  · simp [removes, idle, unlocked, shown]
  · simp [confirms, idle, unlocked, shown, and_comm]
  · simp [draggable, canSwap, idle, unlocked]

section Three

/-- The draw of three entrants, the match of the seeds 2 and 3 played. -/
private def three : Bracket where
  rounds := [[⟨⟨31⟩, 1, 0, some ⟨21⟩, none, some ⟨21⟩⟩,
      ⟨⟨32⟩, 1, 1, some ⟨22⟩, some ⟨23⟩, some ⟨22⟩⟩],
    [⟨⟨33⟩, 2, 0, some ⟨21⟩, some ⟨22⟩, none⟩]]

private theorem three_drawn : Bracket.Drawn [⟨21⟩, ⟨22⟩, ⟨23⟩] three :=
  ⟨fun index => ⟨31 + index⟩,
    ⟨[[⟨⟨31⟩, 1, 0, some ⟨21⟩, none, some ⟨21⟩⟩, ⟨⟨32⟩, 1, 1, some ⟨22⟩, some ⟨23⟩, none⟩],
      [⟨⟨33⟩, 2, 0, some ⟨21⟩, none, none⟩]]⟩,
    [.report ⟨32⟩ ⟨22⟩], by decide, by decide, by decide⟩

private def cup : TournamentRow where
  id := ⟨10⟩
  name := Cup.new.name
  game := Cup.new.game
  mode := Cup.new.mode
  description := Cup.new.description
  date := Cup.new.date
  registrationClosesAt := 0
  status := .live
  winner := none
  createdAt := 0

private def cupNight : Database :=
  { Database.empty with
    tournaments := [cup], matchRows := three.flat.map (MatchRow.ofMatch ⟨10⟩) }

/-- The entrants of the draw, their accounts deleted. -/
private def field : List Entrant :=
  [⟨⟨21⟩, none, some 1, none, 1⟩, ⟨⟨22⟩, none, some 2, none, 2⟩, ⟨⟨23⟩, none, some 3, none, 3⟩]

/-- The editor of that cup.  With a result in, it neither draws anew nor removes. -/
theorem offers_accepted_three :
    let editor : BracketEditor := ⟨field, some three, false, true, false, false⟩
    (∀ m ∈ three.flat, ∀ entrant, m.entrantA = some entrant ∨ m.entrantB = some entrant →
      (editor.interactive m = true ↔
        ∃ changed, (three.result (onPick m entrant)).1 = .ok changed)) ∧
      editor.regenerates = false ∧ editor.removes = false ∧
      TournamentStorage.bracketBlocked ⟨10⟩ .live cupNight = .locked := by
  intro editor
  obtain ⟨clicks, -, -, rebuilds, removal, -⟩ := offers_accepted three_drawn
    (show (TournamentStorage.matchRowsOf ⟨10⟩ cupNight).Perm
      (three.flat.map (MatchRow.ofMatch ⟨10⟩)) by decide)
    ⟨cup, by decide, by decide, by decide⟩ (show editor.bracket = some three from rfl) rfl rfl
  have played : ¬editor.hasResults = false := by decide
  exact ⟨clicks, Bool.eq_false_iff.mpr fun offered => played (rebuilds.mp offered).1,
    Bool.eq_false_iff.mpr fun offered => played (removal.mp offered), by decide⟩

end Three

end BracketEditor

end LanBunker
