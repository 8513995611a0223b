import LanBunker.Tournaments.Served

/-!
# A session of the bracket editor

Every gesture of the editor is one request, and the answer replaces the bracket on screen.  The
seeds are kept on screen, and set from the order that a swap sent.  While other requests leave the
tournament alone and no answer is lost, the screen shows what the database holds.
-/

namespace LanBunker

open Interleaving Service TournamentStorage TournamentService

/-! ## What the screen does -/

/-- `indexOf` and one more, an absent entrant having the index -1. -/
def seedIn (sent : List EntrantId) (entrant : EntrantId) : Nat :=
  if entrant ∈ sent then sent.idxOf entrant + 1 else 0

namespace TournamentService

variable {id : TournamentId}

/-- Where a new bracket is placed, the seeds are the places in the order that was sent. -/
theorem Placed.seeds {world later : World} {order : List EntrantId} {bracket : Bracket}
    (placed : Placed id order world bracket later)
    (perm : order.Perm ((world.db.board id).entrants.map EntrantRow.id))
    (good : world.Good) :
    ((later.db.board id).entrants.map fun row => (row.id, row.seed)) =
      ((world.db.board id).entrants.map EntrantRow.id).map fun entrant =>
        (entrant, some (seedIn order entrant)) := by
  rw [placed.entrants, List.map_map, List.map_map]
  refine List.map_congr_left fun row member => ?_
  have here := of_decide_eq_true (List.mem_filter.mp member).2
  have sent : row.id ∈ order := perm.symm.subset (List.mem_map_of_mem member)
  have distinct : order.Nodup := perm.nodup_iff.mpr (good.entrants_nodup id)
  have seed : (seatRow id 1 order (unseatRow id row)).seed = some (1 + order.idxOf row.id) := by
    refine seatRow_seed ((unseatRow_tournament row).trans here) distinct ?_
    rw [unseatRow_id]
    exact List.getElem?_idxOf sent
  simp only [Function.comp_apply]
  rw [seatRow_id, unseatRow_id, seed, seedIn, if_pos sent, Nat.add_comm]

theorem Placed.entrant_ids {world later : World} {order : List EntrantId} {bracket : Bracket}
    (placed : Placed id order world bracket later) :
    (later.db.board id).entrants.map EntrantRow.id =
      (world.db.board id).entrants.map EntrantRow.id := by
  rw [placed.entrants, List.map_map]
  refine List.map_congr_left fun row _ => ?_
  rw [Function.comp_apply, seatRow_id, unseatRow_id]

end TournamentService

/-- A click on a side, a drag of one side onto another, and the two buttons. -/
inductive Gesture where
  | pick (m : Match) (entrant : EntrantId)
  | swap (source target : EntrantId)
  | generate
  | remove

/-- The rest of the page depends on whether there is a bracket, so it is loaded again. -/
def Gesture.reloads : Gesture → Bool
  | .pick _ _ | .swap _ _ => false
  | .generate | .remove => true

namespace BracketEditor

/-- A page that the server rendered. -/
def ofDetail (detail : TournamentDetail) : BracketEditor where
  entrants := detail.entrants
  bracket := detail.bracket
  locked := detail.tournament.status = .concluded
  hydrated := false
  busy := false
  armed := false

/-- The entrants by their seeds, as a swap starts from them. -/
def seeded (editor : BracketEditor) : List EntrantId :=
  (editor.entrants.insertionSort fun left right => left.seed.getD 0 ≤ right.seed.getD 0).map
    Entrant.id

/-- The order that a swap sends. -/
def swapped (editor : BracketEditor) (source target : EntrantId) : List EntrantId :=
  editor.seeded.map fun entrant =>
    if entrant = source then target else if entrant = target then source else entrant

/-- The gestures that the view of the bracket and the buttons let through. -/
def Offers (editor : BracketEditor) : Gesture → Prop
  | .pick m entrant => ∃ bracket, editor.bracket = some bracket ∧ m ∈ bracket.flat ∧
      (m.entrantA = some entrant ∨ m.entrantB = some entrant) ∧ editor.interactive m = true
  | .swap source target => source ≠ target ∧ ∃ bracket, editor.bracket = some bracket ∧
      ∀ entrant ∈ [source, target], ∃ m ∈ bracket.flat,
        (m.entrantA = some entrant ∨ m.entrantB = some entrant) ∧ editor.draggable m = true
  | .generate => editor.regenerates = true
  | .remove => editor.confirms = true

/-- The request behind a gesture, and the bracket it answers. -/
def sends (editor : BracketEditor) (id : TournamentId) : Gesture → Service (Option Bracket)
  | .pick m entrant => do
      let answer ← enterResult id (onPick m entrant)
      pure (some answer)
  | .swap source target => do
      let answer ← reorderSeeds id (editor.swapped source target)
      pure (some answer)
  | .generate => do
      let answer ← generateBracket id
      pure (some answer)
  | .remove => do
      TournamentService.deleteBracket id
      pure none

/-- The screen after the answer.  An error leaves the bracket as it was. -/
def answered (editor : BracketEditor) (gesture : Gesture) :
    Except ServiceError (Option Bracket) → BracketEditor
  | .error _ => editor
  | .ok bracket =>
      match gesture with
      | .swap source target =>
          { editor with
            bracket
            entrants := editor.entrants.map fun entrant =>
              { entrant with seed := some (seedIn (editor.swapped source target) entrant.id) } }
      | .pick _ _ | .generate | .remove => { editor with bracket }

end BracketEditor

/-! ## Sessions -/

/-- The screen of an admin beside the database. -/
structure EditorSession where
  world : World
  editor : BracketEditor
  /-- The page was told to load again, and shows old seeds until it does. -/
  reloads : Bool
  /-- An answer was lost, and the page was not loaded since the request was over. -/
  unsure : Bool

namespace EditorSession

/-- One step of a session about the tournament `id`. -/
inductive Step (id : TournamentId) : EditorSession → EditorSession → Prop where
  | elsewhere {session : EditorSession} {later : World}
      (kept : World.Elsewhere id session.world later) :
      Step id session { session with world := later }
  | hydrated (session : EditorSession) :
      Step id session { session with editor := { session.editor with hydrated := true } }
  | asked (session : EditorSession) (armed : Bool) :
      Step id session { session with editor := { session.editor with armed } }
  | gesture {session : EditorSession} {gesture : Gesture}
      {answer : Except ServiceError (Option Bracket)} {after : World}
      (sure : session.unsure = false) (offered : session.editor.Offers gesture)
      (served : Program.Runs (World.Amid id) (session.editor.sends id gesture) session.world answer
        after) :
      Step id session
        { session with
          world := after
          editor := session.editor.answered gesture answer
          reloads := session.reloads || gesture.reloads && answer.isOk }
  /-- The site or the API refuses the caller, whose session is over or who is no admin any more. -/
  | refused {session : EditorSession} {gesture : Gesture} {later : World}
      (offered : session.editor.Offers gesture)
      (kept : World.Elsewhere id session.world later) :
      Step id session { session with world := later }
  /-- The connection drops or the site gives the API up.  The screen stays, and the API may go
  on. -/
  | lost {session : EditorSession} {gesture : Gesture} (offered : session.editor.Offers gesture) :
      Step id session { session with unsure := true }
  /-- Whatever a lost request does, and whatever the page does with it. -/
  | unsettled {session later : EditorSession} (unsure : session.unsure = true)
      (live : World.Live id later.world) (still : later.unsure = true) : Step id session later
  /-- The page loads, with no lost request running any more. -/
  | loaded {session : EditorSession} {detail : TournamentDetail} {after : World}
      (served : Program.Runs (World.Amid id) (TournamentService.detail id .withDrafts)
        session.world (.ok detail) after) :
      Step id session
        { world := after, editor := .ofDetail detail, reloads := false, unsure := false }

/-- The screen shows the bracket that the database holds and the entrants it has, and their seeds
too unless the page is about to load again. -/
structure InSync (id : TournamentId) (session : EditorSession) : Prop where
  live : World.Live id session.world
  unlocked : session.editor.locked = false
  bracket : bracketOf (session.world.db.board id).matchList = .ok session.editor.bracket
  entrants : (session.editor.entrants.map Entrant.id).Perm
    ((session.world.db.board id).entrants.map EntrantRow.id)
  seeds : session.reloads = false →
    (session.editor.entrants.map fun entrant => (entrant.id, entrant.seed)).Perm
      ((session.world.db.board id).entrants.map fun row => (row.id, row.seed))

section InSync

variable {id : TournamentId} {session : EditorSession}

theorem InSync.of_screen (sync : InSync id session) {editor : BracketEditor}
    (entrants : editor.entrants = session.editor.entrants)
    (bracket : editor.bracket = session.editor.bracket)
    (locked : editor.locked = session.editor.locked) : InSync id { session with editor } where
  live := sync.live
  unlocked := locked.trans sync.unlocked
  bracket := sync.bracket.trans (congrArg Except.ok bracket.symm)
  entrants := by
    rw [entrants]
    exact sync.entrants
  seeds := by
    rw [entrants]
    exact sync.seeds

theorem InSync.elsewhere (sync : InSync id session) {later : World}
    (kept : World.Elsewhere id session.world later) :
    InSync id { session with world := later } where
  live := sync.live.elsewhere kept
  unlocked := sync.unlocked
  bracket := by
    rw [kept.board]
    exact sync.bracket
  entrants := by
    rw [kept.board]
    exact sync.entrants
  seeds := by
    rw [kept.board]
    exact sync.seeds

/-- The bracket on screen is the bracket of the board. -/
theorem InSync.holds (sync : InSync id session) {bracket : Bracket}
    (shown : session.editor.bracket = some bracket) :
    ∃ order, (session.world.db.board id).Holds id order bracket := by
  have read := sync.bracket
  rw [shown] at read
  rcases (sync.live.good.boards id).bracketOf_matchList with
    ⟨-, none_read⟩ | ⟨order, other, holds, some_read⟩
  · rw [none_read] at read
    cases read
  · rw [some_read] at read
    obtain rfl := Option.some.inj (Except.ok.inj read)
    exact ⟨order, holds⟩

/-- Where the screen has no result, the board has none. -/
theorem InSync.unplayed (sync : InSync id session) (free : session.editor.hasResults = false) :
    Unplayed (session.world.db.board id) := by
  cases shown : session.editor.bracket with
  | some bracket =>
      obtain ⟨order, holds⟩ := sync.holds shown
      rw [BracketEditor.hasResults_eq shown] at free
      exact (unplayed_iff holds).mpr free
  | none =>
      have read := sync.bracket
      rw [shown] at read
      rcases (sync.live.good.boards id).bracketOf_matchList with
        ⟨no_rows, -⟩ | ⟨order, other, holds, some_read⟩
      · intro row member
        rw [no_rows] at member
        cases member
      · rw [some_read] at read
        cases read

theorem InSync.length_eq (sync : InSync id session) :
    session.editor.entrants.length = (session.world.db.board id).entrants.length := by
  have lengths := sync.entrants.length_eq
  rwa [List.length_map, List.length_map] at lengths

end InSync

section Gestures

variable {id : TournamentId} {session : EditorSession}

/-- A swap sends the entrants of the tournament, each once. -/
theorem InSync.swapped_perm (sync : InSync id session) {source target : EntrantId}
    (source_mem : source ∈ session.editor.entrants.map Entrant.id)
    (target_mem : target ∈ session.editor.entrants.map Entrant.id) :
    (session.editor.swapped source target).Perm
      ((session.world.db.board id).entrants.map EntrantRow.id) := by
  have seeded : session.editor.seeded.Perm (session.editor.entrants.map Entrant.id) :=
    (List.perm_insertionSort _ _).map Entrant.id
  have distinct : session.editor.seeded.Nodup :=
    (seeded.trans sync.entrants).nodup_iff.mpr (sync.live.good.entrants_nodup id)
  refine List.Perm.trans ?_ (seeded.trans sync.entrants)
  have exchange : ∀ entrant : EntrantId, (if entrant = source then target else
      if entrant = target then source else entrant) = Equiv.swap source target entrant := by
    intro entrant
    rw [Equiv.swap_apply_def]
  simp only [BracketEditor.swapped, exchange]
  have swapped_distinct := distinct.map (Equiv.swap source target).injective
  rw [List.perm_ext_iff_of_nodup swapped_distinct distinct]
  have source_here := seeded.symm.subset source_mem
  have target_here := seeded.symm.subset target_mem
  have kept : ∀ entrant ∈ session.editor.seeded,
      Equiv.swap source target entrant ∈ session.editor.seeded := by
    intro entrant member
    rw [Equiv.swap_apply_def]
    split_ifs
    · exact target_here
    · exact source_here
    · exact member
  intro entrant
  rw [List.mem_map]
  constructor
  · rintro ⟨other, other_mem, rfl⟩
    exact kept other other_mem
  · intro member
    exact ⟨_, kept entrant member, Equiv.swap_apply_self source target entrant⟩

/-- A click on a side that takes one. -/
theorem InSync.picked (sync : InSync id session) {m : Match} {entrant : EntrantId}
    (offered : session.editor.Offers (.pick m entrant)) :
    Served id (session.editor.sends id (.pick m entrant)) session.world fun bracket later =>
      InSync id { session with
        world := later, editor := session.editor.answered (.pick m entrant) (.ok bracket) } := by
  obtain ⟨bracket, shown, member, side, interactive⟩ := offered
  obtain ⟨order, holds⟩ := sync.holds shown
  obtain ⟨round, slot, found⟩ := Bracket.mem_flat_iff.mp member
  obtain ⟨id_eq, winner, enters⟩ := BracketEditor.onPick_enters side
  have idle : session.editor.idle = true := by
    simp only [BracketEditor.interactive, BracketEditor.isFrozen, Bool.and_eq_true,
      Bool.not_eq_true', Bool.or_eq_false_iff, Bool.not_eq_false'] at interactive
    exact interactive.2.1.1
  have enterable := (BracketEditor.interactive_iff shown idle sync.unlocked holds.1.coherent
    found).mp interactive
  refine served_then ((served_enterResult sync.live holds id_eq enterable enters).mono ?_)
  rintro answer later ⟨live, answer_holds, same_entrants⟩
  refine ⟨some answer, rfl, ?_⟩
  exact
    { live
      unlocked := sync.unlocked
      bracket := answer_holds.bracketOf_matchList
      entrants := by
        rw [same_entrants]
        exact sync.entrants
      seeds := by
        rw [same_entrants]
        exact sync.seeds }

/-- A drag of a side of round one onto another. -/
theorem InSync.swapped (sync : InSync id session) {source target : EntrantId}
    (offered : session.editor.Offers (.swap source target)) :
    Served id (session.editor.sends id (.swap source target)) session.world fun bracket later =>
      InSync id { session with
        world := later
        editor := session.editor.answered (.swap source target) (.ok bracket) } := by
  obtain ⟨other, bracket, shown, sides⟩ := offered
  obtain ⟨order, holds⟩ := sync.holds shown
  have seen : ∀ entrant ∈ [source, target], entrant ∈ session.editor.entrants.map Entrant.id := by
    intro entrant member
    obtain ⟨m, m_mem, side, -⟩ := sides entrant member
    obtain ⟨round, slot, found⟩ := Bracket.mem_flat_iff.mp m_mem
    obtain ⟨row, row_mem, rfl⟩ := holds.2.1 entrant (holds.1.coherent.side_mem found side)
    exact sync.entrants.symm.subset (List.mem_map_of_mem row_mem)
  have perm := sync.swapped_perm (seen source (by simp)) (seen target (by simp))
  have two_le : 2 ≤ (session.editor.swapped source target).length := by
    have pair : [source, target].Nodup := by simpa using other
    rw [(perm.trans sync.entrants.symm).length_eq]
    exact (pair.subperm fun entrant member => seen entrant member).length_le
  have free : session.editor.hasResults = false := by
    obtain ⟨m, -, -, draggable⟩ := sides source (by simp)
    simp only [BracketEditor.draggable, BracketEditor.canSwap, Bool.and_eq_true,
      Bool.not_eq_true'] at draggable
    exact draggable.1.2
  refine served_then ((served_reorderSeeds sync.live (sync.unplayed free) holds.rows_ne_nil perm
    two_le).mono fun answer later placed => ⟨some answer, rfl, ?_⟩)
  have same_ids : (session.editor.entrants.map fun entrant =>
      { entrant with
        seed := some (seedIn (session.editor.swapped source target) entrant.id) }).map Entrant.id =
      session.editor.entrants.map Entrant.id := by
    rw [List.map_map]
    rfl
  exact
    { live := placed.live
      unlocked := sync.unlocked
      bracket := placed.holds.bracketOf_matchList
      entrants := by
        refine (List.Perm.of_eq same_ids).trans ?_
        rw [placed.entrant_ids]
        exact sync.entrants
      seeds := fun _ => by
        rw [placed.seeds perm sync.live.good]
        refine List.Perm.trans (.of_eq ?_) (sync.entrants.map _)
        simp only [BracketEditor.answered, List.map_map]
        rfl }

/-- The button that draws the bracket. -/
theorem InSync.generated (sync : InSync id session)
    (offered : session.editor.Offers .generate) :
    Served id (session.editor.sends id .generate) session.world fun bracket later =>
      InSync id
        { session with
          world := later
          editor := session.editor.answered .generate (.ok bracket)
          reloads := true } := by
  have open_button : session.editor.regenerates = true := offered
  simp only [BracketEditor.regenerates, Bool.and_eq_true, Bool.not_eq_true', Bool.or_eq_false_iff,
    decide_eq_false_iff_not, Nat.not_lt] at open_button
  obtain ⟨-, ⟨-, free⟩, two_le⟩ := open_button
  rw [sync.length_eq] at two_le
  refine served_then ((served_generateBracket sync.live (sync.unplayed free) two_le).mono ?_)
  rintro answer later ⟨order, perm, placed⟩
  refine ⟨some answer, rfl, ?_⟩
  exact
    { live := placed.live
      unlocked := sync.unlocked
      bracket := placed.holds.bracketOf_matchList
      entrants := by
        rw [placed.entrant_ids]
        exact sync.entrants
      seeds := fun impossible => by cases impossible }

/-- The answer "yes" before a removal. -/
theorem InSync.removed (sync : InSync id session)
    (offered : session.editor.Offers .remove) :
    Served id (session.editor.sends id .remove) session.world fun bracket later =>
      InSync id
        { session with
          world := later
          editor := session.editor.answered .remove (.ok bracket)
          reloads := true } := by
  have confirmed : session.editor.confirms = true := offered
  simp only [BracketEditor.confirms, Bool.and_eq_true, Bool.not_eq_true',
    Bool.or_eq_false_iff] at confirmed
  have free := confirmed.2.2
  refine served_then ((served_deleteBracket sync.live (sync.unplayed free)).mono ?_)
  rintro - later ⟨live, no_rows, same_ids⟩
  refine ⟨none, rfl, ?_⟩
  exact
    { live
      unlocked := sync.unlocked
      bracket := by simp [Board.matchList, no_rows, bracketOf, BracketEditor.answered]
      entrants := by
        rw [same_ids]
        exact sync.entrants
      seeds := fun impossible => by cases impossible }

/-- Every gesture that is offered is accepted, and the screen follows. -/
theorem InSync.gesture (sync : InSync id session) {gesture : Gesture}
    (offered : session.editor.Offers gesture) :
    Served id (session.editor.sends id gesture) session.world fun bracket later =>
      InSync id
        { session with
          world := later
          editor := session.editor.answered gesture (.ok bracket)
          reloads := session.reloads || gesture.reloads } := by
  cases gesture with
  | pick m entrant => simpa [Gesture.reloads] using sync.picked offered
  | swap source target => simpa [Gesture.reloads] using sync.swapped offered
  | generate => simpa [Gesture.reloads] using sync.generated offered
  | remove => simpa [Gesture.reloads] using sync.removed offered

end Gestures

/-! ## Whole sessions -/

section Run

variable {id : TournamentId} {world : World} {session later : EditorSession}

/-- A page that loads shows the board. -/
theorem served_detail (live : World.Live id world) :
    Served id (TournamentService.detail id .withDrafts) world fun detail later =>
      InSync id
        { world := later, editor := .ofDetail detail, reloads := false, unsure := false } := by
  rw [TournamentService.detail]
  refine served_bind (served_load live fun tournament middle kept _ status _ => ⟨kept, ?_⟩)
  rw [if_neg (by simp)]
  have live_here := live.elsewhere kept
  obtain ⟨listed, answered, perm⟩ := entrants_read live_here
  refine served_bind (served_read answered rfl fun third further => ⟨further, ?_⟩)
  have live_there := live_here.elsewhere further
  obtain ⟨found, read⟩ : ∃ found, bracketOf (third.db.board id).matchList = .ok found := by
    rcases (live_there.good.boards id).bracketOf_matchList with ⟨-, read⟩ | ⟨_, other, -, read⟩
    · exact ⟨none, read⟩
    · exact ⟨some other, read⟩
  refine served_bind (served_bracket read fun last final => ⟨final, served_pure ?_⟩)
  have here := further.trans final
  exact
    { live := live_there.elsewhere final
      unlocked := by simp [BracketEditor.ofDetail, status]
      bracket := by
        rw [final.board]
        exact read
      entrants := by
        rw [here.board]
        refine (perm.map Entrant.id).trans (.of_eq ?_)
        rw [List.map_map]
        rfl
      seeds := fun _ => by
        rw [here.board]
        refine (perm.map fun entrant => (entrant.id, entrant.seed)).trans (.of_eq ?_)
        rw [List.map_map]
        rfl }

/-- The tournament stays live, and the screen shows what is stored unless an answer was lost. -/
structure Kept (id : TournamentId) (session : EditorSession) : Prop where
  live : World.Live id session.world
  sync : session.unsure = false → InSync id session

/-- An answered gesture keeps the screen and the database together. -/
theorem InSync.answered (sync : InSync id session) {gesture : Gesture}
    {answer : Except ServiceError (Option Bracket)} {after : World}
    (offered : session.editor.Offers gesture)
    (served : Program.Runs (World.Amid id) (session.editor.sends id gesture) session.world answer
      after) :
    InSync id
      { session with
        world := after
        editor := session.editor.answered gesture answer
        reloads := session.reloads || gesture.reloads && answer.isOk } := by
  have outcome := Program.always_iff.mp (sync.gesture offered) answer after served
  cases answer with
  | ok bracket =>
      rw [← Bool.and_true gesture.reloads] at outcome
      exact outcome
  | error error =>
      have stays : (session.reloads || gesture.reloads && false) = session.reloads := by
        rw [Bool.and_false, Bool.or_false]
      have there := sync.elsewhere outcome.2
      exact
        { live := there.live
          unlocked := there.unlocked
          bracket := there.bracket
          entrants := there.entrants
          seeds := fun due => there.seeds (stays.symm.trans due) }

theorem Kept.step (kept : Kept id session) (step : Step id session later) : Kept id later := by
  cases step with
  | elsewhere elsewhere =>
      exact ⟨kept.live.elsewhere elsewhere, fun sure => (kept.sync sure).elsewhere elsewhere⟩
  | hydrated => exact ⟨kept.live, fun sure => (kept.sync sure).of_screen rfl rfl rfl⟩
  | asked => exact ⟨kept.live, fun sure => (kept.sync sure).of_screen rfl rfl rfl⟩
  | gesture sure offered served =>
      have sync := (kept.sync sure).answered offered served
      exact ⟨sync.live, fun _ => sync⟩
  | refused _ elsewhere =>
      exact ⟨kept.live.elsewhere elsewhere, fun sure => (kept.sync sure).elsewhere elsewhere⟩
  | lost => exact ⟨kept.live, fun sure => by cases sure⟩
  | unsettled _ live still => exact ⟨live, fun sure => by cases still.symm.trans sure⟩
  | loaded served =>
      have sync := Program.always_iff.mp (served_detail kept.live) _ _ served
      exact ⟨sync.live, fun _ => sync⟩

theorem Kept.run (kept : Kept id session)
    (steps : Relation.ReflTransGen (Step id) session later) : Kept id later := by
  induction steps with
  | refl => exact kept
  | tail _ step ih => exact ih.step step

/-- In every state of a run a live tournament is in order. -/
theorem live_of_run {clock : Instant} {trace : List (Moment bunker)} {stop : Config bunker}
    (run : Run (Config.quiet (World.initial clock)) trace stop)
    (live : (stop.state.db.board id).status = some .live)
    (readable : ∀ row, (stop.state.db.board id).row = some row → row.IsReadable) :
    World.Live id stop.state :=
  ⟨(boards_along run).1, (bounded_along run id).1, live, readable⟩

/-- While other requests leave a live tournament alone, the screen of its editor shows the bracket
that the database holds and, but before a load that is due, the seeds, unless an answer was lost
since the page loaded.  Every gesture that it then offers is accepted, unless the caller is refused,
the answer is lost or the database is busy, and then nothing happened to the tournament. -/
theorem screen_shows_stored {clock : Instant} {trace : List (Moment bunker)} {stop : Config bunker}
    (run : Run (Config.quiet (World.initial clock)) trace stop)
    (live : (stop.state.db.board id).status = some .live)
    (readable : ∀ row, (stop.state.db.board id).row = some row → row.IsReadable)
    {detail : TournamentDetail} {opened : World} (load : Program.Runs (World.Amid id)
      (TournamentService.detail id .withDrafts) stop.state (.ok detail) opened)
    (steps : Relation.ReflTransGen (Step id)
      { world := opened, editor := .ofDetail detail, reloads := false, unsure := false } session)
    (sure : session.unsure = false) :
    bracketOf (session.world.db.board id).matchList = .ok session.editor.bracket ∧
      (session.reloads = false →
        (session.editor.entrants.map fun entrant => (entrant.id, entrant.seed)).Perm
          ((session.world.db.board id).entrants.map fun row => (row.id, row.seed))) ∧
      ∀ gesture, session.editor.Offers gesture → ∀ answer after,
        Program.Runs (World.Amid id) (session.editor.sends id gesture) session.world answer after →
          (∃ bracket, answer = .ok bracket) ∨
            answer = .error (.ofStorage .busy) ∧ World.Elsewhere id session.world after := by
  have opening : Kept id
      { world := opened, editor := .ofDetail detail, reloads := false, unsure := false } := by
    have sync := Program.always_iff.mp (served_detail (live_of_run run live readable)) _ _ load
    exact ⟨sync.live, fun _ => sync⟩
  have sync := (opening.run steps).sync sure
  refine ⟨sync.bracket, sync.seeds, fun gesture offered answer after served => ?_⟩
  have outcome := Program.always_iff.mp (sync.gesture offered) answer after served
  cases answer with
  | ok bracket => exact Or.inl ⟨bracket, rfl⟩
  | error error => exact Or.inr ⟨congrArg Except.error outcome.1, outcome.2⟩

end Run

section Cup

/-- A program as the simulator performs it, with nothing elsewhere. -/
def performed {α : Type} (uuid : Nat) : Program Op Op.Ans α → World → Option (α × World)
  | .answer value, world => some (value, world)
  | .call op next, world =>
      match World.perform op uuid .letters world with
      | none => none
      | some (answer, after) => performed uuid (next answer) after

theorem runs_of_performed {α : Type} {id : TournamentId} {uuid : Nat}
    {program : Program Op Op.Ans α} {world after : World} {value : α}
    (ended : performed uuid program world = some (value, after)) :
    Program.Runs (World.Amid id) program world value after := by
  induction program generalizing world with
  | answer answered =>
      obtain ⟨rfl, rfl⟩ := Prod.mk.inj (Option.some.inj ended)
      exact .answer _ _
  | call op next ih =>
      rw [performed] at ended
      split at ended
      · cases ended
      · rename_i answer middle stepped
        have exec := World.exec_perform op uuid .letters world answer middle stepped
        exact .call ⟨middle, exec, .refl id middle⟩ (ih answer ended)

/-- The final of the cup, as it is drawn. -/
def cupFinal : Match := ⟨⟨31⟩, 1, 0, some ⟨21⟩, some ⟨22⟩, none⟩

/-- The page of the cup, ready for a click. -/
def cupEditor (detail : TournamentDetail) : BracketEditor :=
  { BracketEditor.ofDetail detail with hydrated := true }

/-- The page of the cup loads, and a click on a side of the final is answered with its champion. -/
def clicks (world : World) : Bool :=
  decide ((world.db.board Cup.id).status = some .live) &&
    decide (∀ row ∈ (world.db.board Cup.id).row, row.IsReadable) &&
    match performed 0 (TournamentService.detail Cup.id .withDrafts) world with
    | some (.ok detail, opened) =>
        decide (detail.bracket = some ⟨[[cupFinal]]⟩) && (cupEditor detail).interactive cupFinal &&
          match performed 0 ((cupEditor detail).sends Cup.id (.pick cupFinal ⟨21⟩)) opened with
          | some (.ok (some bracket), _) => decide (bracket.champion = some ⟨21⟩)
          | _ => false
    | _ => false

set_option maxRecDepth 10000 in
/-- A click on a side of the final shows the champion that is stored. -/
theorem screen_shows_stored_cup :
    ∃ trace stop detail opened bracket after, Run Cup.start trace stop ∧
      Program.Runs (World.Amid Cup.id) (TournamentService.detail Cup.id .withDrafts) stop.state
        (.ok detail) opened ∧
      Program.Runs (World.Amid Cup.id) ((cupEditor detail).sends Cup.id (.pick cupFinal ⟨21⟩))
        opened (.ok (some bracket)) after ∧
      bracket.champion = some ⟨21⟩ ∧
      bracketOf (after.db.board Cup.id).matchList = .ok (some bracket) := by
  obtain ⟨trace, stop, run, tested⟩ := bunkerScript.exists_run Cup.start Cup.drawn
    (fun _ stop => clicks stop.state) (by decide +kernel)
  simp only [clicks, Bool.and_eq_true, decide_eq_true_eq] at tested
  obtain ⟨⟨live, readable⟩, tested⟩ := tested
  split at tested
  · rename_i detail opened loaded
    simp only [Bool.and_eq_true, decide_eq_true_eq] at tested
    obtain ⟨⟨shown, open_side⟩, tested⟩ := tested
    split at tested
    · rename_i bracket after clicked
      have load : Program.Runs (World.Amid Cup.id)
          (TournamentService.detail Cup.id .withDrafts) stop.state (.ok detail) opened :=
        runs_of_performed loaded
      have click : Program.Runs (World.Amid Cup.id)
          ((cupEditor detail).sends Cup.id (.pick cupFinal ⟨21⟩)) opened (.ok (some bracket))
          after := runs_of_performed clicked
      have offered : (cupEditor detail).Offers (.pick cupFinal ⟨21⟩) :=
        ⟨⟨[[cupFinal]]⟩, shown, by decide, Or.inl rfl, open_side⟩
      have ready : Step Cup.id ⟨opened, .ofDetail detail, false, false⟩
          ⟨opened, cupEditor detail, false, false⟩ := .hydrated _
      have clicked_step : Step Cup.id ⟨opened, cupEditor detail, false, false⟩ _ :=
        .gesture rfl offered click
      have steps := (Relation.ReflTransGen.single ready).tail clicked_step
      exact ⟨trace, stop, detail, opened, bracket, after, run, load, click,
        of_decide_eq_true tested, (screen_shows_stored run live readable load steps rfl).1⟩
    · cases tested
  · cases tested

end Cup

end EditorSession
end LanBunker
