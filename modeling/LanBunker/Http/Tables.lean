import LanBunker.Http.Handles
import LanBunker.Interleaving.Keeping
import LanBunker.Tournaments.Runs

/-!
# The tables behind a server

What the services keep of the tournaments they keep behind the API too, whatever players call
themselves meanwhile.
-/

namespace LanBunker

open Interleaving PlayerStorage

variable {secrets : Secrets}

/-! ## Tournaments -/

/-- A change of the players shows on no board. -/
theorem boards_of_players {world : World} (good : world.Good) (players : List PlayerRow) :
    { world with db := { world.db with players } }.Good ∧
      world.Relies { world with db := { world.db with players } } :=
  ⟨⟨good.tournaments, good.entrants, good.boards⟩, List.Subset.refl _, fun _ => .refl _ _ _⟩

theorem boards_keepsOwn : boards.KeepsOwn (apiLayer secrets) := by
  refine ⟨fun op world after answer performed good => ?_, fun {world after} drift good => ?_⟩
  · by_cases renames : ∃ id handle, op = .rename id handle
    · obtain ⟨id, handle, rfl⟩ := renames
      rcases performed with ⟨db, ran, rfl⟩ | ⟨-, rfl⟩
      · rcases rename_cases ran with ⟨-, -, -, rfl⟩ | ⟨-, -, -, rfl⟩ | ⟨-, -, rfl⟩
        · exact boards_of_players good _
        · exact ⟨good, boards.refl _⟩
        · exact ⟨good, boards.refl _⟩
      · exact ⟨good, boards.refl _⟩
    · obtain rfl := ApiOp.after_eq performed fun id handle same => renames ⟨id, handle, same⟩
      exact ⟨good, boards.refl _⟩
  · cases drift with
    | clock clock =>
        exact ⟨⟨good.tournaments, good.entrants, good.boards⟩, List.Subset.refl _,
          fun _ => .refl _ _ _⟩
    | promote id => exact boards_of_players good _

/-- A step that is sound for what the services write is sound for what they call. -/
theorem sound_of_services {moment : Moment bunker} (sound : services.Sound moment) :
    discipline.Sound moment := by
  obtain ⟨before, label, after⟩ := moment
  cases label with
  | call name request past op answer => exact ⟨sound.1.1, sound.2⟩
  | arrive name request => exact sound
  | reply name request past response => exact sound
  | drop name request => exact sound
  | drift => exact sound

theorem boards_kept_lifted :
    (boards.lifted (apiLayer secrets)).KeptBy (apiDiscipline secrets) fun _ => True := by
  have kept : boards.KeptBy services fun _ => True :=
    fun moment holds informed sound met =>
      boards_kept (fun _ => True) moment holds informed (sound_of_services sound) met
  exact kept.lifted (manners secrets) boards_keepsOwn

theorem boards_good {clock : Instant} {trace : List (Moment (server secrets))}
    {stop : Config (server secrets)}
    (run : Run (Config.quiet (World.initial clock)) trace stop) : stop.state.Good :=
  (Guarantee.along_run boards_kept_lifted (good_initial clock) run fun _ _ => trivial).1

/-- Over every run of a server, handles changing or not, every tournament is in order: its matches
are one whole bracket over entrants it has, and only a conclusion names a winner or pays.  Of what
was generated by an earlier moment nothing comes back, the matches of then keep their places or make
room for another draw, and a conclusion of then is frozen, but for accounts that go, until its
tournament does. -/
theorem server_keeps_boards {clock : Instant} {trace : List (Moment (server secrets))}
    {stop : Config (server secrets)}
    (run : Run (Config.quiet (World.initial clock)) trace stop) (id : TournamentId) :
    (stop.state.db.board id).Ok stop.state.used id ∧
      ∀ moment ∈ trace, Board.Later moment.before.used id (moment.before.db.board id)
        (stop.state.db.board id) := by
  obtain ⟨good, along⟩ := Guarantee.along_run boards_kept_lifted (good_initial clock) run
    fun _ _ => trivial
  refine ⟨good.boards id, fun moment member => ?_⟩
  have passed := along moment member
  exact (boards.trans passed.step passed.rest).2 id

namespace HttpRequest

/-- The player 1, who is an admin, sends a request. -/
def admin (steps : Nat) (route : AdminRoute) (uuid : Nat) : List (serverScript .letters).Command :=
  alone (2 + steps) (keyed (some "Bearer pss") (.admin (.ok route))) uuid

/-- The player 2 takes another handle between the draw of a cup and its final. -/
def cup : List (serverScript .letters).Command :=
  signup 'x' rfl 1 ++ signup 'y' rfl 2 ++ [.drift { promoted := some ⟨1⟩ }] ++
    admin 5 (.createTournament Cup.new) 10 ++ admin 6 (.changeStatus Cup.id ⟨.live, none⟩) 100 ++
    admin 7 (.addEntrant Cup.id ⟨1⟩ none) 21 ++ admin 7 (.addEntrant Cup.id ⟨2⟩ none) 22 ++
    admin 7 (.generateBracket Cup.id) 31 ++ claim 'z' rfl ++
    admin 4 (.reportResult Cup.id ⟨31⟩ ⟨22⟩) 0 ++
    admin 8 (.changeStatus Cup.id ⟨.concluded, none⟩) 200

end HttpRequest

set_option maxRecDepth 10000 in
/-- The player 2 wins the cup under another handle than the one they entered it with. -/
theorem server_keeps_boards_cup :
    ∃ (trace : List (Moment (server .letters))) (stop : Config (server .letters)),
      Run (Config.quiet (World.initial 2000000000)) trace stop ∧
        (stop.state.db.tournaments.map fun row => (row.status, row.winner)) =
          [(.concluded, some ⟨22⟩)] ∧
        (stop.state.db.players.map fun row => String.ofList row.handle.chars) = ["xxx", "zzz"] ∧
        (stop.state.db.board Cup.id).Ok stop.state.used Cup.id ∧
        ∀ moment ∈ trace, Board.Later moment.before.used Cup.id (moment.before.db.board Cup.id)
          (stop.state.db.board Cup.id) := by
  obtain ⟨trace, stop, run, found⟩ := (serverScript .letters).exists_run
    (Config.quiet (World.initial 2000000000)) HttpRequest.cup
    (fun _ stop => decide ((stop.state.db.tournaments.map fun row => (row.status, row.winner)) =
        [(TournamentStatus.concluded, some ⟨22⟩)] ∧
      (stop.state.db.players.map fun row => String.ofList row.handle.chars) = ["xxx", "zzz"]))
    (by decide +kernel)
  obtain ⟨concluded, handles⟩ := of_decide_eq_true found
  exact ⟨trace, stop, run, concluded, handles, server_keeps_boards run Cup.id⟩

end LanBunker
