import LanBunker.Models.Tournament
import Mathlib.Data.List.Nodup

/-!
# The live bracket of the kiosk

The kiosk starts from a detail and polls the site for a fresh one.  Each poll schedules the next,
and React takes a run of the effect back before it runs it again.  However timers, answers, new
properties and commits interleave, the polls never stack up, the screen shows what the newest of
them read, and a concluded or removed tournament ends them.
-/

namespace LanBunker
namespace LiveBracket

/-! ## What the browser and React hold -/

structure LiveBracketProps where
  source : List Char
  intervalMs : Option Nat
  deriving DecidableEq, Repr

def defaultIntervalMs : Nat := 3000

/-- The properties that the effect depends on. -/
structure Target where
  source : List Char
  intervalMs : Nat
  deriving DecidableEq, Repr

def LiveBracketProps.target (props : LiveBracketProps) : Target :=
  ⟨props.source, props.intervalMs.getD defaultIntervalMs⟩

/-- A timer that is set, and the run of the effect whose `poll` it calls.  The run closed over
`target`. -/
structure Timer where
  id : Nat
  run : Nat
  target : Target
  deriving DecidableEq, Repr

/-- What a poll waits for. -/
inductive Stage where
  | response
  | body
  deriving DecidableEq, Repr

/-- A poll that waits for an answer from the source of its `target`. -/
structure Poll where
  id : Nat
  run : Nat
  target : Target
  stage : Stage
  deriving DecidableEq, Repr

/-- A run of the effect that React has a cleanup of, with the `timer` of its closure. -/
structure Running where
  run : Nat
  target : Target
  timer : Nat
  deriving DecidableEq, Repr

/-- The dependencies of the effect beside its target: `concluded` and `gone`. -/
structure Seen where
  target : Target
  concluded : Bool
  gone : Bool
  deriving DecidableEq, Repr

structure Kiosk where
  target : Target
  detail : TournamentDetail
  offline : Bool
  gone : Bool
  /-- The dependencies at the last commit, `none` once the component is gone from the page. -/
  committed : Option Seen
  effect : Option Running
  /-- The runs whose controller was aborted. -/
  aborted : List Nat
  timers : List Timer
  polls : List Poll
  /-- How many runs, timers and polls there were. -/
  runs : Nat
  armed : Nat
  sent : Nat

/-- What `fetch` comes back with. -/
inductive Answer where
  | failed
  | missing
  | refused
  | ok
  deriving DecidableEq, Repr

inductive Event where
  | fired (timer : Nat)
  | answered (poll : Nat) (answer : Answer)
  /-- The body of a response, `none` where it does not parse. -/
  | read (poll : Nat) (body : Option TournamentDetail)
  | properties (props : LiveBracketProps)
  /-- React commits what was set. -/
  | rendered
  | unmounted

namespace Kiosk

def concluded (kiosk : Kiosk) : Bool := kiosk.detail.tournament.status = .concluded

/-- What the effect would see now. -/
def seen (kiosk : Kiosk) : Seen := ⟨kiosk.target, kiosk.concluded, kiosk.gone⟩

/-- The effect, whose cleanup React keeps.  It returns early once nothing changes any more. -/
def runEffect (kiosk : Kiosk) : Kiosk :=
  if kiosk.concluded || kiosk.gone then { kiosk with committed := some kiosk.seen }
  else
    { kiosk with
      committed := some kiosk.seen
      effect := some ⟨kiosk.runs, kiosk.target, kiosk.armed⟩
      timers := kiosk.timers ++ [⟨kiosk.armed, kiosk.runs, kiosk.target⟩]
      runs := kiosk.runs + 1
      armed := kiosk.armed + 1 }

/-- The cleanup: the controller is aborted and the latest timer cleared. -/
def cleanUp (kiosk : Kiosk) : Kiosk :=
  match kiosk.effect with
  | none => kiosk
  | some running =>
      { kiosk with
        effect := none
        aborted := running.run :: kiosk.aborted
        timers := kiosk.timers.filter fun timer => timer.id ≠ running.timer }

/-- The mounted component. -/
def start (props : LiveBracketProps) (initial : TournamentDetail) : Kiosk :=
  runEffect
    { target := props.target, detail := initial, offline := false, gone := false
      committed := none, effect := none, aborted := []
      timers := [], polls := [], runs := 0, armed := 0, sent := 0 }

def withoutPoll (kiosk : Kiosk) (id : Nat) : Kiosk :=
  { kiosk with polls := kiosk.polls.filter fun poll => poll.id ≠ id }

/-- The end of a poll.  A run that was taken back sets nothing and schedules nothing. -/
def settle (kiosk : Kiosk) (poll : Poll) (fresh : Option TournamentDetail) : Kiosk :=
  let kiosk := kiosk.withoutPoll poll.id
  if poll.run ∈ kiosk.aborted then kiosk
  else
    { kiosk with
      detail := fresh.getD kiosk.detail
      offline := fresh.isNone
      timers := kiosk.timers ++ [⟨kiosk.armed, poll.run, poll.target⟩]
      -- The variable of another run is read by no cleanup any more.
      effect := kiosk.effect.map fun running =>
        if running.run = poll.run then { running with timer := kiosk.armed } else running
      armed := kiosk.armed + 1 }

def step (kiosk : Kiosk) : Event → Kiosk
  | .fired id =>
      match kiosk.timers.find? fun timer => timer.id = id with
      | none => kiosk
      | some timer =>
          { kiosk with
            timers := kiosk.timers.filter fun timer => timer.id ≠ id
            polls := kiosk.polls ++ [⟨kiosk.sent, timer.run, timer.target, .response⟩]
            sent := kiosk.sent + 1 }
  | .answered id answer =>
      match kiosk.polls.find? fun poll => poll.id = id ∧ poll.stage = .response with
      | none => kiosk
      | some poll =>
          match answer with
          -- A removed tournament is told before the controller is asked.
          | .missing => { kiosk.withoutPoll id with gone := true }
          | .failed | .refused => kiosk.settle poll none
          | .ok =>
              { kiosk with
                polls := kiosk.polls.map fun poll =>
                  if poll.id = id then { poll with stage := .body } else poll }
  | .read id body =>
      match kiosk.polls.find? fun poll => poll.id = id ∧ poll.stage = .body with
      | none => kiosk
      | some poll => kiosk.settle poll body
  | .properties props => { kiosk with target := props.target }
  | .rendered =>
      match kiosk.committed with
      | none => kiosk
      | some before => if kiosk.seen = before then kiosk else kiosk.cleanUp.runEffect
  | .unmounted => { kiosk.cleanUp with committed := none }

def run (kiosk : Kiosk) (events : List Event) : Kiosk := events.foldl step kiosk

/-- The polls that wait, but for those of a run that was taken back. -/
def live (kiosk : Kiosk) : List Poll := kiosk.polls.filter fun poll => poll.run ∉ kiosk.aborted

/-- The timers that are set and the live polls. -/
def outstanding (kiosk : Kiosk) : Nat := kiosk.timers.length + kiosk.live.length

/-- The last commit saw a concluded or removed tournament, or the component is gone. -/
def isOver (kiosk : Kiosk) : Bool := kiosk.committed.all fun seen => seen.concluded || seen.gone

/-- The poll that the event ends and the body that it draws. -/
def drawnBy (kiosk : Kiosk) : Event → Option (Nat × TournamentDetail)
  | .read id body =>
      match kiosk.polls.find? fun poll => poll.id = id ∧ poll.stage = .body with
      | none => none
      | some poll => if poll.run ∈ kiosk.aborted then none else body.map (poll.id, ·)
  | _ => none

def draws (kiosk : Kiosk) : List Event → List (Nat × TournamentDetail)
  | [] => []
  | event :: events => (kiosk.drawnBy event).toList ++ (kiosk.step event).draws events

end Kiosk

/-! ## What an event does -/

/-- The state after an event.  A timer or poll that is not there leaves everything as it was. -/
inductive Moved (kiosk : Kiosk) : Event → Kiosk → Prop
  | nothing {event : Event} (draws : kiosk.drawnBy event = none) : Moved kiosk event kiosk
  | fired {id : Nat} {timer : Timer}
      (found : kiosk.timers.find? (fun timer => timer.id = id) = some timer) :
      Moved kiosk (.fired id) { kiosk with
        timers := kiosk.timers.filter fun timer => timer.id ≠ id
        polls := kiosk.polls ++ [⟨kiosk.sent, timer.run, timer.target, .response⟩]
        sent := kiosk.sent + 1 }
  | missing {poll : Poll} (waits : poll ∈ kiosk.polls) :
      Moved kiosk (.answered poll.id .missing) { kiosk.withoutPoll poll.id with gone := true }
  | failed {id : Nat} {answer : Answer} {poll : Poll} (waits : poll ∈ kiosk.polls) :
      Moved kiosk (.answered id answer) (kiosk.settle poll none)
  | body {id : Nat} :
      Moved kiosk (.answered id .ok) { kiosk with
        polls := kiosk.polls.map fun poll =>
          if poll.id = id then { poll with stage := .body } else poll }
  | read {id : Nat} {body : Option TournamentDetail} {poll : Poll} (waits : poll ∈ kiosk.polls)
      (draws : kiosk.drawnBy (.read id body) =
        if poll.run ∈ kiosk.aborted then none else body.map (poll.id, ·)) :
      Moved kiosk (.read id body) (kiosk.settle poll body)
  | properties {props : LiveBracketProps} :
      Moved kiosk (.properties props) { kiosk with target := props.target }
  | rendered {before : Seen} (committed : kiosk.committed = some before) :
      Moved kiosk .rendered kiosk.cleanUp.runEffect
  | unmounted : Moved kiosk .unmounted { kiosk.cleanUp with committed := none }

theorem moved_step (kiosk : Kiosk) (event : Event) : Moved kiosk event (kiosk.step event) := by
  cases event with
  | fired id =>
    simp only [Kiosk.step]
    split
    · exact .nothing rfl
    · exact .fired ‹_›
  | answered id answer =>
    simp only [Kiosk.step]
    split
    · exact .nothing rfl
    · rename_i poll found
      have waits := List.mem_of_find?_eq_some found
      have named : poll.id = id ∧ poll.stage = .response :=
        of_decide_eq_true (List.find?_some found :)
      obtain ⟨rfl, -⟩ := named
      cases answer with
      | missing => exact .missing waits
      | failed => exact .failed waits
      | refused => exact .failed waits
      | ok => exact .body
  | read id body =>
    simp only [Kiosk.step]
    split
    · rename_i found
      exact .nothing (by simp only [Kiosk.drawnBy, found])
    · rename_i poll found
      exact .read (List.mem_of_find?_eq_some found) (by simp only [Kiosk.drawnBy, found])
  | properties props => exact .properties
  | rendered =>
    simp only [Kiosk.step]
    split
    · exact .nothing rfl
    · split
      · exact .nothing rfl
      · exact .rendered ‹_›
  | unmounted => exact .unmounted

/-! ## What every event keeps -/

/-- Where the kiosk is between two events. -/
inductive Phase (kiosk : Kiosk) : Prop
  | stopped (effect : kiosk.effect = none) (timers : kiosk.timers = []) (live : kiosk.live = [])
      (finished : kiosk.isOver = true)
      (why : kiosk.committed.isSome → kiosk.concluded = true ∨ kiosk.gone = true)
  | waiting (running : Running) (effect : kiosk.effect = some running)
      (timers : kiosk.timers = [⟨running.timer, running.run, running.target⟩])
      (live : kiosk.live = [])
      (finished : kiosk.isOver = false)
  | polling (running : Running) (poll : Poll) (effect : kiosk.effect = some running)
      (timers : kiosk.timers = []) (live : kiosk.live = [poll]) (own : poll.run = running.run)
      (target : poll.target = running.target) (finished : kiosk.isOver = false)
  /-- A poll told that the tournament is gone, which the effect has not seen yet. -/
  | removed (running : Running) (effect : kiosk.effect = some running) (timers : kiosk.timers = [])
      (live : kiosk.live = []) (gone : kiosk.gone = true) (finished : kiosk.isOver = false)

structure Sound (kiosk : Kiosk) : Prop where
  phase : Phase kiosk
  target : ∀ running, kiosk.effect = some running →
    kiosk.committed.map Seen.target = some running.target
  held : ∀ running, kiosk.effect = some running → running.run ∉ kiosk.aborted
  runs : ∀ running, kiosk.effect = some running → running.run < kiosk.runs
  aborted : ∀ run ∈ kiosk.aborted, run < kiosk.runs
  ids : (kiosk.polls.map Poll.id).Nodup
  sent : ∀ poll ∈ kiosk.polls, poll.id < kiosk.sent

/-- The kiosk when the effect is about to run. -/
structure Quiet (kiosk : Kiosk) : Prop where
  effect : kiosk.effect = none
  timers : kiosk.timers = []
  live : kiosk.live = []
  aborted : ∀ run ∈ kiosk.aborted, run < kiosk.runs
  ids : (kiosk.polls.map Poll.id).Nodup
  sent : ∀ poll ∈ kiosk.polls, poll.id < kiosk.sent

variable {kiosk : Kiosk}

/-- A phase is about these parts only, and survives the news that the tournament is gone. -/
theorem Phase.of_same {before after : Kiosk} (phase : Phase before)
    (effect : after.effect = before.effect) (timers : after.timers = before.timers)
    (live : after.live = before.live) (committed : after.committed = before.committed)
    (detail : after.detail = before.detail) (gone : before.gone = true → after.gone = true) :
    Phase after := by
  have same : after.isOver = before.isOver := by rw [Kiosk.isOver, Kiosk.isOver, committed]
  obtain ⟨none, empty, quiet, finished, why⟩ | ⟨running, held, one, quiet, finished⟩ |
    ⟨running, poll, held, empty, one, own, target, finished⟩ |
    ⟨running, held, empty, quiet, told, finished⟩ := phase
  · refine .stopped (effect.trans none) (timers.trans empty) (live.trans quiet)
      (same.trans finished) fun mounted => ?_
    rw [committed] at mounted
    refine (why mounted).imp (fun concluded => ?_) gone
    rw [Kiosk.concluded, detail]
    exact concluded
  · exact .waiting running (effect.trans held) (timers.trans one) (live.trans quiet)
      (same.trans finished)
  · exact .polling running poll (effect.trans held) (timers.trans empty) (live.trans one) own target
      (same.trans finished)
  · exact .removed running (effect.trans held) (timers.trans empty) (live.trans quiet) (gone told)
      (same.trans finished)

theorem Quiet.runEffect (quiet : Quiet kiosk) : Sound kiosk.runEffect := by
  rw [Kiosk.runEffect]
  split
  · rename_i why
    have finished : (some kiosk.seen).all (fun seen => seen.concluded || seen.gone) = true := why
    refine ⟨.stopped quiet.effect quiet.timers quiet.live finished fun _ => ?_, ?_, ?_, ?_,
      quiet.aborted, quiet.ids, quiet.sent⟩
    · exact (Bool.or_eq_true _ _).mp why
    · intro running held
      exact absurd (quiet.effect.symm.trans held) (by simp)
    · intro running held
      exact absurd (quiet.effect.symm.trans held) (by simp)
    · intro running held
      exact absurd (quiet.effect.symm.trans held) (by simp)
  · rename_i why
    have finished : (some kiosk.seen).all (fun seen => seen.concluded || seen.gone) = false :=
      Bool.eq_false_iff.mpr why
    refine ⟨.waiting ⟨kiosk.runs, kiosk.target, kiosk.armed⟩ rfl ?_ quiet.live finished, ?_, ?_, ?_,
      ?_, quiet.ids, quiet.sent⟩
    · simp only [quiet.timers, List.nil_append]
    · rintro running ⟨⟩
      rfl
    · rintro running ⟨⟩ member
      exact lt_irrefl _ (quiet.aborted _ member)
    · rintro running ⟨⟩
      exact Nat.lt_succ_self _
    · intro run member
      exact Nat.lt_succ_of_lt (quiet.aborted run member)

theorem Sound.cleanUp (sound : Sound kiosk) : Quiet kiosk.cleanUp := by
  -- The held run has the only timer and the only live poll.
  have taken : ∀ running, kiosk.effect = some running →
      (∀ timer ∈ kiosk.timers, timer.id = running.timer) ∧
        ∀ poll ∈ kiosk.live, poll.run = running.run := by
    intro running held
    obtain ⟨effect, -, -, -, -⟩ | ⟨_, effect, timers, live, -⟩ |
      ⟨_, poll, effect, timers, live, own, -, -⟩ | ⟨_, effect, timers, live, -, -⟩ := sound.phase
    · exact absurd (effect.symm.trans held) (by simp)
    all_goals
      obtain rfl := Option.some.inj (effect.symm.trans held)
      simp [timers, live]
    exact own
  cases held : kiosk.effect with
  | none =>
    have same : kiosk.cleanUp = kiosk := by rw [Kiosk.cleanUp, held]
    rw [same]
    obtain ⟨-, timers, live, -, -⟩ | ⟨_, effect, -⟩ | ⟨_, _, effect, -⟩ | ⟨_, effect, -⟩ :=
      sound.phase
    · exact ⟨held, timers, live, sound.aborted, sound.ids, sound.sent⟩
    all_goals exact absurd (held.symm.trans effect) (by simp)
  | some running =>
    obtain ⟨timers, polls⟩ := taken running held
    rw [Kiosk.cleanUp, held]
    refine ⟨rfl, ?_, ?_, ?_, sound.ids, sound.sent⟩
    · refine List.filter_eq_nil_iff.mpr fun timer member => ?_
      simp [timers timer member]
    · refine List.filter_eq_nil_iff.mpr fun poll member => ?_
      intro fresh
      have fresh := of_decide_eq_true fresh
      rw [List.mem_cons, not_or] at fresh
      exact fresh.1 (polls poll (List.mem_filter.mpr ⟨member, decide_eq_true fresh.2⟩))
    · intro run member
      rcases List.mem_cons.mp member with rfl | member
      · exact sound.runs running held
      · exact sound.aborted run member

theorem sound_start (props : LiveBracketProps) (initial : TournamentDetail) :
    Sound (Kiosk.start props initial) := by
  refine Quiet.runEffect ⟨rfl, rfl, rfl, ?_, List.nodup_nil, ?_⟩ <;> simp

theorem Sound.fired (sound : Sound kiosk) {id : Nat} {timer : Timer}
    (found : kiosk.timers.find? (fun timer => timer.id = id) = some timer) :
    Sound { kiosk with
      timers := kiosk.timers.filter fun timer => timer.id ≠ id
      polls := kiosk.polls ++ [⟨kiosk.sent, timer.run, timer.target, .response⟩]
      sent := kiosk.sent + 1 } := by
  have member := List.mem_of_find?_eq_some found
  have named : timer.id = id := by simpa using List.find?_some found
  obtain ⟨-, timers, -⟩ | ⟨running, effect, timers, live, finished⟩ | ⟨_, _, -, timers, -⟩ |
    ⟨_, -, timers, -⟩ := sound.phase
  case waiting =>
    obtain rfl := List.mem_singleton.mp (timers ▸ member)
    have fresh : running.run ∉ kiosk.aborted := sound.held running effect
    refine ⟨.polling running ⟨kiosk.sent, running.run, running.target, .response⟩ effect ?_ ?_ rfl
      rfl finished, sound.target, sound.held, sound.runs, sound.aborted, ?_, ?_⟩
    · have same : running.timer = id := named
      simp [timers, same]
    · change (kiosk.polls ++ _).filter _ = _
      rw [List.filter_append, show kiosk.polls.filter _ = [] from live]
      simp [fresh]
    · rw [List.map_append, List.nodup_append]
      refine ⟨sound.ids, List.nodup_singleton _, ?_⟩
      rintro id earlier next last rfl
      obtain ⟨poll, waits, rfl⟩ := List.mem_map.mp earlier
      exact (sound.sent poll waits).ne (List.mem_singleton.mp last)
    · intro poll waits
      rcases List.mem_append.mp waits with waits | waits
      · exact Nat.lt_succ_of_lt (sound.sent poll waits)
      · obtain rfl := List.mem_singleton.mp waits
        exact Nat.lt_succ_self _
  all_goals exact absurd (timers ▸ member) List.not_mem_nil

theorem live_withoutPoll (kiosk : Kiosk) (id : Nat) :
    (kiosk.withoutPoll id).live = kiosk.live.filter fun poll => poll.id ≠ id := by
  change (kiosk.polls.filter _).filter _ = (kiosk.polls.filter _).filter _
  rw [List.filter_filter, List.filter_filter]
  exact List.filter_congr fun poll _ => Bool.and_comm _ _

theorem Sound.eq_of_id (sound : Sound kiosk) {poll other : Poll} (waits : poll ∈ kiosk.polls)
    (also : other ∈ kiosk.polls) (same : poll.id = other.id) : poll = other :=
  List.inj_on_of_nodup_map sound.ids waits also same

theorem Sound.ids_withoutPoll (sound : Sound kiosk) (id : Nat) :
    ((kiosk.withoutPoll id).polls.map Poll.id).Nodup :=
  sound.ids.sublist (List.filter_sublist.map Poll.id)

/-- The end of a poll that was taken back. -/
theorem Sound.withoutPoll (sound : Sound kiosk) {poll : Poll} (waits : poll ∈ kiosk.polls)
    (dead : poll.run ∈ kiosk.aborted) : Sound (kiosk.withoutPoll poll.id) := by
  have kept : (kiosk.withoutPoll poll.id).live = kiosk.live := by
    rw [live_withoutPoll]
    refine List.filter_eq_self.mpr fun other member => decide_eq_true ?_
    intro same
    obtain ⟨also, fresh⟩ := List.mem_filter.mp member
    obtain rfl := sound.eq_of_id also waits same
    exact of_decide_eq_true fresh dead
  have phase : Phase (kiosk.withoutPoll poll.id) :=
    sound.phase.of_same rfl rfl kept rfl rfl id
  exact ⟨phase, sound.target, sound.held, sound.runs, sound.aborted, sound.ids_withoutPoll poll.id,
    fun other member => sound.sent other (List.mem_of_mem_filter member)⟩

/-- Only a kiosk that polls has a live poll, and that is the only one. -/
theorem Sound.polling_of_live (sound : Sound kiosk) {poll : Poll} (waits : poll ∈ kiosk.polls)
    (fresh : poll.run ∉ kiosk.aborted) :
    ∃ running, kiosk.effect = some running ∧ kiosk.timers = [] ∧ kiosk.live = [poll] ∧
      poll.run = running.run ∧ poll.target = running.target ∧ kiosk.isOver = false := by
  have member : poll ∈ kiosk.live := List.mem_filter.mpr ⟨waits, decide_eq_true fresh⟩
  obtain ⟨-, -, live, -⟩ | ⟨_, -, -, live, -⟩ |
    ⟨running, other, effect, timers, live, own, target, finished⟩ | ⟨_, -, -, live, -⟩ :=
    sound.phase
  case polling =>
    obtain rfl := List.mem_singleton.mp (live ▸ member)
    exact ⟨running, effect, timers, live, own, target, finished⟩
  all_goals exact absurd (live ▸ member) List.not_mem_nil

theorem Sound.settle (sound : Sound kiosk) {poll : Poll} (waits : poll ∈ kiosk.polls)
    (fresh : Option TournamentDetail) : Sound (kiosk.settle poll fresh) := by
  rw [Kiosk.settle]
  split
  · exact sound.withoutPoll waits ‹_›
  · rename_i alive
    obtain ⟨running, effect, timers, live, own, target, finished⟩ :=
      sound.polling_of_live waits alive
    have here : (kiosk.withoutPoll poll.id).effect = some running := effect
    have quiet : (kiosk.withoutPoll poll.id).live = [] := by
      rw [live_withoutPoll, live]
      simp
    refine ⟨.waiting ⟨running.run, running.target, kiosk.armed⟩ ?_ ?_ quiet finished, ?_, ?_, ?_,
      sound.aborted, sound.ids_withoutPoll poll.id, ?_⟩
    · simp only [here, Option.map_some, own, if_true]
      rfl
    · simp [Kiosk.withoutPoll, timers, own, target]
    · intro other held
      simp only [here, Option.map_some, own, if_true] at held
      obtain rfl := Option.some.inj held
      exact sound.target running effect
    · intro other held
      simp only [here, Option.map_some, own, if_true] at held
      obtain rfl := Option.some.inj held
      exact sound.held running effect
    · intro other held
      simp only [here, Option.map_some, own, if_true] at held
      obtain rfl := Option.some.inj held
      exact sound.runs running effect
    · exact fun other member => sound.sent other (List.mem_of_mem_filter member)

/-- The tournament is gone: the poll schedules none. -/
theorem Sound.missing (sound : Sound kiosk) {poll : Poll} (waits : poll ∈ kiosk.polls) :
    Sound { kiosk.withoutPoll poll.id with gone := true } := by
  by_cases dead : poll.run ∈ kiosk.aborted
  · have kept := sound.withoutPoll waits dead
    have phase : Phase { kiosk.withoutPoll poll.id with gone := true } :=
      kept.phase.of_same rfl rfl rfl rfl rfl fun _ => rfl
    exact ⟨phase, kept.target, kept.held, kept.runs, kept.aborted, kept.ids, kept.sent⟩
  · obtain ⟨running, effect, timers, live, -, -, finished⟩ := sound.polling_of_live waits dead
    refine ⟨.removed running effect timers ?_ rfl finished, sound.target, sound.held, sound.runs,
      sound.aborted, sound.ids_withoutPoll poll.id,
      fun other member => sound.sent other (List.mem_of_mem_filter member)⟩
    refine (live_withoutPoll kiosk poll.id).trans ?_
    rw [live]
    simp

/-- The response came, and its body is waited for. -/
theorem Sound.body (sound : Sound kiosk) (id : Nat) :
    Sound { kiosk with
      polls := kiosk.polls.map fun poll =>
        if poll.id = id then { poll with stage := .body } else poll } := by
  let next : Poll → Poll := fun poll => if poll.id = id then { poll with stage := .body } else poll
  have nextId (poll : Poll) : (next poll).id = poll.id := by
    by_cases this : poll.id = id <;> simp [next, this]
  have nextTarget (poll : Poll) : (next poll).target = poll.target := by
    by_cases this : poll.id = id <;> simp [next, this]
  have nextRun (poll : Poll) : (next poll).run = poll.run := by
    by_cases this : poll.id = id <;> simp [next, this]
  let later : Kiosk := { kiosk with polls := kiosk.polls.map next }
  have moved : later.live = kiosk.live.map next := by
    change (kiosk.polls.map next).filter _ = (kiosk.polls.filter _).map next
    rw [List.filter_map]
    refine congrArg _ (List.filter_congr fun poll _ => ?_)
    rw [Function.comp_apply, nextRun]
  have phase : Phase later := by
    obtain ⟨effect, timers, live, finished, why⟩ | ⟨running, effect, timers, live, finished⟩ |
      ⟨running, other, effect, timers, live, own, target, finished⟩ |
      ⟨running, effect, timers, live, gone, finished⟩ := sound.phase
    · exact .stopped effect timers (by rw [moved, live, List.map_nil]) finished why
    · exact .waiting running effect timers (by rw [moved, live, List.map_nil]) finished
    · refine .polling running (next other) effect timers ?_ ((nextRun other).trans own)
        ((nextTarget other).trans target) finished
      rw [moved, live, List.map_singleton]
    · exact .removed running effect timers (by rw [moved, live, List.map_nil]) gone finished
  refine ⟨phase, sound.target, sound.held, sound.runs, sound.aborted, ?_, ?_⟩
  · change ((kiosk.polls.map next).map Poll.id).Nodup
    rw [List.map_map, show Poll.id ∘ next = Poll.id from funext nextId]
    exact sound.ids
  · intro poll member
    obtain ⟨before, waits, rfl⟩ := List.mem_map.mp member
    exact (nextId before).trans_lt (sound.sent before waits)

theorem Sound.unmounted (sound : Sound kiosk) :
    Sound { kiosk.cleanUp with committed := none } := by
  have quiet := sound.cleanUp
  have nothing (running : Running) (held : kiosk.cleanUp.effect = some running) : False := by
    rw [quiet.effect] at held
    cases held
  exact ⟨.stopped quiet.effect quiet.timers quiet.live rfl (nomatch ·),
    fun running held => (nothing running held).elim,
    fun running held => (nothing running held).elim,
    fun running held => (nothing running held).elim, quiet.aborted, quiet.ids, quiet.sent⟩

/-- Until it is committed, a change of the properties reaches nothing. -/
theorem Sound.properties (sound : Sound kiosk) (target : Target) :
    Sound { kiosk with target } := by
  have phase : Phase { kiosk with target } := sound.phase.of_same rfl rfl rfl rfl rfl id
  exact ⟨phase, sound.target, sound.held, sound.runs, sound.aborted, sound.ids, sound.sent⟩

theorem Sound.moved {event : Event} {after : Kiosk} (sound : Sound kiosk)
    (moved : Moved kiosk event after) : Sound after := by
  cases moved with
  | nothing => exact sound
  | fired found => exact sound.fired found
  | missing waits => exact sound.missing waits
  | failed waits => exact sound.settle waits none
  | body => exact sound.body _
  | read waits => exact sound.settle waits _
  | properties => exact sound.properties _
  | rendered => exact sound.cleanUp.runEffect
  | unmounted => exact sound.unmounted

theorem Sound.step (sound : Sound kiosk) (event : Event) : Sound (kiosk.step event) :=
  sound.moved (moved_step kiosk event)

theorem Sound.run (sound : Sound kiosk) (events : List Event) : Sound (kiosk.run events) := by
  induction events generalizing kiosk with
  | nil => exact sound
  | cons event events ih => exact ih (sound.step event)

theorem Sound.outstanding_le (sound : Sound kiosk) : kiosk.outstanding ≤ 1 := by
  obtain ⟨-, timers, live, -⟩ | ⟨_, -, timers, live, -⟩ | ⟨_, _, -, timers, live, -⟩ |
    ⟨_, -, timers, live, -⟩ := sound.phase
  all_goals simp [Kiosk.outstanding, timers, live]

theorem Sound.outstanding_eq_one (sound : Sound kiosk) (finished : kiosk.isOver = false)
    (gone : kiosk.gone = false) : kiosk.outstanding = 1 := by
  obtain ⟨-, -, -, stopped, -⟩ | ⟨_, -, timers, live, -⟩ | ⟨_, _, -, timers, live, -⟩ |
    ⟨_, -, -, -, removed, -⟩ := sound.phase
  · exact absurd (stopped.symm.trans finished) (by decide)
  · simp [Kiosk.outstanding, timers, live]
  · simp [Kiosk.outstanding, timers, live]
  · exact absurd (removed.symm.trans gone) (by decide)

/-- What is under way asks the source that the last commit saw, after the interval it saw. -/
theorem Sound.asks (sound : Sound kiosk) {seen : Seen} (committed : kiosk.committed = some seen) :
    (∀ timer ∈ kiosk.timers, timer.target = seen.target) ∧
      ∀ poll ∈ kiosk.live, poll.target = seen.target := by
  have same (running : Running) (effect : kiosk.effect = some running) :
      running.target = seen.target := by
    have known := sound.target running effect
    rw [committed] at known
    exact (Option.some.inj known).symm
  obtain ⟨-, timers, live, -, -⟩ | ⟨running, effect, timers, live, -⟩ |
    ⟨running, poll, effect, timers, live, -, target, -⟩ | ⟨_, -, timers, live, -, -⟩ := sound.phase
  · simp [timers, live]
  · simp [timers, live, same running effect]
  · simp [timers, live, target, same running effect]
  · simp [timers, live]

/-! ## What is drawn -/

theorem detail_runEffect (kiosk : Kiosk) : kiosk.runEffect.detail = kiosk.detail := by
  rw [Kiosk.runEffect]
  split <;> rfl

theorem detail_cleanUp (kiosk : Kiosk) : kiosk.cleanUp.detail = kiosk.detail := by
  rw [Kiosk.cleanUp]
  split <;> rfl

/-- A poll of a run that was taken back ends in nothing. -/
theorem settle_dead {poll : Poll} (dead : poll.run ∈ kiosk.aborted)
    (fresh : Option TournamentDetail) : kiosk.settle poll fresh = kiosk.withoutPoll poll.id :=
  if_pos dead

theorem detail_settle (kiosk : Kiosk) (poll : Poll) (fresh : Option TournamentDetail) :
    (kiosk.settle poll fresh).detail =
      if poll.run ∈ kiosk.aborted then kiosk.detail else fresh.getD kiosk.detail := by
  by_cases dead : poll.run ∈ kiosk.aborted
  · rw [settle_dead dead, if_pos dead]
    rfl
  · rw [if_neg dead]
    exact congrArg Kiosk.detail (if_neg dead)

theorem Moved.detail {event : Event} {after : Kiosk} (moved : Moved kiosk event after) :
    after.detail = ((kiosk.drawnBy event).map Prod.snd).getD kiosk.detail := by
  cases moved with
  | nothing draws => rw [draws, Option.map_none, Option.getD_none]
  | failed waits => exact (detail_settle kiosk _ none).trans (ite_self _)
  | @read id body poll waits draws =>
    rw [draws, detail_settle]
    by_cases dead : poll.run ∈ kiosk.aborted
    · rw [if_pos dead, if_pos dead]
      rfl
    · rw [if_neg dead, if_neg dead]
      cases body <;> rfl
  | rendered => exact (detail_runEffect _).trans (detail_cleanUp kiosk)
  | unmounted => exact detail_cleanUp kiosk
  | _ => rfl

/-- The screen shows the last body that was drawn. -/
theorem detail_run (kiosk : Kiosk) (events : List Event) :
    (kiosk.run events).detail =
      ((kiosk.draws events).map Prod.snd).getLastD kiosk.detail := by
  induction events generalizing kiosk with
  | nil => rfl
  | cons event events ih =>
    refine (ih (kiosk.step event)).trans ?_
    rw [(moved_step kiosk event).detail, Kiosk.draws]
    cases kiosk.drawnBy event with
    | none => rfl
    | some drawn => exact List.getLastD_cons.symm

/-! ## In which order it is drawn -/

theorem mem_live {poll : Poll} :
    poll ∈ kiosk.live ↔ poll ∈ kiosk.polls ∧ poll.run ∉ kiosk.aborted := by
  rw [Kiosk.live, List.mem_filter, decide_eq_true_iff]

theorem live_subset {before after : Kiosk} (polls : after.polls ⊆ before.polls)
    (aborted : before.aborted ⊆ after.aborted) : after.live ⊆ before.live := by
  intro poll member
  obtain ⟨waits, fresh⟩ := mem_live.mp member
  exact mem_live.mpr ⟨polls waits, fun dead => fresh (aborted dead)⟩

theorem live_cleanUp_subset (kiosk : Kiosk) : kiosk.cleanUp.live ⊆ kiosk.live := by
  rw [Kiosk.cleanUp]
  split
  · exact List.Subset.refl _
  · exact live_subset (List.Subset.refl _) (List.subset_cons_self _ _)

theorem live_runEffect (kiosk : Kiosk) : kiosk.runEffect.live = kiosk.live := by
  rw [Kiosk.runEffect]
  split <;> rfl

theorem live_withoutPoll_subset (kiosk : Kiosk) (id : Nat) :
    (kiosk.withoutPoll id).live ⊆ kiosk.live :=
  live_subset (List.filter_subset_self _) (List.Subset.refl _)

theorem live_settle (kiosk : Kiosk) (poll : Poll) (fresh : Option TournamentDetail) :
    (kiosk.settle poll fresh).live = (kiosk.withoutPoll poll.id).live := by
  rw [Kiosk.settle]
  split <;> rfl

theorem live_settle_subset (kiosk : Kiosk) (poll : Poll) (fresh : Option TournamentDetail) :
    (kiosk.settle poll fresh).live ⊆ kiosk.live := by
  rw [live_settle]
  exact live_withoutPoll_subset kiosk poll.id

/-- A live poll was live before, but for its stage, or is newly sent. -/
theorem Moved.id_of_live {event : Event} {after : Kiosk} {poll : Poll}
    (moved : Moved kiosk event after) (live : poll ∈ after.live) :
    poll.id ∈ kiosk.live.map Poll.id ∨ kiosk.sent ≤ poll.id := by
  have same (member : poll ∈ kiosk.live) :
      poll.id ∈ kiosk.live.map Poll.id ∨ kiosk.sent ≤ poll.id :=
    .inl (List.mem_map_of_mem member)
  cases moved with
  | fired found =>
    obtain ⟨waits, fresh⟩ := mem_live.mp live
    rcases List.mem_append.mp waits with waits | waits
    · exact same (mem_live.mpr ⟨waits, fresh⟩)
    · obtain rfl := List.mem_singleton.mp waits
      exact .inr le_rfl
  | missing waits => exact same (live_withoutPoll_subset kiosk _ live)
  | failed waits => exact same (live_settle_subset kiosk _ none live)
  | @body id =>
    obtain ⟨waits, fresh⟩ := mem_live.mp live
    obtain ⟨earlier, waited, rfl⟩ := List.mem_map.mp waits
    by_cases this : earlier.id = id
    · rw [if_pos this] at fresh ⊢
      exact .inl (List.mem_map.mpr ⟨earlier, mem_live.mpr ⟨waited, fresh⟩, rfl⟩)
    · rw [if_neg this] at fresh ⊢
      exact .inl (List.mem_map.mpr ⟨earlier, mem_live.mpr ⟨waited, fresh⟩, rfl⟩)
  | read waits => exact same (live_settle_subset kiosk _ _ live)
  | rendered => exact same (live_cleanUp_subset kiosk (live_runEffect _ ▸ live))
  | unmounted => exact same (live_cleanUp_subset kiosk live)
  | _ => exact same live

theorem sent_runEffect (kiosk : Kiosk) : kiosk.runEffect.sent = kiosk.sent := by
  rw [Kiosk.runEffect]
  split <;> rfl

theorem sent_cleanUp (kiosk : Kiosk) : kiosk.cleanUp.sent = kiosk.sent := by
  rw [Kiosk.cleanUp]
  split <;> rfl

theorem sent_settle (kiosk : Kiosk) (poll : Poll) (fresh : Option TournamentDetail) :
    (kiosk.settle poll fresh).sent = kiosk.sent := by
  rw [Kiosk.settle]
  split <;> rfl

theorem Moved.sent_le {event : Event} {after : Kiosk} (moved : Moved kiosk event after) :
    kiosk.sent ≤ after.sent := by
  cases moved with
  | fired => exact Nat.le_succ _
  | failed waits => exact (sent_settle kiosk _ none).ge
  | read waits => exact (sent_settle kiosk _ _).ge
  | rendered => exact ((sent_runEffect _).trans (sent_cleanUp kiosk)).ge
  | unmounted => exact (sent_cleanUp kiosk).ge
  | _ => exact le_rfl

/-- What is drawn comes from the only live poll, and leaves none. -/
theorem Sound.of_drawnBy (sound : Sound kiosk) {event : Event} {after : Kiosk}
    (moved : Moved kiosk event after) {drawn : Nat × TournamentDetail}
    (draws : kiosk.drawnBy event = some drawn) :
    drawn.1 ∈ kiosk.live.map Poll.id ∧ drawn.1 < kiosk.sent ∧ after.live = [] := by
  cases moved with
  | nothing none => cases none.symm.trans draws
  | @read id body poll waits reads =>
    rw [reads] at draws
    split at draws
    · cases draws
    · rename_i fresh
      obtain ⟨shown, -, rfl⟩ := Option.map_eq_some_iff.mp draws
      obtain ⟨_, -, -, live, -⟩ := sound.polling_of_live waits fresh
      refine ⟨List.mem_map_of_mem (mem_live.mpr ⟨waits, fresh⟩), sound.sent poll waits, ?_⟩
      rw [live_settle, live_withoutPoll, live]
      simp
  | _ => cases draws

theorem Sound.id_of_draws (sound : Sound kiosk) {events : List Event}
    {drawn : Nat × TournamentDetail} (member : drawn ∈ kiosk.draws events) :
    drawn.1 ∈ kiosk.live.map Poll.id ∨ kiosk.sent ≤ drawn.1 := by
  induction events generalizing kiosk with
  | nil => cases member
  | cons event events ih =>
    rcases List.mem_append.mp member with now | later
    · exact .inl (sound.of_drawnBy (moved_step kiosk event) (Option.mem_toList.mp now)).1
    · obtain live | sent := ih (sound.step event) later
      · obtain ⟨poll, live, named⟩ := List.mem_map.mp live
        exact named ▸ (moved_step kiosk event).id_of_live live
      · exact .inr ((moved_step kiosk event).sent_le.trans sent)

/-- An older answer is never drawn over a newer one. -/
theorem Sound.draws_pairwise (sound : Sound kiosk) (events : List Event) :
    (kiosk.draws events).Pairwise fun earlier later => earlier.1 < later.1 := by
  induction events generalizing kiosk with
  | nil => exact .nil
  | cons event events ih =>
    rw [Kiosk.draws, List.pairwise_append]
    refine ⟨?_, ih (sound.step event), ?_⟩
    · cases kiosk.drawnBy event with
      | none => exact .nil
      | some drawn => exact List.pairwise_singleton _ _
    · intro drawn now next later
      obtain ⟨-, bound, ended⟩ :=
        sound.of_drawnBy (moved_step kiosk event) (Option.mem_toList.mp now)
      obtain live | sent := (sound.step event).id_of_draws later
      · rw [ended] at live
        cases live
      · exact bound.trans_le ((moved_step kiosk event).sent_le.trans sent)

/-! ## Once nothing changes any more -/

theorem Sound.stopped (sound : Sound kiosk) (finished : kiosk.isOver = true) :
    kiosk.effect = none ∧ kiosk.timers = [] ∧ kiosk.live = [] ∧
      (kiosk.committed.isSome → kiosk.concluded = true ∨ kiosk.gone = true) := by
  obtain ⟨effect, timers, live, -, why⟩ | ⟨_, -, -, -, going⟩ | ⟨_, _, -, -, -, -, -, going⟩ |
    ⟨_, -, -, -, -, going⟩ := sound.phase
  · exact ⟨effect, timers, live, why⟩
  all_goals exact absurd (finished.symm.trans going) (by decide)

/-- No poll is sent, the detail stays, and it stays over. -/
def Still (before after : Kiosk) : Prop :=
  after.isOver = true ∧ after.sent = before.sent ∧ after.detail = before.detail

theorem Sound.still_moved {event : Event} {after : Kiosk} (sound : Sound kiosk)
    (finished : kiosk.isOver = true) (moved : Moved kiosk event after) : Still kiosk after := by
  obtain ⟨effect, timers, live, why⟩ := sound.stopped finished
  have same : kiosk.cleanUp = kiosk := by rw [Kiosk.cleanUp, effect]
  have settled (poll : Poll) (waits : poll ∈ kiosk.polls) (fresh : Option TournamentDetail) :
      Still kiosk (kiosk.settle poll fresh) := by
    have dead : poll.run ∈ kiosk.aborted := by
      by_contra fresh
      exact List.filter_eq_nil_iff.mp live poll waits (decide_eq_true fresh)
    rw [settle_dead dead]
    exact ⟨finished, rfl, rfl⟩
  cases moved with
  | fired found =>
    rw [timers] at found
    cases found
  | failed waits => exact settled _ waits none
  | read waits => exact settled _ waits _
  | rendered committed =>
    -- What stopped the effect stops it again.
    have again : kiosk.concluded = true ∨ kiosk.gone = true := why (by rw [committed]; rfl)
    have ran : kiosk.runEffect = { kiosk with committed := some kiosk.seen } :=
      if_pos ((Bool.or_eq_true _ _).mpr again)
    rw [same, ran]
    exact ⟨(Bool.or_eq_true _ _).mpr again, rfl, rfl⟩
  | unmounted =>
    rw [same]
    exact ⟨rfl, rfl, rfl⟩
  | _ => exact ⟨finished, rfl, rfl⟩

theorem Sound.still_run (sound : Sound kiosk) (finished : kiosk.isOver = true)
    (events : List Event) : Still kiosk (kiosk.run events) := by
  induction events generalizing kiosk with
  | nil => exact ⟨finished, rfl, rfl⟩
  | cons event events ih =>
    obtain ⟨stays, sent, detail⟩ := sound.still_moved finished (moved_step kiosk event)
    obtain ⟨end_over, end_sent, end_detail⟩ := ih (sound.step event) stays
    exact ⟨end_over, end_sent.trans sent, end_detail.trans detail⟩

/-- At most one timer or poll is under way, for the properties of the last commit, and exactly one
until a poll is told that the tournament is gone or a commit sees it concluded.  Once a commit saw
either, no poll is sent and the screen stays.  It shows the last body that was drawn, and never
draws an older poll's after a newer one's. -/
theorem polls_in_turn (props : LiveBracketProps) (initial : TournamentDetail)
    (events more : List Event) :
    let kiosk := (Kiosk.start props initial).run events
    let draws := (Kiosk.start props initial).draws events
    kiosk.outstanding ≤ 1 ∧
    (∀ seen, kiosk.committed = some seen →
      (∀ timer ∈ kiosk.timers, timer.target = seen.target) ∧
        ∀ poll ∈ kiosk.live, poll.target = seen.target) ∧
    (kiosk.isOver = false → kiosk.gone = false → kiosk.outstanding = 1) ∧
    (kiosk.isOver = true → Still kiosk (kiosk.run more)) ∧
    kiosk.detail = (draws.map Prod.snd).getLastD initial ∧
    draws.Pairwise fun earlier later => earlier.1 < later.1 := by
  intro kiosk draws
  have started := sound_start props initial
  have sound : Sound kiosk := started.run events
  have first : (Kiosk.start props initial).detail = initial := detail_runEffect _
  refine ⟨sound.outstanding_le, fun _ => sound.asks, sound.outstanding_eq_one,
    fun finished => sound.still_run finished more, ?_, started.draws_pairwise events⟩
  rw [← first]
  exact detail_run (Kiosk.start props initial) events

/-- The same tournament in every status. -/
def finale (status : TournamentStatus) : TournamentDetail where
  tournament := {
    id := ⟨70⟩
    name := ⟨['f', 'i', 'n', 'a', 'l', 'e'], rfl, Nat.le_add_left 1 5, Nat.le_add_right 6 54⟩
    game := ⟨['g', 'o'], rfl, Nat.le_add_left 1 1, Nat.le_add_right 2 38⟩
    mode := ⟨['s', 'o', 'l', 'o'], rfl, Nat.le_add_left 1 3, Nat.le_add_right 4 26⟩
    description := .empty
    date := ⟨2031, 7, 13, by decide, by decide, Nat.le_add_left 1 6, Nat.le_add_right 7 5,
      Nat.le_add_left 1 12, by decide⟩
    registrationClosesAt := 9
    status
    entrantCount := 0
    hasBracket := false
    winner := none
    createdAt := 1 }
  entrants := []
  bracket := none

/-- The source changes while a poll waits.  The answer of the old source is not drawn, the next
poll draws the conclusion, and the kiosk stops. -/
example :
    let events : List Event := [.fired 0, .answered 0 .ok, .properties ⟨['b'], none⟩, .rendered,
      .read 0 (some (finale .draft)), .fired 1, .answered 1 .ok, .read 1 (some (finale .concluded)),
      .rendered]
    let start := Kiosk.start ⟨['a'], none⟩ (finale .live)
    start.draws events = [(1, finale .concluded)] ∧ (start.run events).isOver ∧
      (start.run events).outstanding = 0 := by decide

end LiveBracket
end LanBunker
