import LanBunker.Services.Service

/-!
# The tournament service

Who may enter, when the status moves, and what a bracket accepts.  A rule reads the tournament,
then writes with the state it read as a guard.
-/

namespace LanBunker

open Service

/-! ## Rules -/

def seedingLevel (entrant : Entrant) : Nat :=
  (entrant.skill.map SkillLevel.value).getD SkillLevel.unrated

def requireRegistrationOpen (tournament : Tournament) (now : Instant) :
    Except ServiceError Unit :=
  if tournament.status = .opened ∧ now < tournament.registrationClosesAt then .ok ()
  else .error .registrationClosed

def requireNotConcluded (tournament : Tournament) : Except ServiceError Unit :=
  if tournament.status = .concluded then .error .tournamentConcluded else .ok ()

/-- A bracket fixes the field, and a concluded tournament is final. -/
def requireEntrantsEditable (tournament : Tournament) : Except ServiceError Unit := do
  requireNotConcluded tournament
  if tournament.hasBracket then .error .bracketExists else .ok ()

def refuseWinner (change : StatusChange) : Except ServiceError Unit :=
  if change.winner.isSome then .error .unexpectedWinner else .ok ()

def bracketWritten : BracketWrite → Except ServiceError Unit
  | .done => .ok ()
  | .locked => .error .bracketLocked
  | .changed => .error .tournamentChanged

/-- `None` when no match exists. -/
def bracketOf (rows : List Match) : Except ServiceError (Option Bracket) :=
  if rows.isEmpty then .ok none
  else
    match Bracket.fromMatches rows with
    | .ok bracket => .ok (some bracket)
    | .error error => .error (.ofBracket error)

/-- With a bracket the final names the winner.  Without one the admin names the winner among the
entrants, or nobody. -/
def concluded (id : TournamentId) (entrants : List Entrant) (bracket : Option Bracket)
    (named : Option EntrantId) : Except ServiceError (Option EntrantId × List Award) :=
  match bracket with
  | some bracket =>
      if named.isSome then .error .unexpectedWinner
      else
        match bracket.champion with
        | none => .error .bracketIncomplete
        | some champion => .ok (some champion, tournamentAwards id entrants (some bracket) none)
  | none =>
      match named with
      | none => .ok (none, tournamentAwards id entrants none none)
      | some winner =>
          if entrants.any fun e => e.id = winner then
            .ok (some winner, tournamentAwards id entrants none (some winner))
          else .error (.notAnEntrant winner)

/-- The matches a result changed, each with the value it held in `read`. -/
def changePairs (read : Bracket) (changed : List Match) : List (Match × Match) :=
  changed.filterMap fun after =>
    (read.flat.find? fun m => m.id = after.id).map fun before => (before, after)

/-- Strongest first.  The sort is stable, so the shuffled order stays inside one level. -/
def seedOrder (shuffled : List Entrant) : List EntrantId :=
  (shuffled.insertionSort fun left right => seedingLevel right ≤ seedingLevel left).map Entrant.id

/-- The same entrants, each as often. -/
def sameEntrants (expected given : List EntrantId) : Bool :=
  expected.insertionSort (· ≤ ·) = given.insertionSort (· ≤ ·)

namespace TournamentService

/-! ## Reading -/

def load (id : TournamentId) : Service Tournament := do
  let found ← store (.tournaments (.get id))
  okOr found (.tournamentNotFound id)

def loadPublic (id : TournamentId) : Service Tournament := do
  let tournament ← load id
  if tournament.status = .draft then fail (.tournamentNotFound id) else pure tournament

def bracket (id : TournamentId) : Service (Option Bracket) := do
  let rows ← store (.tournaments (.matchesOf id))
  ofExcept (bracketOf rows)

/-- A draft is not found for anyone but an admin. -/
def detail (id : TournamentId) (visibility : Visibility) : Service TournamentDetail := do
  let tournament ← load id
  if tournament.status = .draft ∧ visibility = .everyone then fail (.tournamentNotFound id)
  else do
    let entrants ← store (.tournaments (.entrants id))
    let bracket ← bracket id
    pure { tournament, entrants, bracket }

/-! ## The tournament itself -/

def create (new : NewTournament) : Service Tournament := do
  let draw ← ask (.draw .tournament)
  let now ← ask .now
  let id := draw 0
  store <| .tournaments <| .create
    { id, name := new.name, game := new.game, mode := new.mode, description := new.description
      date := new.date, registrationClosesAt := new.registrationClosesAt, createdAt := now }
  load id

/-- The error for a guarded write that found the tournament changed. -/
def stale {α : Type} (id : TournamentId) : Service α := do
  let fresh ← load id
  fail (if fresh.status = .concluded then .tournamentConcluded else .tournamentChanged)

/-- Any field, in any status but `concluded`. -/
def update (id : TournamentId) (fields : TournamentUpdate) : Service Tournament := do
  let tournament ← load id
  ofExcept (requireNotConcluded tournament)
  let written ← store (.tournaments (.update id tournament.status fields))
  if written then load id else stale id

/-- Entrants and matches go with the tournament. -/
def delete (id : TournamentId) : Service Unit := do
  let _ ← store (.tournaments (.delete id))
  pure ()

/-- The winner and the awards of a conclusion, from the entrants and then the matches. -/
def conclusion (id : TournamentId) (named : Option EntrantId) :
    Service (Option EntrantId × List Award) := do
  let entrants ← store (.tournaments (.entrants id))
  let bracket ← bracket id
  ofExcept (concluded id entrants bracket named)

/-- The winner and the awards of a move, before anything is written. -/
def planTransition (tournament : Tournament) (change : StatusChange) :
    Service (Option EntrantId × List Award) :=
  match tournament.status, change.status with
  | .draft, .opened | .draft, .live | .opened, .live => do
      ofExcept (refuseWinner change)
      pure (none, [])
  | .live, .opened =>
      if tournament.hasBracket then fail (.invalidTransition .live .opened)
      else do
        ofExcept (refuseWinner change)
        pure (none, [])
  | .draft, .concluded | .opened, .concluded | .live, .concluded =>
      conclusion tournament.id change.winner
  | source, target => fail (.invalidTransition source target)

/-- The answer to a status write that found the tournament moved. -/
def statusMoved (id : TournamentId) (change : StatusChange) : Service Tournament := do
  let fresh ← load id
  if fresh.status = change.status ∧ change.winner.isNone then pure fresh
  else fail .tournamentChanged

/-- The state machine.  The conclusion pays the cycles of the tournament, in the same write as the
status. -/
def changeStatus (id : TournamentId) (change : StatusChange) : Service Tournament := do
  let tournament ← load id
  if tournament.status = change.status ∧ change.winner.isNone then pure tournament
  else do
    let (winner, awards) ← planTransition tournament change
    let now ← ask .now
    let draw ← ask (.draw .pointEntry)
    let written ← attempt <| .tournaments <|
      .setStatus id tournament.status change.status winner awards now draw
    match written with
    | .ok true => load id
    -- An entrant or a player that left since the read breaks a foreign key.
    | .ok false | .error .foreignKeyViolation => statusMoved id change
    | .error error => fail (.ofStorage error)

/-! ## Entrants -/

/-- Says which rule a guarded entrant write broke, from the tournament as it is now. -/
def explainRefusal (id : TournamentId) (guard : EntrantGuard) : Service Unit := do
  let fresh ← load id
  ofExcept (requireEntrantsEditable fresh)
  match guard.openAt with
  | some now => ofExcept (requireRegistrationOpen fresh now)
  | none => if fresh.status ≠ guard.status then fail .tournamentChanged else pure ()

/-- The level of a player who is in already. -/
def correctSkill (id : TournamentId) (player : PlayerId) (skill : Option SkillLevel)
    (guard : EntrantGuard) : Service Unit :=
  match skill with
  | none => pure ()
  | some skill => do
      let written ← store (.tournaments (.setSkill id player skill guard))
      if written then pure () else explainRefusal id guard

def enrol (id : TournamentId) (player : PlayerId) (skill : Option SkillLevel)
    (guard : EntrantGuard) : Service (Outcome Entrant) := do
  let draw ← ask (.draw .entrant)
  let now ← ask .now
  let written ← attempt <| .tournaments <|
    .addEntrant { id := draw 0, tournament := id, player, skill, registeredAt := now } guard
  let created ← match written with
    | .ok .new => pure true
    | .ok .already => do
        correctSkill id player skill guard
        pure false
    | .ok .refused => do
        explainRefusal id guard
        fail .tournamentFull
    -- The guard found the tournament, so the missing row is the player.
    | .error .foreignKeyViolation => fail (.playerIdNotFound player)
    | .error error => fail (.ofStorage error)
  let found ← store (.tournaments (.entrantOf id player))
  let entrant ← okOr found (.playerIdNotFound player)
  pure (if created then .created entrant else .existing entrant)

/-- A player enters with their level while registration is open. -/
def register (id : TournamentId) (player : PlayerId) (skill : SkillLevel) : Service Entrant := do
  let now ← ask .now
  let tournament ← loadPublic id
  ofExcept (requireRegistrationOpen tournament now)
  let outcome ← enrol id player (some skill) { status := .opened, openAt := some now }
  match outcome with
  | .created entrant | .existing entrant => pure entrant

/-- Idempotent, and only while registration is open. -/
def retire (id : TournamentId) (player : PlayerId) : Service Unit := do
  let now ← ask .now
  let tournament ← loadPublic id
  ofExcept (requireRegistrationOpen tournament now)
  let guard : EntrantGuard := { status := .opened, openAt := some now }
  let removed ← store (.tournaments (.removeEntrantOf id player guard))
  if removed then pure () else explainRefusal id guard

/-- An admin adds any existing player while no bracket exists and the tournament is not
concluded. -/
def addEntrant (id : TournamentId) (player : PlayerId) (skill : Option SkillLevel) :
    Service (Outcome Entrant) := do
  let tournament ← load id
  ofExcept (requireEntrantsEditable tournament)
  let found ← store (.players (.isThere player))
  if found then enrol id player skill { status := tournament.status, openAt := none }
  else fail (.playerIdNotFound player)

/-- Idempotent, while no bracket exists and the tournament is not concluded. -/
def removeEntrant (id : TournamentId) (entrant : EntrantId) : Service Unit := do
  let tournament ← load id
  ofExcept (requireEntrantsEditable tournament)
  let guard : EntrantGuard := { status := tournament.status, openAt := none }
  let removed ← store (.tournaments (.removeEntrant id entrant guard))
  if removed then pure () else explainRefusal id guard

/-! ## The bracket -/

/-- Generation and reordering need a live tournament and no result yet. -/
def loadBracketEditable (id : TournamentId) : Service Tournament := do
  let tournament ← load id
  match tournament.status with
  | .live => do
      let bracket ← bracket id
      if bracket.any Bracket.hasResults then fail .bracketLocked else pure tournament
  | .concluded => fail .tournamentConcluded
  | .draft | .opened => fail .notLive

def buildBracket (tournament : Tournament) (order : List EntrantId) : Service Bracket := do
  let draw ← ask (.draw .bracketMatch)
  let bracket ← ofExcept ((Bracket.generate draw order).mapError ServiceError.ofBracket)
  let written ← store <| .tournaments <|
    .replaceBracket tournament.id tournament.status order bracket
  ofExcept (bracketWritten written)
  pure bracket

/-- Builds the bracket seeded by level, the strongest first. -/
def generateBracket (id : TournamentId) : Service Bracket := do
  let tournament ← loadBracketEditable id
  let entrants ← store (.tournaments (.entrants id))
  let shuffled ← ask (.shuffle entrants)
  buildBracket tournament (seedOrder shuffled)

/-- Rebuilds the bracket with the given seed order.  Every entrant, one time. -/
def reorderSeeds (id : TournamentId) (order : List EntrantId) : Service Bracket := do
  let tournament ← loadBracketEditable id
  if tournament.hasBracket then do
    let entrants ← store (.tournaments (.entrants id))
    if sameEntrants (entrants.map Entrant.id) order then buildBracket tournament order
    else fail .seedOrderMismatch
  else fail .bracketMissing

/-- Idempotent, as long as no result was entered. -/
def deleteBracket (id : TournamentId) : Service Unit := do
  let tournament ← load id
  ofExcept (requireNotConcluded tournament)
  let written ← store (.tournaments (.deleteBracket id tournament.status))
  ofExcept (bracketWritten written)

/-! ## Results -/

/-- The bracket of a tournament that takes results, for a result on one of its matches. -/
def loadOpenBracket (id : TournamentId) (matchId : MatchId) : Service (Tournament × Bracket) := do
  let tournament ← load id
  ofExcept (requireNotConcluded tournament)
  let found ← bracket id
  let bracket ← okOr found (.matchNotFound matchId)
  pure (tournament, bracket)

/-- Writes the matches a result changed, each one guarded by the value it held in `read`. -/
def writeResults (tournament : Tournament) (read : Bracket) (changed : List Match) :
    Service Unit := do
  let written ← store <| .tournaments <|
    .updateMatches tournament.id tournament.status (changePairs read changed)
  if written then pure () else fail .tournamentChanged

/-- The write that `reportResult` and `clearResult` share: what a call on the bracket that was read
changed. -/
def writeCall (tournament : Tournament) (read : Bracket)
    (result : Except BracketError (List Match) × Bracket) : Service Bracket := do
  let changed ← ofExcept (result.1.mapError ServiceError.ofBracket)
  writeResults tournament read changed
  pure result.2

def reportResult (id : TournamentId) (matchId : MatchId) (winner : EntrantId) :
    Service Bracket := do
  let (tournament, read) ← loadOpenBracket id matchId
  writeCall tournament read (read.report matchId winner)

def clearResult (id : TournamentId) (matchId : MatchId) : Service Bracket := do
  let (tournament, read) ← loadOpenBracket id matchId
  writeCall tournament read (read.clear matchId)

end TournamentService
end LanBunker
