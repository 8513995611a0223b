import LanBunker.Services.Service

/-!
# Accounts and the ledger by hand

Signup, the role and the deletion of a player, the leaderboard, and the ledger: the adjustment an
admin writes and the log of a player.
-/

namespace LanBunker

open Service

namespace AuthService

/-- `passwordHash` is what the hasher gives for the password of the request. -/
def signup (handle : Handle) (passwordHash : String) : Service PlayerId := do
  let draw ← ask (.draw .player)
  let now ← ask .now
  let created ← store <| .players <|
    .create { id := draw 0, handle, passwordHash, createdAt := now }
  match created with
  | .player stored => pure stored.id
  | .handleTaken => fail (.handleTaken handle)

end AuthService

namespace PlayerService

/-- `actor` is the admin doing it.  Nobody changes their own role, and the crew keeps at least one
admin. -/
def setRole (actor id : PlayerId) (role : Role) : Service Player :=
  if actor = id then fail .selfAction
  else do
    let changed ← store (.players (.setRole id role))
    match changed with
    | .player player => pure player
    | .notFound => fail (.playerIdNotFound id)
    | .lastAdmin => fail .lastAdmin

/-- The public leaderboard: active players only, first place first. -/
def leaderboard (query : RosterQuery) : Service (Paginated Player) :=
  store (.players (.list query.pageQuery query.term (some true) .standing))

/-- Idempotent.  A delete of a player that is already absent is a success. -/
def delete (actor id : PlayerId) : Service Unit :=
  if actor = id then fail .selfAction
  else do
    let removal ← store (.players (.delete id))
    match removal with
    | .removed | .absent => pure ()
    | .lastAdmin => fail .lastAdmin

end PlayerService

namespace PointsService

/-- An admin gives or takes cycles, with a reason, to any player. -/
def adjust (admin player : PlayerId) (amount : Amount) (note : Note) : Service PointEntry := do
  let found ← store (.players (.isThere player))
  if found then do
    let draw ← ask (.draw .pointEntry)
    let now ← ask .now
    let written ← attempt <| .players <| .addAdjustment
      { id := draw 0, player, amount, note, createdBy := admin, createdAt := now }
    match written with
    | .ok entry => pure entry
    -- The player was deleted after the check above.
    | .error .foreignKeyViolation => fail (.playerIdNotFound player)
    | .error error => fail (.ofStorage error)
  else fail (.playerIdNotFound player)

/-- The order of the legend. -/
def compareTotals (left right : KindTotal) : Ordering :=
  Ordered.nullsFirst compare (PointKind.all.idxOf? left.kind) (PointKind.all.idxOf? right.kind)

/-- The history of an account, newest first, with the totals by kind. -/
def historyOf (player : PlayerId) (query : PageQuery) : Service CyclesLog := do
  let entries ← store (.players (.history player query))
  let totals ← store (.players (.totals player))
  pure { entries, totals := Ordered.sortBy compareTotals totals }

end PointsService
end LanBunker
