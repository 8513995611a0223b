import Mathlib.Algebra.Order.Ring.Int

/-!
# Identifiers

Every row of the bunker carries a uuid.  Each table has its own identifier type, so an identifier
of the wrong kind is a type error and not an empty lookup.
-/

namespace LanBunker

/-- The tables whose rows carry an identifier. -/
inductive IdKind where
  | player
  | tournament
  | entrant
  | bracketMatch
  | event
  | pointEntry
  deriving DecidableEq, Repr

/-- A uuid of one kind, by its number. -/
structure Id (kind : IdKind) where
  /-- The 128 bits read as one number. -/
  uuid : Nat
  deriving DecidableEq, Repr

abbrev PlayerId := Id .player
abbrev TournamentId := Id .tournament
abbrev EntrantId := Id .entrant
abbrev MatchId := Id .bracketMatch
abbrev EventId := Id .event
abbrev PointEntryId := Id .pointEntry

/-- The text of an identifier of any kind, as `source_ref` and the text columns hold it.  The
hyphenated form spells the number, so two texts agree exactly when the numbers do. -/
structure UuidText where
  /-- The number the text spells. -/
  uuid : Nat
  deriving DecidableEq, Repr

namespace Id

variable {kind : IdKind}

/-- `Display` of an identifier. -/
def toText (id : Id kind) : UuidText := ⟨id.uuid⟩

theorem ext_uuid {left right : Id kind} (uuid_eq : left.uuid = right.uuid) : left = right := by
  cases left
  cases right
  exact congrArg Id.mk uuid_eq

@[simp]
theorem toText_inj {left right : Id kind} : left.toText = right.toText ↔ left = right := by
  constructor
  · intro texts
    exact ext_uuid (congrArg UuidText.uuid texts)
  · rintro rfl
    rfl

/-- The order of identifiers, which is the order of their texts. -/
instance : LE (Id kind) := ⟨fun left right => left.uuid ≤ right.uuid⟩

instance : DecidableLE (Id kind) := fun left right =>
  inferInstanceAs (Decidable (left.uuid ≤ right.uuid))

end Id

end LanBunker
