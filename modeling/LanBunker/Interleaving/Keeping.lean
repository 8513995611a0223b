import LanBunker.Interleaving.Manners
import LanBunker.Interleaving.Rely

/-!
# What a layer keeps

An invariant that the requests of a system keep, with what they may rely on, is kept by a layer over
it if the operations of the layer keep it too.
-/

namespace Interleaving

variable {sys : System} {layer : Layer sys}

namespace Guarantee

variable (layer) in
/-- The same promise for the layer. -/
def lifted (guarantee : Guarantee sys) : Guarantee layer.system where
  holds := guarantee.holds
  relies := guarantee.relies
  refl := guarantee.refl
  trans := guarantee.trans

variable {guarantee : Guarantee sys}

/-- A request of the system lived through its part of a history of the layer. -/
theorem Lived.own {before : History layer.system.Op layer.system.Ans}
    {own : History sys.Op sys.Ans} {state : sys.State}
    (lived : (guarantee.lifted layer).Lived (before ++ own.map Entry.lift) state) :
    guarantee.Lived own state := by
  induction own using List.reverseRecOn generalizing state with
  | nil => exact .nil state
  | append_singleton own entry ih =>
      rw [List.map_append, ← List.append_assoc, List.map_singleton] at lived
      generalize whole : before ++ own.map Entry.lift ++ [entry.lift] = history at lived
      cases lived with
      | nil => simp at whole
      | snoc lived holds exec holds_after step rest =>
          obtain ⟨rfl, last⟩ := List.append_inj' whole rfl
          obtain ⟨rfl, answers⟩ := Entry.mk.inj (List.singleton_inj.mp last)
          obtain rfl := eq_of_heq answers
          exact .snoc (ih lived) holds exec holds_after step rest

/-- A step of a request of the system, made for a plan of the layer. -/
def KeepsOwn (guarantee : Guarantee sys) (layer : Layer sys) : Prop :=
  (∀ (extra : layer.Extra) {before after : sys.State} {answer : layer.ExtraAns extra},
    layer.perform extra before answer after → guarantee.holds before →
      guarantee.holds after ∧ guarantee.relies before after) ∧
    ∀ {before after : sys.State}, layer.drift before after → guarantee.holds before →
      guarantee.holds after ∧ guarantee.relies before after

theorem KeptBy.lifted {discipline : Discipline sys}
    (kept : guarantee.KeptBy discipline fun _ => True) (manners : layer.Manners)
    (own : guarantee.KeepsOwn layer) :
    (guarantee.lifted layer).KeptBy (manners.discipline discipline) fun _ => True := by
  intro moment holds informed sound _
  obtain ⟨before, label, after⟩ := moment
  have unchanged : after = before → guarantee.holds after ∧ guarantee.relies before after := by
    rintro rfl
    exact ⟨holds, guarantee.refl _⟩
  cases label with
  | arrive name request => exact unchanged sound
  | reply name request past response => exact unchanged sound.1
  | drop name request => exact unchanged sound
  | drift => exact own.2 sound holds
  | call name request calls op answer =>
      obtain ⟨may, performed⟩ := sound
      cases op with
      | inr extra => exact own.1 extra performed holds
      | inl op =>
          obtain ⟨past, earlier, own_past, service, -, rfl, -, may⟩ := may
          have lived : guarantee.Lived own_past before := Lived.own (informed _ _ _ rfl)
          refine kept ⟨before, .call name service own_past op answer, after⟩ holds ?_
            ⟨may, performed⟩ trivial
          intro name' request' past' caller
          obtain ⟨rfl, rfl, rfl⟩ := by simpa [Label.caller] using caller
          exact lived

end Guarantee
end Interleaving
