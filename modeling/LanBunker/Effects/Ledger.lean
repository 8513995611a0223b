import LanBunker.Storage.Points
import LanBunker.Storage.Transactions

/-!
# What the ledger writes do

An entry is appended or nothing happens.  A batch of awards appends one row for each award, and no
key of the ledger's index comes twice.
-/

namespace LanBunker

open Transaction

/-- No key of the unique index comes twice. -/
def LedgerKeys (rows : List PointRow) : Prop := (rows.map PointRow.key).Nodup

theorem insertPoint_ok {row : PointRow} {db after : Database} {affected : Nat}
    (inserted : insertPoint row db = .ok (affected, after)) :
    affected = 1 ∧ row.isChecked ∧ db.hasSources row ∧
      (∀ other ∈ db.pointEntries, other.key ≠ row.key) ∧
      after = { db with pointEntries := db.pointEntries ++ [row] } := by
  simp only [insertPoint, guarded_cons_ok, guarded_nil_ok, Except.ok.injEq, Prod.mk.injEq,
    decide_eq_true_eq, List.all_eq_true] at inserted
  obtain ⟨checked, -, keys, sources, rfl, rfl⟩ := inserted
  exact ⟨rfl, checked, sources, keys, rfl⟩

/-- The only unique index an entry with a fresh id can hit is the one on its source. -/
theorem insertPoint_error {row : PointRow} {db : Database}
    (refused : insertPoint row db = .error (.uniqueViolation .pointEntriesSource)) :
    ∃ other ∈ db.pointEntries, other.key = row.key := by
  obtain ⟨⟨holds, error⟩, member, fails, error_eq⟩ := guarded_error refused
  simp only at fails error_eq
  subst fails error_eq
  simpa using member

theorem LedgerKeys.append {rows : List PointRow} {row : PointRow} (keys : LedgerKeys rows)
    (new : ∀ other ∈ rows, other.key ≠ row.key) : LedgerKeys (rows ++ [row]) := by
  rw [LedgerKeys, List.map_append, List.map_singleton]
  refine List.Nodup.append keys (List.nodup_singleton _) ?_
  rw [List.disjoint_singleton]
  intro member
  obtain ⟨other, other_mem, key_eq⟩ := List.mem_map.mp member
  exact new other other_mem key_eq

/-- What a batch of entries leaves behind. -/
structure Paid (db : Database) (rows : List PointRow) (after : Database) : Prop where
  after_eq : after = { db with pointEntries := db.pointEntries ++ rows }
  checked : ∀ row ∈ rows, row.isChecked
  sources : ∀ row ∈ rows, db.hasSources row
  keys : LedgerKeys db.pointEntries → LedgerKeys after.pointEntries

theorem ends_insertAwards {β : Type} (source : AwardSource) (instant : Instant)
    (draw : Nat → PointEntryId) (index : Nat) (awards : List Award) (db : Database)
    {done : Unit → Database → Prop} {aborted : Abort β → Prop}
    (paid : ∀ after, Paid db (awardRows source instant draw index awards) after → done () after)
    (failed : ∀ error, aborted (.failed error)) :
    Ends (insertAwards source instant draw index awards) db done aborted := by
  induction awards generalizing index db with
  | nil =>
      rw [insertAwards, ends_pure]
      refine paid db ⟨?_, by simp [awardRows], by simp [awardRows], id⟩
      simp [awardRows]
  | cons award awards ih =>
      rw [insertAwards, ends_bind, ends_execute]
      refine ⟨fun affected middle inserted => ?_, fun error _ => failed error⟩
      obtain ⟨-, checked, sources, keys, rfl⟩ := insertPoint_ok inserted
      refine ih (index + 1) _ fun after rest => paid after ?_
      exact
        { after_eq := by rw [rest.after_eq, awardRows]; simp
          checked := by simpa [awardRows] using ⟨checked, rest.checked⟩
          sources := by simpa [awardRows] using ⟨sources, rest.sources⟩
          keys := fun distinct => rest.keys (distinct.append keys) }

theorem mem_awardRows {source : AwardSource} {instant : Instant} {draw : Nat → PointEntryId}
    {index : Nat} {awards : List Award} {row : PointRow}
    (member : row ∈ awardRows source instant draw index awards) :
    row.tournament = source.tournamentColumn ∧ row.event = source.eventColumn := by
  induction awards generalizing index with
  | nil => cases member
  | cons award awards ih =>
      rcases List.mem_cons.mp member with rfl | later
      · exact ⟨rfl, rfl⟩
      · exact ih later

/-- What the ledger asks of a batch of awards, whatever identifiers and instant its rows get. -/
structure Payable (db : Database) (source : AwardSource) (awards : List Award) : Prop where
  checked : ∀ award ∈ awards, (awardRow source 1000 ⟨0⟩ award).isChecked
  sources : ∀ award ∈ awards, db.hasSources (awardRow source 1000 ⟨0⟩ award)
  new : ∀ award ∈ awards, ∀ other ∈ db.pointEntries,
    other.key ≠ (awardRow source 1000 ⟨0⟩ award).key
  distinct : (awards.map fun award => (awardRow source 1000 ⟨0⟩ award).key).Nodup

/-- A row of an award is inserted when the ledger takes the award and the identifier is new. -/
private theorem insertPoint_award {source : AwardSource} {instant : Instant} {id : PointEntryId}
    {award : Award} {db : Database} (positive : 0 < toMicros instant)
    (fresh : ∀ other ∈ db.pointEntries, other.id ≠ id) :
    (∃ affected after, insertPoint (awardRow source instant id award) db =
        .ok (affected, after)) ↔
      (awardRow source 1000 ⟨0⟩ award).isChecked ∧
        db.hasSources (awardRow source 1000 ⟨0⟩ award) ∧
        ∀ other ∈ db.pointEntries, other.key ≠ (awardRow source 1000 ⟨0⟩ award).key := by
  have same_check : (awardRow source instant id award).isChecked =
      (awardRow source 1000 ⟨0⟩ award).isChecked := by
    have other_positive : 0 < toMicros 1000 := by decide
    simp only [PointRow.isChecked, awardRow, positive, other_positive]
  have new_id : (db.pointEntries.all fun other =>
      other.id ≠ (awardRow source instant id award).id) = true :=
    List.all_eq_true.mpr fun other member => decide_eq_true (fresh other member)
  simp only [insertPoint, guarded_cons_ok, guarded_nil_ok, Except.ok.injEq, Prod.mk.injEq]
  rw [same_check]
  constructor
  · rintro ⟨affected, after, checked, -, keys, sources, -, -⟩
    exact ⟨checked, sources, fun other member =>
      of_decide_eq_true (List.all_eq_true.mp keys other member)⟩
  · rintro ⟨checked, sources, keys⟩
    exact ⟨1, _, checked, new_id, List.all_eq_true.mpr fun other member =>
      decide_eq_true (keys other member), sources, rfl, rfl⟩

/-- The first award is taken, and then the ledger takes the rest after its row. -/
private theorem payable_cons {source : AwardSource} (instant : Instant) (id : PointEntryId)
    {award : Award} {awards : List Award} {db : Database} :
    Payable db source (award :: awards) ↔
      ((awardRow source 1000 ⟨0⟩ award).isChecked ∧
        db.hasSources (awardRow source 1000 ⟨0⟩ award) ∧
        ∀ other ∈ db.pointEntries, other.key ≠ (awardRow source 1000 ⟨0⟩ award).key) ∧
      Payable { db with
        pointEntries := db.pointEntries ++ [awardRow source instant id award] } source awards := by
  constructor
  · rintro ⟨checked, sources, new, distinct⟩
    rw [List.map_cons, List.nodup_cons] at distinct
    obtain ⟨first, rest⟩ := distinct
    refine ⟨⟨checked _ List.mem_cons_self, sources _ List.mem_cons_self,
      new _ List.mem_cons_self⟩, fun later member => checked _ (List.mem_cons_of_mem _ member),
      fun later member => sources _ (List.mem_cons_of_mem _ member), ?_, rest⟩
    intro later member other other_mem same
    rcases List.mem_append.mp other_mem with old | last
    · exact new _ (List.mem_cons_of_mem _ member) other old same
    · obtain rfl := List.mem_singleton.mp last
      exact first (List.mem_map.mpr ⟨later, member, same.symm⟩)
  · rintro ⟨⟨checked, sources, new⟩, rest⟩
    refine ⟨?_, ?_, ?_, ?_⟩
    · exact List.forall_mem_cons.mpr ⟨checked, rest.checked⟩
    · exact List.forall_mem_cons.mpr ⟨sources, rest.sources⟩
    · refine List.forall_mem_cons.mpr ⟨new, fun later member other other_mem => ?_⟩
      exact rest.new later member other (List.mem_append_left _ other_mem)
    · rw [List.map_cons, List.nodup_cons]
      refine ⟨fun member => ?_, rest.distinct⟩
      obtain ⟨later, later_mem, same⟩ := List.mem_map.mp member
      exact rest.new later later_mem _ (List.mem_append_right _ (List.mem_singleton_self _))
        same.symm

/-- A batch is paid exactly if the ledger takes its awards. -/
theorem insertAwards_ok_iff {β : Type} {source : AwardSource} {instant : Instant}
    {draw : Nat → PointEntryId} {index : Nat} {awards : List Award} {db : Database}
    (positive : 0 < toMicros instant) (injective : Function.Injective draw)
    (fresh : ∀ other ∈ db.pointEntries, ∀ later, index ≤ later → other.id ≠ draw later) :
    (∃ after, (insertAwards source instant draw index awards : Transaction β Unit) db =
        .ok ((), after)) ↔ Payable db source awards := by
  induction awards generalizing index db with
  | nil => exact iff_of_true ⟨db, rfl⟩ ⟨by simp, by simp, by simp, List.nodup_nil⟩
  | cons award awards ih =>
      have first : (∃ affected after, insertPoint (awardRow source instant (draw index) award) db =
          .ok (affected, after)) ↔ _ := insertPoint_award positive
        fun other member => fresh other member index (Nat.le_refl index)
      simp only [insertAwards, bind, StateT.bind, Except.bind, Transaction.execute]
      cases inserted : insertPoint (awardRow source instant (draw index) award) db with
      | error error =>
          refine iff_of_false (by simp) fun payable => ?_
          obtain ⟨affected, after, ok⟩ := first.mpr
            ((payable_cons instant (draw index)).mp payable).1
          rw [inserted] at ok
          cases ok
      | ok result =>
          obtain ⟨affected, middle⟩ := result
          obtain ⟨-, -, -, -, rfl⟩ := insertPoint_ok inserted
          have taken := first.mp ⟨affected, _, inserted⟩
          rw [payable_cons instant (draw index), and_iff_right taken]
          refine ih fun other member later le => ?_
          rcases List.mem_append.mp member with old | last
          · exact fresh other old later (Nat.le_of_succ_le le)
          · obtain rfl := List.mem_singleton.mp last
            intro same
            have index_eq := injective same
            omega

/-- What an entry pays, without the columns that tie it to a row. -/
def PointRow.award (row : PointRow) : Award :=
  { player := row.player, amount := row.amount, kind := row.kind, sourceRef := row.sourceRef }

/-- The rows of a batch pay exactly its awards. -/
theorem awardRows_award (source : AwardSource) (instant : Instant) (draw : Nat → PointEntryId)
    (index : Nat) (awards : List Award) :
    (awardRows source instant draw index awards).map PointRow.award = awards := by
  induction awards generalizing index with
  | nil => rfl
  | cons award awards ih => rw [awardRows, List.map_cons, ih]; rfl

namespace PointStorage

theorem addAdjustment_cases {adjustment : NewAdjustment} {db after : Database}
    {answer : Except StorageError PointEntry}
    (called : addAdjustment adjustment db = (answer, after)) :
    after = db ∨
      (∀ other ∈ db.pointEntries, other.key ≠ (adjustmentRow adjustment).key) ∧
        after = { db with pointEntries := db.pointEntries ++ [adjustmentRow adjustment] } := by
  rcases Method.single_cases called with ⟨affected, inserted, -⟩ | ⟨unchanged, -⟩
  · obtain ⟨-, -, -, keys, after_eq⟩ := insertPoint_ok inserted
    exact Or.inr ⟨keys, after_eq⟩
  · exact Or.inl unchanged

end PointStorage
end LanBunker
