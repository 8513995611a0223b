import LanBunker.Brackets.Changes
import LanBunker.Tournaments.Results

/-!
# The changed matches are the whole difference

A call changes the bracket in memory and the stored rows by two paths.  The matches it returns keep
them in step: paired with what was read, each finds its one row, and the rows group into the
bracket the call left in memory.
-/

namespace LanBunker

open TournamentStorage

section Table

variable {id : TournamentId} {stored : List MatchRow} {rows : List Match}
  {changes : List (Match × Match)}

/-- The rows of a tournament are the matches they hold. -/
private theorem rows_of_matches (own : ∀ row ∈ stored, row.tournament = id) :
    stored = (stored.map MatchRow.toMatch).map (MatchRow.ofMatch id) := by
  rw [List.map_map]
  refine ((List.map_congr_left fun row member => ?_).trans (List.map_id' stored)).symm
  obtain rfl := own row member
  rfl

/-- Changes of what was read, on the whole table: every change finds its row, the rows of the
tournament become the changed ones, and no other row is touched. -/
theorem ReadChanges.table (read : ReadChanges rows changes) (ids : (rows.map Match.id).Nodup)
    (holds : ((stored.filter fun row => row.tournament = id).map MatchRow.toMatch).Perm rows) :
    Rewrites id stored changes ∧
      (((rewritten id stored changes).filter fun row => row.tournament = id).map
        MatchRow.toMatch).Perm ((changes.map Prod.snd).foldl Bracket.overwrite rows) ∧
      ∀ other, other ≠ id → ((rewritten id stored changes).filter fun row =>
        row.tournament = other) = stored.filter fun row => row.tournament = other := by
  have own : stored.filter (fun row => row.tournament = id) =
      ((stored.filter fun row => row.tournament = id).map MatchRow.toMatch).map
        (MatchRow.ofMatch id) :=
    rows_of_matches fun row member => of_decide_eq_true (List.mem_filter.mp member).2
  have own_ids : (((stored.filter fun row => row.tournament = id).map
      MatchRow.toMatch).map Match.id).Nodup := (holds.map Match.id).nodup_iff.mpr ids
  have own_read : ReadChanges ((stored.filter fun row => row.tournament = id).map
      MatchRow.toMatch) changes :=
    ⟨fun change member => holds.mem_iff.mpr (read.member change member), read.same_place, read.ids⟩
  obtain ⟨rewrites, rewritten_eq⟩ := own_read.written own_ids id
  rw [← own] at rewrites rewritten_eq
  refine ⟨(rewrites_own id stored changes).mp rewrites, ?_, fun other differs => ?_⟩
  · rw [filter_rewritten, if_pos rfl, rewritten_eq, List.map_map]
    exact (List.Perm.of_eq (List.map_id' _)).trans (Bracket.foldl_overwrite_perm holds _)
  · rw [filter_rewritten, if_neg differs]

end Table

/-- What a call that succeeds returns, with the changes the service makes of it. -/
private theorem result_changePairs {bracket : Bracket} (whole : bracket.WellFormed)
    (distinct : bracket.DistinctIds) {call : Bracket.Call} {changed : List Match}
    {after : Bracket} (called : bracket.result call = (.ok changed, after)) :
    bracket.Changes changed after ∧ ReadChanges bracket.flat (changePairs bracket changed) ∧
      (changePairs bracket changed).map Prod.snd = changed := by
  rcases Bracket.result_cases bracket call with
    ⟨error, refused⟩ | nothing | ⟨round, slot, m, winner, -, enterable, -, entered⟩
  · rw [refused] at called
    cases called
  · rw [nothing] at called
    cases called
    exact ⟨.refl whole, ⟨by simp [changePairs], by simp [changePairs], by simp [changePairs]⟩, rfl⟩
  · rw [entered] at called
    cases called
    refine ⟨Bracket.changes_enter whole distinct enterable.found winner,
      readChanges_enter distinct enterable.found winner, ?_⟩
    rw [changePairs_enter distinct enterable.found, Bracket.changed_enter enterable.found]
    cases bracket.get (round + 1) (slot / 2) with
    | none => rfl
    | some next => rfl

/-- What a call returns is all that it changes.  A refused call leaves the bracket alone.  A call
that succeeds returns the new values of the matches it changed, the service pairs each of them with
the value it read, and writing only those rows, whatever the order of the stored rows, makes them
the rows of the bracket in memory: the plain overwrite by id, and the guarded updates of the table,
each of which finds exactly its row. -/
theorem changed_whole (bracket : Bracket) (whole : bracket.WellFormed)
    (distinct : bracket.DistinctIds) (call : Bracket.Call) :
    (∀ error after, bracket.result call = (.error error, after) → after = bracket) ∧
      ∀ changed after, bracket.result call = (.ok changed, after) →
        (∀ round slot m, bracket.get round slot = some m → m.id ∉ changed.map Match.id →
          after.get round slot = some m) ∧
        (∀ m ∈ changed, ∃ before, bracket.get (m.round - 1) m.slot = some before ∧
          before.id = m.id ∧ after.get (m.round - 1) m.slot = some m) ∧
        (∀ rows : List Match, rows.Perm bracket.flat →
          Bracket.fromMatches (changed.foldl Bracket.overwrite rows) = .ok after) ∧
        ((changePairs bracket changed).map Prod.snd = changed ∧
          ∀ change ∈ changePairs bracket changed,
            change.1 ∈ bracket.flat ∧ change.1.id = change.2.id) ∧
        ∀ (id : TournamentId) (stored : List MatchRow),
          ((stored.filter fun row => row.tournament = id).map MatchRow.toMatch).Perm
            bracket.flat →
          Rewrites id stored (changePairs bracket changed) ∧
            Bracket.fromMatches (((rewritten id stored (changePairs bracket changed)).filter
              fun row => row.tournament = id).map MatchRow.toMatch) = .ok after ∧
            ∀ other, other ≠ id →
              ((rewritten id stored (changePairs bracket changed)).filter
                fun row => row.tournament = other) =
              stored.filter fun row => row.tournament = other := by
  constructor
  · intro error after refused
    rcases Bracket.result_changes whole distinct call with ⟨_, same⟩ | ⟨_, _, accepted, -⟩
    · rw [same] at refused
      cases refused
      rfl
    · rw [accepted] at refused
      cases refused
  · intro changed after called
    obtain ⟨changes, read, seconds⟩ := result_changePairs whole distinct called
    have regroup : ∀ {rows : List Match}, rows.Perm (changed.foldl Bracket.overwrite bracket.flat) →
        Bracket.fromMatches rows = .ok after := by
      intro rows perm
      rw [← changes.flat] at perm
      exact changes.wellFormed.fromMatches_perm perm
    refine ⟨changes.frame, changes.placed, fun rows perm => ?_, ⟨seconds, ?_⟩, ?_⟩
    · exact regroup (Bracket.foldl_overwrite_perm perm changed)
    · intro change member
      exact ⟨read.member change member, (read.same_place change member).1.symm⟩
    · intro id stored holds
      obtain ⟨rewrites, written, others⟩ := read.table distinct holds
      rw [seconds] at written
      exact ⟨rewrites, regroup written, others⟩

namespace Three

def bye : Match := ⟨⟨0⟩, 1, 0, some ⟨10⟩, none, some ⟨10⟩⟩

def semifinal : Match := ⟨⟨1⟩, 1, 1, some ⟨11⟩, some ⟨12⟩, none⟩

def decider : Match := ⟨⟨2⟩, 2, 0, some ⟨10⟩, none, none⟩

/-- A field of three, of whom one waits in the last match. -/
def bracket : Bracket where
  rounds := [[bye, semifinal], [decider]]

/-- The bracket stored as the tournament 7, in another order and beside a match of another. -/
def table : List MatchRow :=
  [.ofMatch ⟨7⟩ decider, .ofMatch ⟨8⟩ ⟨⟨3⟩, 1, 0, some ⟨13⟩, some ⟨14⟩, none⟩,
    .ofMatch ⟨7⟩ semifinal, .ofMatch ⟨7⟩ bye]

end Three

/-- A semifinal of a field of three, written to a table that holds another tournament too. -/
theorem changed_whole_three :
    ∃ (changed : List Match) (after : Bracket),
      Three.bracket.result (.report ⟨1⟩ ⟨12⟩) = (.ok changed, after) ∧ changed.length = 2 ∧
        Rewrites ⟨7⟩ Three.table (changePairs Three.bracket changed) ∧
        Bracket.fromMatches (((rewritten ⟨7⟩ Three.table (changePairs Three.bracket changed)).filter
          fun row => row.tournament = ⟨7⟩).map MatchRow.toMatch) = .ok after ∧
        ((rewritten ⟨7⟩ Three.table (changePairs Three.bracket changed)).filter
          fun row => row.tournament = ⟨8⟩).length = 1 := by
  have accepted : Bracket.fromMatches [Three.decider, Three.semifinal, Three.bye] =
      .ok Three.bracket := by decide
  obtain ⟨-, -, -, -, written⟩ :=
    (changed_whole _ (.of_fromMatches accepted) (by decide) (.report ⟨1⟩ ⟨12⟩)).2 _ _ rfl
  obtain ⟨rewrites, regrouped, others⟩ := written ⟨7⟩ Three.table (by decide)
  refine ⟨_, _, rfl, rfl, rewrites, regrouped, ?_⟩
  rw [others ⟨8⟩ (by decide)]
  rfl

end LanBunker
