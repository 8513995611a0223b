import Mathlib.Algebra.BigOperators.Group.List.Basic
import LanBunker.Brackets.Draw
import LanBunker.Points.Awards

/-!
# What a finished bracket pays

The awards of a bracket with a champion, kind by kind: an entry for everyone, a win for every
played match, the champion, the finalist and the losers of the semifinal, each at the amount the
published rules list.
-/

namespace LanBunker

/-! ## The published amounts -/

/-- The rules list an amount for a kind in a field: it stands in the column of the last tier that
the field reaches. -/
def CyclesRules.Lists (rules : CyclesRules) (kind : PointKind) (count : Nat) (amount : Int) :
    Prop :=
  ∃ (index : Nat) (tier : TierRule) (rule : AwardRule), rules.tiers[index]? = some tier ∧
    tier.minEntrants ≤ count ∧
    (∀ (later : Nat) (other : TierRule), index < later → rules.tiers[later]? = some other →
      count < other.minEntrants) ∧
    rule ∈ rules.awards ∧ rule.kind = kind ∧ rule.cycles[index]? = some amount

theorem FieldTier.forEntrants_eq (count : Nat) :
    FieldTier.forEntrants count =
      if 16 ≤ count then .large else if 8 ≤ count then .medium else .small := by
  by_cases large : 16 ≤ count
  · simp [forEntrants, all, minEntrants, large]
  · by_cases medium : 8 ≤ count
    · simp [forEntrants, all, minEntrants, large, medium]
    · by_cases small : 2 ≤ count
      · simp [forEntrants, all, minEntrants, large, medium, small]
      · simp [forEntrants, all, minEntrants, large, medium, small]

/-- Every kind with a fixed amount has its rule, with what it pays in each tier. -/
private theorem exists_rule {kind : PointKind} (fixed : kind ≠ .adjustment) :
    ∃ rule ∈ CyclesRules.current.awards, rule.kind = kind ∧
      rule.cycles.map some = FieldTier.all.map kind.cycles := by
  refine ⟨⟨kind, FieldTier.all.filterMap kind.cycles⟩, ?_, rfl, ?_⟩
  · cases kind with
    | adjustment => exact absurd rfl fixed
    | _ => decide
  · cases kind with
    | adjustment => exact absurd rfl fixed
    | _ => decide

/-- What a kind pays is what the rules list. -/
theorem PointKind.cycles_listed {kind : PointKind} {count : Nat} {amount : Int}
    (two_le : 2 ≤ count) (paid : kind.cycles (.forEntrants count) = some amount) :
    CyclesRules.current.Lists kind count amount := by
  have fixed : kind ≠ .adjustment := by
    rintro rfl
    cases paid
  obtain ⟨rule, rule_mem, kind_eq, cycles_eq⟩ := exists_rule fixed
  have column : ∀ (index : Nat) (tier : FieldTier), FieldTier.all[index]? = some tier →
      FieldTier.forEntrants count = tier → rule.cycles[index]? = some amount := by
    intro index tier tier_eq here
    have view := congrArg (fun amounts => amounts[index]?) cycles_eq
    simp only [List.getElem?_map, tier_eq, Option.map_some, ← here, paid] at view
    obtain ⟨found, found_eq, same⟩ := Option.map_eq_some_iff.mp view
    rw [found_eq, same]
  have later_tier : ∀ (later : Nat) (other : TierRule),
      CyclesRules.current.tiers[later]? = some other →
        other.minEntrants = [2, 8, 16].getD later 0 ∧ later < 3 := by
    intro later other found
    match later, found with
    | 0, found | 1, found | 2, found =>
        obtain rfl := Option.some.inj found
        decide
  have tier_eq := FieldTier.forEntrants_eq count
  by_cases large : 16 ≤ count
  · rw [if_pos large] at tier_eq
    refine ⟨2, _, rule, rfl, large, ?_, rule_mem, kind_eq, column 2 _ rfl tier_eq⟩
    intro later other after found
    have := (later_tier later other found).2
    omega
  · rw [if_neg large] at tier_eq
    by_cases medium : 8 ≤ count
    · rw [if_pos medium] at tier_eq
      refine ⟨1, _, rule, rfl, medium, ?_, rule_mem, kind_eq, column 1 _ rfl tier_eq⟩
      intro later other after found
      obtain ⟨smallest, later_lt⟩ := later_tier later other found
      obtain rfl : later = 2 := by omega
      rw [smallest]
      exact Nat.lt_of_not_le large
    · rw [if_neg medium] at tier_eq
      refine ⟨0, _, rule, rfl, two_le, ?_, rule_mem, kind_eq, column 0 _ rfl tier_eq⟩
      intro later other after found
      obtain ⟨smallest, later_lt⟩ := later_tier later other found
      rcases (by omega : later = 1 ∨ later = 2) with rfl | rfl
      · rw [smallest]
        exact Nat.lt_of_not_le medium
      · rw [smallest]
        exact Nat.lt_of_not_le large

/-! ## Prizes -/

/-- What an entrant is paid for, before an account is looked up. -/
structure Prize where
  entrant : EntrantId
  kind : PointKind
  source : UuidText

/-- The award of a prize, if the account is still there. -/
def Prize.award (entrants : List Entrant) (prize : Prize) : Option Award := do
  let player ← playerOf entrants prize.entrant
  let amount ← prize.kind.cycles (.forEntrants entrants.length)
  some { player, amount, kind := prize.kind, sourceRef := prize.source }

/-- What a match pays its winner for. -/
def Match.prize (m : Match) : Option Prize :=
  m.winner.map fun winner => ⟨winner, .matchWin, m.id.toText⟩

/-- Everything a bracket over a field pays for, whoever still has an account. -/
def prizes (tournament : TournamentId) (field : List EntrantId) (bracket : Bracket) :
    List Prize :=
  field.map (fun entrant => ⟨entrant, .tournamentEntry, tournament.toText⟩) ++
    (bracket.flat.filter Match.isPlayed).filterMap Match.prize ++
    bracket.placed.map fun (entrant, kind) => ⟨entrant, kind, tournament.toText⟩

section Prizes

variable (tournament : TournamentId) {entrants : List Entrant} (bracket : Bracket)

/-- The awards of a bracket are those of its prizes. -/
theorem tournamentAwards_eq_prizes (ids : (entrants.map Entrant.id).Nodup)
    (winner : Option EntrantId) :
    tournamentAwards tournament entrants (some bracket) winner =
      (prizes tournament (entrants.map Entrant.id) bracket).filterMap
        (Prize.award entrants) := by
  have entries : entryAwards tournament entrants =
      (entrants.map fun e => (⟨e.id, .tournamentEntry, tournament.toText⟩ : Prize)).filterMap
        (Prize.award entrants) := by
    rw [entryAwards, List.filterMap_map]
    refine List.filterMap_congr fun e member => ?_
    simp only [Function.comp_apply, Prize.award, playerOf_mem ids member]
    cases e.account with
    | none => rfl
    | some player => rfl
  have wins : winAwards entrants bracket =
      ((bracket.flat.filter Match.isPlayed).filterMap Match.prize).filterMap
        (Prize.award entrants) := by
    rw [winAwards, List.filterMap_filterMap]
    refine List.filterMap_congr fun m _ => ?_
    cases won : m.winner with
    | none => simp [winAward, Match.prize, won]
    | some winner =>
        simp only [winAward, Match.prize, won, Option.map_some, Option.bind_some, Prize.award]
        rfl
  have placements : placementAwards tournament entrants bracket =
      (bracket.placed.map fun (entrant, kind) =>
        (⟨entrant, kind, tournament.toText⟩ : Prize)).filterMap (Prize.award entrants) := by
    rw [placementAwards_eq, List.filterMap_map]
    rfl
  rw [tournamentAwards, prizes, List.filterMap_append, List.filterMap_append, List.map_map,
    entries, wins, placements]
  rfl

end Prizes

/-! ## The field of a bracket -/

namespace Bracket

variable {seeded : List EntrantId} {bracket : Bracket}

/-- The number of rounds is that of the draw. -/
theorem Drawn.rounds_bounds (drawn : Drawn seeded bracket) :
    0 < bracket.rounds.length ∧ 2 ^ (bracket.rounds.length - 1) < seeded.length ∧
      seeded.length ≤ 2 ^ bracket.rounds.length := by
  obtain ⟨draw, start, calls, generated, -, rfl⟩ := drawn
  obtain ⟨roundCount, positive, count_eq, lower, upper, -⟩ := generate_opening generated
  rw [(playAll_frame start calls).1, count_eq]
  exact ⟨positive, lower, upper⟩

/-- The final of a finished bracket was played. -/
theorem Drawn.final_played (drawn : Drawn seeded bracket) (two_le : 2 ≤ seeded.length)
    {champion : EntrantId} (crowned : bracket.champion = some champion) :
    ∃ final finalist, bracket.finalMatch = some final ∧ final ∈ bracket.flat ∧
      final.winner = some champion ∧ final.loser = some finalist := by
  have coherent := drawn.coherent
  obtain ⟨last, final, last_eq, final_eq, final_found, finalMatch_eq, champion_eq⟩ :=
    coherent.final_eq
  have member := mem_flat_iff.mpr ⟨last, 0, final_found⟩
  have played : final.isPlayed := by
    by_contra unplayed
    obtain ⟨round_eq, no_side, -, -⟩ :=
      coherent.bye_of_unplayed crowned member (Bool.eq_false_iff.mpr unplayed)
    have placed := (coherent.placed last 0 final final_found).1
    obtain rfl : last = 0 := by omega
    obtain ⟨first, first_eq, seats⟩ := coherent.opening
    rw [List.getLast?_eq_getElem?, last_eq, first_eq, Option.some.injEq] at final_eq
    rw [final_eq] at seats
    have alone : final.entrantA.toList = seeded := by
      simpa [pairings, Knockout.competitors, Knockout.Pairing.competitors, no_side] using seats
    have one : final.entrantA.toList.length ≤ 1 := by cases final.entrantA <;> simp
    rw [alone] at one
    omega
  have lost := Knockout.Pairing.loser_isSome_iff_played (coherent.sound last 0 final final_found)
  rw [Match.pairing_loser] at lost
  obtain ⟨finalist, finalist_eq⟩ := Option.isSome_iff_exists.mp (lost.trans played)
  exact ⟨final, finalist, finalMatch_eq, member, champion_eq ▸ crowned, finalist_eq⟩

/-- Two semifinals, less the byes that a field of three or two leaves in their place. -/
theorem Drawn.semifinalists_length (drawn : Drawn seeded bracket) (two_le : 2 ≤ seeded.length)
    {champion : EntrantId} (crowned : bracket.champion = some champion) :
    bracket.semifinalists.length =
      if seeded.length = 2 then 0 else if seeded.length = 3 then 1 else 2 := by
  have coherent := drawn.coherent
  obtain ⟨positive, lower, upper⟩ := drawn.rounds_bounds
  by_cases single : bracket.rounds.length = 1
  · rw [single] at upper
    rw [semifinalists, if_neg (by omega), if_pos (by omega)]
    rfl
  · obtain ⟨before, rounds_eq⟩ : ∃ before, bracket.rounds.length = before + 2 :=
      ⟨bracket.rounds.length - 2, by omega⟩
    have slots_eq := List.getElem?_eq_getElem (show before < bracket.rounds.length by omega)
    generalize bracket.rounds[before] = slots at slots_eq
    have two : slots.length = 2 := by
      have size := coherent.sizes slots_eq
      rwa [rounds_eq, show before + 2 - 1 - before = 1 by omega] at size
    have semifinal : bracket.semifinalists = Knockout.losers (pairings slots) := by
      rw [semifinalists, if_pos (by omega), rounds_eq, Nat.add_sub_cancel, slots_eq,
        Option.getD_some, filter_played_loser, losers_pairings]
    have decided : ∀ p ∈ pairings slots, p.winner.isSome := by
      intro p member
      obtain ⟨m, m_mem, rfl⟩ := List.mem_map.mp member
      exact coherent.decided crowned m
        (List.mem_flatten.mpr ⟨slots, List.mem_of_getElem? slots_eq, m_mem⟩)
    have sound : ∀ p ∈ pairings slots, p.Sound := coherent.isKnockout.sound _
      (List.mem_map_of_mem (List.mem_of_getElem? slots_eq))
    rw [semifinal]
    cases before with
    | zero =>
        -- Round one is the semifinal: whoever did not win there lost, byes apart.
        obtain ⟨first, first_eq, seats⟩ := coherent.opening
        obtain rfl := Option.some.inj (slots_eq.symm.trans first_eq)
        have split := (Knockout.winners_losers_perm sound decided).length_eq
        rw [List.length_append, Knockout.winners_length_of_decided decided, pairings,
          List.length_map, two] at split
        rw [rounds_eq] at upper lower
        rw [← pairings, seats] at split
        split_ifs <;> omega
    | succ before =>
        -- A later round has no byes, so both semifinals were played.
        have all_played : ∀ p ∈ pairings slots, p.played := by
          intro p member
          obtain ⟨m, m_mem, rfl⟩ := List.mem_map.mp member
          obtain ⟨slot, m_found⟩ := List.getElem?_of_mem m_mem
          have found : bracket.get (before + 1) slot = some m :=
            get_eq_some_iff.mpr ⟨slots, slots_eq, m_found⟩
          have known := decided _ member
          have ready := coherent.ready before slot m found known
          rw [Match.isReady] at ready
          simp only [Knockout.Pairing.played, Match.pairing_left, Match.pairing_right, ready, known,
            Bool.true_and]
        rw [Knockout.losers_length sound, List.countP_eq_length.mpr all_played, pairings,
          List.length_map, two]
        have four : 2 ^ 2 ≤ 2 ^ (bracket.rounds.length - 1) :=
          Nat.pow_le_pow_right (by omega) (by omega)
        rw [if_neg (by omega), if_neg (by omega)]

end Bracket

/-! ## Payable prizes -/

section Payable

variable {entrants : List Entrant}

theorem Prize.award_eq_some {prize : Prize} {award : Award}
    (paid : prize.award entrants = some award) :
    playerOf entrants prize.entrant = some award.player ∧ award.kind = prize.kind ∧
      prize.kind.cycles (.forEntrants entrants.length) = some award.amount ∧
      award.sourceRef = prize.source := by
  obtain ⟨player, found, rest⟩ := Option.bind_eq_some_iff.mp paid
  obtain ⟨amount, cycles, made⟩ := Option.bind_eq_some_iff.mp rest
  obtain rfl := Option.some.inj made
  exact ⟨found, rfl, cycles, rfl⟩

theorem PointKind.exists_cycles {kind : PointKind} (fixed : kind ≠ .adjustment)
    (tier : FieldTier) : ∃ amount, kind.cycles tier = some amount := by
  cases kind with
  | adjustment => exact absurd rfl fixed
  | _ => cases tier <;> exact ⟨_, rfl⟩

/-- Whose account is there is paid what the kind pays. -/
theorem Prize.exists_award {prize : Prize} (account : (playerOf entrants prize.entrant).isSome)
    (fixed : prize.kind ≠ .adjustment) : ∃ award, prize.award entrants = some award := by
  obtain ⟨player, found⟩ := Option.isSome_iff_exists.mp account
  obtain ⟨amount, cycles⟩ :=
    PointKind.exists_cycles fixed (.forEntrants entrants.length)
  exact ⟨⟨player, amount, prize.kind, prize.source⟩, by simp [Prize.award, found, cycles]⟩

/-- The awards of one kind are those of the prizes of that kind. -/
theorem awards_of_kind (list : List Prize) (kind : PointKind) :
    (list.filterMap (Prize.award entrants)).filter (fun award => award.kind = kind) =
      (list.filter fun prize => prize.kind = kind).filterMap (Prize.award entrants) := by
  rw [List.filter_filterMap, List.filterMap_filter]
  refine List.filterMap_congr fun prize _ => ?_
  cases made : prize.award entrants with
  | none => simp
  | some award => simp [(Prize.award_eq_some made).2.1, Option.filter]

/-- Who is paid for what, when every account is there. -/
theorem awards_receipts {list : List Prize}
    (payable : ∀ prize ∈ list, ∃ award, prize.award entrants = some award) :
    (list.filterMap (Prize.award entrants)).map
        (fun award => (some award.player, award.sourceRef)) =
      list.map fun prize => (playerOf entrants prize.entrant, prize.source) := by
  induction list with
  | nil => rfl
  | cons prize rest ih =>
      obtain ⟨award, made⟩ := payable prize List.mem_cons_self
      obtain ⟨found, -, -, source_eq⟩ := Prize.award_eq_some made
      have later := ih fun other member => payable other (List.mem_cons_of_mem prize member)
      rw [List.filterMap_cons_some made, List.map_cons, List.map_cons, later, found, source_eq]

/-- Prizes of one kind pay the same each. -/
theorem awards_sum {list : List Prize} {kind : PointKind} {amount : Int}
    (payable : ∀ prize ∈ list, ∃ award, prize.award entrants = some award)
    (same : ∀ prize ∈ list, prize.kind = kind)
    (cycles : kind.cycles (.forEntrants entrants.length) = some amount) :
    ((list.filterMap (Prize.award entrants)).map Award.amount).sum = list.length * amount := by
  induction list with
  | nil => simp
  | cons prize rest ih =>
      obtain ⟨award, made⟩ := payable prize List.mem_cons_self
      obtain ⟨-, -, paid, -⟩ := Prize.award_eq_some made
      have later := ih (fun other member => payable other (List.mem_cons_of_mem prize member))
        fun other member => same other (List.mem_cons_of_mem prize member)
      rw [same prize List.mem_cons_self, cycles, Option.some.injEq] at paid
      rw [List.filterMap_cons_some made, List.map_cons, List.sum_cons, later, ← paid,
        List.length_cons, Int.natCast_add, Int.add_mul, Int.natCast_one, Int.one_mul, Int.add_comm]

end Payable

/-! ## The payout -/

/-- Who is paid, and for what. -/
def Award.receipt (award : Award) : Option PlayerId × UuidText :=
  (some award.player, award.sourceRef)

theorem prizes_of_kind (tournament : TournamentId) (field : List EntrantId) {bracket : Bracket}
    {final : Match} {champion finalist : EntrantId} (final_eq : bracket.finalMatch = some final)
    (won : final.winner = some champion) (lost : final.loser = some finalist) (kind : PointKind) :
    ((prizes tournament field bracket).filter fun prize => prize.kind = kind) =
      match kind with
      | .tournamentEntry => field.map fun entrant => ⟨entrant, .tournamentEntry, tournament.toText⟩
      | .matchWin => (bracket.flat.filter Match.isPlayed).filterMap Match.prize
      | .champion => [⟨champion, .champion, tournament.toText⟩]
      | .finalist => [⟨finalist, .finalist, tournament.toText⟩]
      | .semifinalist => bracket.semifinalists.map fun semifinalist =>
          ⟨semifinalist, .semifinalist, tournament.toText⟩
      | .checkin | .adjustment => [] := by
  have win_kind : ∀ m : Match, m.prize.filter (fun prize => prize.kind = kind) =
      if kind = .matchWin then m.prize else none := by
    intro m
    cases won : m.winner with
    | none => simp [Match.prize, won]
    | some winner => simp [Match.prize, won, Option.filter_some, eq_comm]
  rw [prizes, List.filter_append, List.filter_append]
  simp only [List.filter_map, Function.comp_def, Bracket.placed, final_eq, Option.bind_some, won,
    lost]
  cases kind with
  | _ =>
      simp [List.filter_filterMap, List.filter_map, Function.comp_def, win_kind]

/-- What a finished bracket pays a field whose accounts are all there. -/
structure Payout (tournament : TournamentId) (entrants : List Entrant) (bracket : Bracket)
    (final : Match) (awards : List Award) : Prop where
  /-- One entry for each entrant. -/
  entries : (awards.filter fun award => award.kind = .tournamentEntry).map Award.receipt =
    entrants.map fun entrant => (entrant.account, tournament.toText)
  /-- One win for each played match, to its winner and keyed by it. -/
  wins : (awards.filter fun award => award.kind = .matchWin).map Award.receipt =
    (bracket.flat.filter Match.isPlayed).map fun m =>
      (m.winner.bind (playerOf entrants), m.id.toText)
  win_count : (awards.countP fun award => award.kind = .matchWin) + 1 = entrants.length
  champion : (awards.filter fun award => award.kind = .champion).map Award.receipt =
    [(final.winner.bind (playerOf entrants), tournament.toText)]
  /-- The other side of the final. -/
  finalist : (awards.filter fun award => award.kind = .finalist).map Award.receipt =
    [(final.loser.bind (playerOf entrants), tournament.toText)]
  semifinalists : (awards.filter fun award => award.kind = .semifinalist).map Award.receipt =
    bracket.semifinalists.map fun entrant => (playerOf entrants entrant, tournament.toText)
  semifinalist_count : (awards.countP fun award => award.kind = .semifinalist) =
    if entrants.length = 2 then 0 else if entrants.length = 3 then 1 else 2
  /-- Nothing else is paid. -/
  only : ∀ award ∈ awards, award.kind ≠ .checkin ∧ award.kind ≠ .adjustment
  listed : ∀ award ∈ awards,
    CyclesRules.current.Lists award.kind entrants.length award.amount
  total : ∃ champion finalist semifinalist,
    CyclesRules.current.Lists .champion entrants.length champion ∧
      CyclesRules.current.Lists .finalist entrants.length finalist ∧
      CyclesRules.current.Lists .semifinalist entrants.length semifinalist ∧
      (awards.map Award.amount).sum = 40 * entrants.length + 30 * (entrants.length - 1) +
        champion + finalist +
        (awards.countP fun award => award.kind = .semifinalist) * semifinalist

section Payout

variable (tournament : TournamentId) {entrants : List Entrant} {seeded : List EntrantId}
  {bracket : Bracket}

/-- Whoever is placed won or lost a match. -/
theorem Bracket.mem_placed {entry : EntrantId × PointKind} (coherent : bracket.Coherent seeded)
    (member : entry ∈ bracket.placed) :
    ∃ m ∈ bracket.flat, m.winner = some entry.1 ∨ m.loser = some entry.1 := by
  obtain ⟨last, final, -, -, final_found, finalMatch_eq, -⟩ := coherent.final_eq
  have final_mem := mem_flat_iff.mpr ⟨last, 0, final_found⟩
  simp only [Bracket.placed, finalMatch_eq, Option.bind_some, List.mem_append, Option.mem_toList,
    Option.map_eq_some_iff, List.mem_map] at member
  rcases member with (⟨c, won, rfl⟩ | ⟨f, lost, rfl⟩) | ⟨s, semifinalist, rfl⟩
  · exact ⟨final, final_mem, Or.inl won⟩
  · exact ⟨final, final_mem, Or.inr lost⟩
  · rw [semifinalists, filter_played_loser] at semifinalist
    obtain ⟨m, m_mem, lost⟩ := List.mem_filterMap.mp semifinalist
    refine ⟨m, ?_, Or.inr lost⟩
    split_ifs at m_mem with rounds
    · have slots_eq := List.getElem?_eq_getElem
        (show bracket.rounds.length - 2 < bracket.rounds.length by omega)
      rw [slots_eq, Option.getD_some] at m_mem
      exact List.mem_flatten.mpr ⟨_, List.mem_of_getElem? slots_eq, m_mem⟩
    · cases m_mem

theorem Match.side_of_loser {m : Match} {loser : EntrantId} (lost : m.loser = some loser) :
    m.entrantA = some loser ∨ m.entrantB = some loser := by
  simp only [Match.loser, loserOf] at lost
  split at lost
  · rename_i a b w a_eq b_eq w_eq
    split_ifs at lost with won_a won_b
    · exact Or.inr (b_eq.trans lost)
    · exact Or.inl (a_eq.trans lost)
  · cases lost

/-- Every prize of a bracket is paid when the accounts are there. -/
private theorem prizes_payable (ids : (entrants.map Entrant.id).Nodup)
    (present : ∀ entrant ∈ entrants, entrant.account.isSome)
    (perm : seeded.Perm (entrants.map Entrant.id)) (coherent : bracket.Coherent seeded) :
    ∀ prize ∈ prizes tournament (entrants.map Entrant.id) bracket,
      ∃ award, prize.award entrants = some award := by
  have account : ∀ entrant ∈ entrants.map Entrant.id, (playerOf entrants entrant).isSome := by
    intro entrant member
    obtain ⟨e, e_mem, rfl⟩ := List.mem_map.mp member
    rw [playerOf_mem ids e_mem]
    exact present e e_mem
  have sides : ∀ m ∈ bracket.flat, ∀ entrant,
      m.entrantA = some entrant ∨ m.entrantB = some entrant →
        (playerOf entrants entrant).isSome := by
    intro m member entrant side
    obtain ⟨round, slot, found⟩ := Bracket.mem_flat_iff.mp member
    exact account entrant (perm.mem_iff.mp (coherent.side_mem found side))
  have winners : ∀ m ∈ bracket.flat, ∀ entrant, m.winner = some entrant →
      (playerOf entrants entrant).isSome := by
    intro m member entrant won
    obtain ⟨round, slot, found⟩ := Bracket.mem_flat_iff.mp member
    exact sides m member entrant (coherent.sound round slot m found entrant won)
  intro prize member
  rw [prizes, List.mem_append, List.mem_append] at member
  rcases member with (entry | win) | placed
  · obtain ⟨entrant, entrant_mem, rfl⟩ := List.mem_map.mp entry
    exact Prize.exists_award (account entrant entrant_mem) (by simp)
  · obtain ⟨m, m_mem, made⟩ := List.mem_filterMap.mp win
    obtain ⟨winner, won, rfl⟩ := Option.map_eq_some_iff.mp made
    exact Prize.exists_award (winners m (List.mem_filter.mp m_mem).1 winner won) (by simp)
  · obtain ⟨entry, entry_mem, rfl⟩ := List.mem_map.mp placed
    have fixed : entry.2 ≠ .adjustment := by
      intro adjustment
      have kind := mem_placed_kind entry_mem
      rw [adjustment] at kind
      cases kind
    obtain ⟨m, m_mem, won | lost⟩ := Bracket.mem_placed coherent entry_mem
    · exact Prize.exists_award (winners m m_mem entry.1 won) fixed
    · exact Prize.exists_award (sides m m_mem entry.1 (Match.side_of_loser lost)) fixed

/-- Every played match has a winner to pay. -/
private theorem wins_receipts (entrants : List Entrant) (played : List Match)
    (decided : ∀ m ∈ played, m.winner.isSome) :
    (played.filterMap Match.prize).map (fun prize =>
        (playerOf entrants prize.entrant, prize.source)) =
      played.map fun m => (m.winner.bind (playerOf entrants), m.id.toText) := by
  induction played with
  | nil => rfl
  | cons m rest ih =>
      obtain ⟨winner, won⟩ := Option.isSome_iff_exists.mp (decided m List.mem_cons_self)
      have later := ih fun other member => decided other (List.mem_cons_of_mem m member)
      have made : m.prize = some ⟨winner, .matchWin, m.id.toText⟩ := by
        rw [Match.prize, won, Option.map_some]
      rw [List.filterMap_cons_some made, List.map_cons, List.map_cons, later, won,
        Option.bind_some]

/-- Every prize of a list goes to an account. -/
private def HasPayees (entrants : List Entrant) (list : List Prize) : Prop :=
  ∀ prize ∈ list, ∃ award, prize.award entrants = some award

section Payable

variable {list : List Prize} (payable : HasPayees entrants list)

include payable

private theorem payable_receipts (kind : PointKind) :
    ((list.filterMap (Prize.award entrants)).filter fun award => award.kind = kind).map
        Award.receipt =
      (list.filter fun prize => prize.kind = kind).map fun prize =>
        (playerOf entrants prize.entrant, prize.source) := by
  rw [awards_of_kind]
  exact awards_receipts fun prize member => payable prize (List.mem_filter.mp member).1

private theorem payable_count (kind : PointKind) :
    ((list.filterMap (Prize.award entrants)).countP fun award => award.kind = kind) =
      (list.filter fun prize => prize.kind = kind).length := by
  simpa [List.countP_eq_length_filter] using congrArg List.length (payable_receipts payable kind)

private theorem payable_sum {kind : PointKind} {amount : Int}
    (cycles : kind.cycles (.forEntrants entrants.length) = some amount) :
    (((list.filterMap (Prize.award entrants)).filter fun award => award.kind = kind).map
        Award.amount).sum = (list.filter fun prize => prize.kind = kind).length * amount := by
  rw [awards_of_kind]
  exact awards_sum (fun prize member => payable prize (List.mem_filter.mp member).1)
    (fun prize member => by simpa using (List.mem_filter.mp member).2) cycles

/-- The sum of a conclusion, kind by kind. -/
private theorem payable_total {champion finalist semifinalist : Int}
    (only : ∀ award ∈ list.filterMap (Prize.award entrants),
      award.kind ≠ .checkin ∧ award.kind ≠ .adjustment)
    (champion_cycles : PointKind.champion.cycles (.forEntrants entrants.length) = some champion)
    (finalist_cycles : PointKind.finalist.cycles (.forEntrants entrants.length) = some finalist)
    (semifinalist_cycles :
      PointKind.semifinalist.cycles (.forEntrants entrants.length) = some semifinalist) :
    ((list.filterMap (Prize.award entrants)).map Award.amount).sum =
      (list.filter fun prize => prize.kind = .tournamentEntry).length * entryCycles +
        ((list.filter fun prize => prize.kind = .matchWin).length * matchWinCycles +
          ((list.filter fun prize => prize.kind = .champion).length * champion +
            ((list.filter fun prize => prize.kind = .finalist).length * finalist +
              (list.filter fun prize => prize.kind = .semifinalist).length * semifinalist))) := by
  have paid_kinds : ∀ award ∈ list.filterMap (Prize.award entrants), award.kind ∈
      [PointKind.tournamentEntry, .matchWin, .champion, .finalist, .semifinalist] := by
    intro award member
    obtain ⟨not_checkin, not_adjustment⟩ := only award member
    cases kind : award.kind with
    | checkin => exact absurd kind not_checkin
    | adjustment => exact absurd kind not_adjustment
    | _ => decide
  have entry_cycles : PointKind.tournamentEntry.cycles (.forEntrants entrants.length) =
      some entryCycles := rfl
  have win_cycles : PointKind.matchWin.cycles (.forEntrants entrants.length) =
      some matchWinCycles := rfl
  have by_kind := Ordered.flatMap_filter_perm Award.kind
    [.tournamentEntry, .matchWin, .champion, .finalist, .semifinalist]
    (list.filterMap (Prize.award entrants)) (by decide) paid_kinds
  rw [← (by_kind.map Award.amount).sum_eq]
  simp only [List.flatMap_cons, List.flatMap_nil, List.append_nil, List.map_append,
    List.sum_append]
  rw [payable_sum payable entry_cycles, payable_sum payable win_cycles,
    payable_sum payable champion_cycles, payable_sum payable finalist_cycles,
    payable_sum payable semifinalist_cycles]

end Payable

/-- A bracket with a champion pays exactly what is due to a field whose accounts are all there. -/
theorem Payout.of_champion (ids : (entrants.map Entrant.id).Nodup)
    (present : ∀ entrant ∈ entrants, entrant.account.isSome)
    (perm : seeded.Perm (entrants.map Entrant.id)) (drawn : bracket.Drawn seeded)
    {champion : EntrantId} (crowned : bracket.champion = some champion)
    (winner : Option EntrantId) :
    ∃ final, bracket.finalMatch = some final ∧ final.winner = some champion ∧
      Payout tournament entrants bracket final
        (tournamentAwards tournament entrants (some bracket) winner) := by
  have coherent := drawn.coherent
  have count : seeded.length = entrants.length := by simpa using perm.length_eq
  obtain ⟨positive, lower, -⟩ := drawn.rounds_bounds
  have two_le : 2 ≤ seeded.length := by
    have one_le : 1 ≤ 2 ^ (bracket.rounds.length - 1) := Nat.one_le_two_pow
    omega
  obtain ⟨final, finalist, final_eq, final_mem, won, lost⟩ := drawn.final_played two_le crowned
  refine ⟨final, final_eq, won, ?_⟩
  have payable : HasPayees entrants (prizes tournament (entrants.map Entrant.id) bracket) :=
    prizes_payable tournament ids present perm coherent
  have of_kind := prizes_of_kind tournament (entrants.map Entrant.id) final_eq won lost
  have only : ∀ award ∈ tournamentAwards tournament entrants (some bracket) winner,
      award.kind ≠ .checkin ∧ award.kind ≠ .adjustment :=
    fun award => tournamentAwards_kind
  rw [tournamentAwards_eq_prizes tournament bracket ids winner] at only ⊢
  generalize prizes_eq : prizes tournament (entrants.map Entrant.id) bracket = list at *
  have receipts := payable_receipts payable
  have counts := payable_count payable
  have wins := wins_receipts entrants (bracket.flat.filter Match.isPlayed) fun m member =>
    coherent.decided crowned m (List.mem_filter.mp member).1
  have win_count : (list.filter fun prize => prize.kind = .matchWin).length + 1 =
      entrants.length := by
    have played := coherent.playedCount_of_champion crowned
    have lengths := congrArg List.length wins
    rw [List.length_map, List.length_map] at lengths
    rw [of_kind, lengths, ← count, ← played, Bracket.playedCount, List.countP_eq_length_filter]
  have semifinalist_count : (list.filter fun prize => prize.kind = .semifinalist).length =
      if entrants.length = 2 then 0 else if entrants.length = 3 then 1 else 2 := by
    rw [of_kind, List.length_map, drawn.semifinalists_length two_le crowned, count]
  refine
    { entries := ?_, wins := ?_, win_count := ?_, champion := ?_, finalist := ?_
      semifinalists := ?_, semifinalist_count := ?_, only := only, listed := ?_, total := ?_ }
  · rw [receipts, of_kind, List.map_map, List.map_map]
    refine List.map_congr_left fun e member => ?_
    rw [Function.comp_apply, Function.comp_apply, playerOf_mem ids member]
  · rw [receipts, of_kind]
    exact wins
  · rw [counts, win_count]
  · rw [receipts, of_kind, won]
    rfl
  · rw [receipts, of_kind, lost]
    rfl
  · rw [receipts, of_kind, List.map_map]
    rfl
  · rw [counts, semifinalist_count]
  · intro award member
    obtain ⟨prize, -, made⟩ := List.mem_filterMap.mp member
    obtain ⟨-, kind_eq, paid, -⟩ := Prize.award_eq_some made
    exact PointKind.cycles_listed (count ▸ two_le) (kind_eq ▸ paid)
  · have listed : ∀ kind : PointKind, kind ≠ .adjustment → ∃ amount,
        kind.cycles (.forEntrants entrants.length) = some amount ∧
          CyclesRules.current.Lists kind entrants.length amount := by
      intro kind fixed
      obtain ⟨amount, cycles⟩ :=
        PointKind.exists_cycles fixed (.forEntrants entrants.length)
      exact ⟨amount, cycles, PointKind.cycles_listed (count ▸ two_le) cycles⟩
    obtain ⟨championAmount, champion_cycles, champion_listed⟩ := listed .champion (by simp)
    obtain ⟨finalistAmount, finalist_cycles, finalist_listed⟩ := listed .finalist (by simp)
    obtain ⟨semifinalistAmount, semifinalist_cycles, semifinalist_listed⟩ :=
      listed .semifinalist (by simp)
    refine ⟨championAmount, finalistAmount, semifinalistAmount, champion_listed, finalist_listed,
      semifinalist_listed, ?_⟩
    rw [payable_total payable only champion_cycles finalist_cycles semifinalist_cycles, counts]
    simp only [of_kind] at win_count
    simp only [of_kind, List.length_map, entryCycles, matchWinCycles, List.length_singleton]
    omega

/-! ## Deleted accounts -/

/-- An entrant whose account is gone keeps the entry and loses the player. -/
def Entrant.orphan (gone : Entrant → Bool) (entrant : Entrant) : Entrant :=
  if gone entrant then { entrant with player := none } else entrant

private theorem orphan_ids (entrants : List Entrant) (gone : Entrant → Bool) :
    (entrants.map (Entrant.orphan gone)).map Entrant.id = entrants.map Entrant.id := by
  rw [List.map_map]
  refine List.map_congr_left fun e _ => ?_
  rw [Function.comp_apply, Entrant.orphan]
  split_ifs <;> rfl

/-- The account was deleted. -/
private def deleted (entrants : List Entrant) (gone : Entrant → Bool) (player : PlayerId) : Bool :=
  entrants.any fun e => gone e && e.account = some player

private theorem playerOf_orphan (ids : (entrants.map Entrant.id).Nodup)
    (accounts : (entrants.filterMap Entrant.account).Nodup) (gone : Entrant → Bool)
    (entrant : EntrantId) :
    playerOf (entrants.map (Entrant.orphan gone)) entrant =
      (playerOf entrants entrant).filter fun player => !deleted entrants gone player := by
  by_cases entered : entrant ∈ entrants.map Entrant.id
  · obtain ⟨e, e_mem, rfl⟩ := List.mem_map.mp entered
    have after := playerOf_mem ((orphan_ids entrants gone).symm ▸ ids)
      (List.mem_map_of_mem (f := Entrant.orphan gone) e_mem)
    have same_id : (e.orphan gone).id = e.id := by
      unfold Entrant.orphan
      split_ifs <;> rfl
    rw [same_id] at after
    rw [after, playerOf_mem ids e_mem]
    cases account : e.account with
    | none =>
        unfold Entrant.orphan
        split_ifs
        · rfl
        · exact account
    | some player =>
        have only : deleted entrants gone player = gone e := by
          rw [deleted, Bool.eq_iff_iff, List.any_eq_true]
          constructor
          · rintro ⟨other, other_mem, both⟩
            obtain ⟨is_gone, other_account⟩ := by simpa using both
            rwa [entrant_eq_of_account accounts e_mem other_mem account other_account]
          · intro is_gone
            exact ⟨e, e_mem, by simp [is_gone, account]⟩
        rw [Option.filter_some, only, Entrant.orphan]
        cases gone e with
        | true => rfl
        | false => exact account
  · have missing : ∀ list : List Entrant, entrant ∉ list.map Entrant.id →
        playerOf list entrant = none := by
      intro list absent
      rw [playerOf, List.find?_eq_none.mpr, Option.bind_none]
      intro e member same
      exact absent (List.mem_map.mpr ⟨e, member, by simpa using same⟩)
    rw [missing _ entered, missing _ ((orphan_ids entrants gone).symm ▸ entered)]
    rfl

/-- When accounts are deleted, the awards are the same without those of their entrants. -/
theorem tournamentAwards_orphan (ids : (entrants.map Entrant.id).Nodup)
    (accounts : (entrants.filterMap Entrant.account).Nodup) (gone : Entrant → Bool)
    (winner : Option EntrantId) :
    tournamentAwards tournament (entrants.map (Entrant.orphan gone)) (some bracket) winner =
      (tournamentAwards tournament entrants (some bracket) winner).filter fun award =>
        !entrants.any fun e => gone e && e.account = some award.player := by
  rw [tournamentAwards_eq_prizes tournament bracket ((orphan_ids entrants gone).symm ▸ ids) winner,
    orphan_ids, tournamentAwards_eq_prizes tournament bracket ids winner, List.filter_filterMap]
  refine List.filterMap_congr fun prize _ => ?_
  change _ = (prize.award entrants).filter fun award => !deleted entrants gone award.player
  simp only [Prize.award, playerOf_orphan ids accounts, List.length_map]
  cases playerOf entrants prize.entrant with
  | none => rfl
  | some player =>
      cases prize.kind.cycles (.forEntrants entrants.length) with
      | none => simp
      | some amount => cases kept : deleted entrants gone player <;> simp [Option.filter_some, kept]

end Payout

/-- What a finished bracket pays.  A field of distinct entrants with distinct accounts is paid one
entry each, one win for each of the matches, one less than entrants, a champion, a finalist and
the losers of the semifinal, at the amounts the published rules list, and where accounts are
deleted the same without theirs. -/
theorem tournamentAwards_payout (tournament : TournamentId) (entrants : List Entrant)
    (seeded : List EntrantId) (bracket : Bracket) (winner : Option EntrantId)
    (champion : EntrantId) (ids : (entrants.map Entrant.id).Nodup)
    (accounts : (entrants.filterMap Entrant.account).Nodup)
    (present : ∀ entrant ∈ entrants, entrant.account.isSome)
    (perm : seeded.Perm (entrants.map Entrant.id)) (drawn : bracket.Drawn seeded)
    (crowned : bracket.champion = some champion) :
    (∃ final, bracket.finalMatch = some final ∧ final.winner = some champion ∧
      Payout tournament entrants bracket final
        (tournamentAwards tournament entrants (some bracket) winner)) ∧
    ∀ gone : Entrant → Bool,
      tournamentAwards tournament (entrants.map (Entrant.orphan gone)) (some bracket) winner =
        (tournamentAwards tournament entrants (some bracket) winner).filter fun award =>
          !entrants.any fun e => gone e && e.account = some award.player :=
  ⟨Payout.of_champion tournament ids present perm drawn crowned winner,
    fun gone => tournamentAwards_orphan tournament ids accounts gone winner⟩

namespace Quartet

/-- The account of this number, and its entry. -/
def entrant (number : Nat) (letter : Char) (valid : [letter, letter, letter].all isHandleChar) :
    Entrant where
  id := ⟨10 + number⟩
  player := some ⟨⟨number⟩,
    ⟨[letter, letter, letter], valid, Handle.triple_long letter, Handle.triple_short letter⟩,
    .user, false, Standing.new 0 none 0, number⟩
  seed := some number
  skill := none
  registeredAt := number

def field : List Entrant :=
  [entrant 1 'f' rfl, entrant 2 'g' rfl, entrant 3 'h' rfl, entrant 4 'i' rfl]

/-- The final, after the seeds 1 and 3 won their matches. -/
def final : Match := ⟨⟨2⟩, 2, 0, some ⟨11⟩, some ⟨13⟩, some ⟨11⟩⟩

def bracket : Bracket where
  rounds := [[⟨⟨0⟩, 1, 0, some ⟨11⟩, some ⟨12⟩, some ⟨11⟩⟩,
      ⟨⟨1⟩, 1, 1, some ⟨13⟩, some ⟨14⟩, some ⟨13⟩⟩],
    [final]]

theorem bracket_drawn : bracket.Drawn [⟨11⟩, ⟨12⟩, ⟨13⟩, ⟨14⟩] :=
  ⟨fun index => ⟨index⟩, _, [.report ⟨0⟩ ⟨11⟩, .report ⟨1⟩ ⟨13⟩, .report ⟨2⟩ ⟨11⟩], rfl,
    by decide, by decide⟩

end Quartet

open Quartet in
/-- Four entrants after their final, and again with the account of a semifinalist deleted. -/
theorem tournamentAwards_payout_four :
    Payout ⟨1⟩ field bracket final (tournamentAwards ⟨1⟩ field (some bracket) none) ∧
      (tournamentAwards ⟨1⟩ (field.map (Entrant.orphan fun e => e.id = ⟨14⟩)) (some bracket)
          none).map (fun award => (award.player, award.kind)) =
        [(⟨1⟩, .tournamentEntry), (⟨2⟩, .tournamentEntry), (⟨3⟩, .tournamentEntry),
          (⟨1⟩, .matchWin), (⟨3⟩, .matchWin), (⟨1⟩, .matchWin),
          (⟨1⟩, .champion), (⟨3⟩, .finalist), (⟨2⟩, .semifinalist)] := by
  obtain ⟨⟨last, last_eq, -, payout⟩, orphaned⟩ := tournamentAwards_payout ⟨1⟩ field
    [⟨11⟩, ⟨12⟩, ⟨13⟩, ⟨14⟩] bracket none ⟨11⟩ (by decide) (by decide) (by decide) (by decide)
    bracket_drawn rfl
  obtain rfl : final = last := Option.some.inj last_eq
  refine ⟨payout, ?_⟩
  rw [orphaned fun e => e.id = ⟨14⟩]
  decide

end LanBunker
