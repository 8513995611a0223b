import LanBunker.Brackets.Elimination
import LanBunker.Relational.Lookup

/-!
# What a conclusion pays

The awards of a concluded tournament never meet the unique index of the ledger: entries differ in
the account, wins in the match, and the placed entrants are distinct because the finalists are
winners of the semifinal round and the semifinalists its losers.
-/

namespace LanBunker

open Knockout Relational

/-! ## Accounts -/

section Accounts

variable {entrants : List Entrant}

theorem playerOf_eq_some {entrant : EntrantId} {player : PlayerId}
    (found : playerOf entrants entrant = some player) :
    ∃ e ∈ entrants, e.id = entrant ∧ e.account = some player := by
  obtain ⟨e, e_found, account⟩ := Option.bind_eq_some_iff.mp found
  obtain ⟨e_mem, e_id⟩ := find?_key_eq_some e_found
  exact ⟨e, e_mem, e_id, account⟩

/-- With distinct ids, an entry is found by its id. -/
theorem playerOf_mem (ids : (entrants.map Entrant.id).Nodup) {entrant : Entrant}
    (member : entrant ∈ entrants) : playerOf entrants entrant.id = entrant.account := by
  rw [playerOf, find?_key_of_mem ids member, Option.bind_some]

/-- With distinct accounts, an account stands behind one entry. -/
theorem entrant_eq_of_account (accounts : (entrants.filterMap Entrant.account).Nodup)
    {left right : Entrant} (left_mem : left ∈ entrants) (right_mem : right ∈ entrants)
    {player : PlayerId} (left_account : left.account = some player)
    (right_account : right.account = some player) : left = right :=
  eq_of_filterMap_nodup accounts left_mem right_mem left_account right_account

theorem playerOf_inj (accounts : (entrants.filterMap Entrant.account).Nodup)
    {left right : EntrantId} {player : PlayerId} (left_found : playerOf entrants left = some player)
    (right_found : playerOf entrants right = some player) : left = right := by
  obtain ⟨l, l_mem, rfl, l_account⟩ := playerOf_eq_some left_found
  obtain ⟨r, r_mem, rfl, r_account⟩ := playerOf_eq_some right_found
  rw [entrant_eq_of_account accounts l_mem r_mem l_account r_account]

end Accounts

/-! ## One award -/

section Award

variable {tournament : TournamentId} {entrants : List Entrant} {award : Award}

theorem mem_entryAwards (member : award ∈ entryAwards tournament entrants) :
    award.kind = .tournamentEntry ∧ award.amount = entryCycles ∧
      ∃ e ∈ entrants, e.account = some award.player := by
  obtain ⟨e, e_mem, made⟩ := List.mem_filterMap.mp member
  obtain ⟨player, account, rfl⟩ := Option.map_eq_some_iff.mp made
  exact ⟨rfl, rfl, e, e_mem, account⟩

theorem placement_eq_some {entrant : EntrantId} {kind : PointKind}
    (placed : placement tournament entrants entrant kind = some award) :
    playerOf entrants entrant = some award.player ∧ award.kind = kind ∧
      kind.cycles (.forEntrants entrants.length) = some award.amount ∧
      award.sourceRef = tournament.toText := by
  obtain ⟨player, found, rest⟩ := Option.bind_eq_some_iff.mp placed
  obtain ⟨amount, paid, made⟩ := Option.bind_eq_some_iff.mp rest
  obtain rfl := Option.some.inj made
  exact ⟨found, rfl, paid, rfl⟩

theorem winAward_eq_some {m : Match} (won : winAward entrants m = some award) :
    award.kind = .matchWin ∧ award.amount = matchWinCycles ∧ award.sourceRef = m.id.toText ∧
      ∃ winner, m.winner = some winner ∧ playerOf entrants winner = some award.player := by
  obtain ⟨winner, decided, rest⟩ := Option.bind_eq_some_iff.mp won
  obtain ⟨player, found, made⟩ := Option.bind_eq_some_iff.mp rest
  obtain rfl := Option.some.inj made
  exact ⟨rfl, rfl, rfl, winner, decided, found⟩

end Award

/-! ## The placed entrants -/

/-- The champion, the finalist and the semifinalists of a bracket, with the kind each is paid. -/
def Bracket.placed (bracket : Bracket) : List (EntrantId × PointKind) :=
  ((bracket.finalMatch.bind Match.winner).map fun c => (c, PointKind.champion)).toList ++
    ((bracket.finalMatch.bind Match.loser).map fun f => (f, PointKind.finalist)).toList ++
    bracket.semifinalists.map fun s => (s, PointKind.semifinalist)

section Placed

variable (tournament : TournamentId) (entrants : List Entrant)

private theorem toList_bind_eq {α β γ : Type*} (item : Option α) (pair : α → β)
    (make : α → Option γ) (make' : β → Option γ) (same : ∀ a, make a = make' (pair a)) :
    (item.bind make).toList = (item.map pair).toList.filterMap make' := by
  cases item with
  | none => rfl
  | some a =>
      rw [Option.bind_some, Option.map_some, Option.toList_some, same]
      cases made : make' (pair a) with
      | none => simp [made]
      | some c => simp [made]

theorem placementAwards_eq (bracket : Bracket) :
    placementAwards tournament entrants bracket =
      bracket.placed.filterMap fun (entrant, kind) =>
        placement tournament entrants entrant kind := by
  simp only [placementAwards, Bracket.placed, List.filterMap_append, List.filterMap_map]
  congr 1
  congr 1
  · exact toList_bind_eq _ _ _ _ fun _ => rfl
  · exact toList_bind_eq _ _ _ _ fun _ => rfl

/-- Distinct placed entrants are paid on distinct accounts. -/
theorem placed_players_nodup (accounts : (entrants.filterMap Entrant.account).Nodup)
    {placed : List (EntrantId × PointKind)} (distinct : (placed.map Prod.fst).Nodup) :
    ((placed.filterMap fun (entrant, kind) => placement tournament entrants entrant kind).map
      Award.player).Nodup := by
  rw [List.Nodup, List.pairwise_map] at distinct
  rw [List.Nodup, List.pairwise_map, List.pairwise_filterMap]
  refine distinct.imp fun {left right} apart leftAward left_paid rightAward right_paid same => ?_
  have left_found := (placement_eq_some left_paid).1
  have right_found := (placement_eq_some right_paid).1
  rw [same] at left_found
  exact apart (playerOf_inj accounts left_found right_found)

end Placed

namespace Bracket

variable {seeded : List EntrantId} {bracket : Bracket}

/-- Nobody is placed twice. -/
theorem Coherent.placed_nodup (coherent : Coherent seeded bracket) (distinct : seeded.Nodup) :
    (bracket.placed.map Prod.fst).Nodup := by
  obtain ⟨last, final, last_eq, final_eq, final_found, finalMatch_eq, -⟩ := coherent.final_eq
  have names : bracket.placed.map Prod.fst =
      (final.winner.toList ++ final.loser.toList) ++ bracket.semifinalists := by
    rw [Bracket.placed, finalMatch_eq, Option.bind_some, Option.bind_some]
    simp only [List.map_append, List.map_map]
    congr 1
    · cases final.winner <;> cases final.loser <;> rfl
    · exact List.map_id _
  have final_sound := coherent.sound last 0 final final_found
  have finalists : (final.winner.toList ++ final.loser.toList).Subperm
      final.pairing.competitors := by
    simpa using Pairing.winner_loser_subperm final_sound
  have final_slots : bracket.rounds[last]? = some [final] := by
    rw [List.getLast?_eq_getElem?, last_eq, Nat.add_sub_cancel] at final_eq
    exact final_eq
  have final_competitors : competitors (pairings [final]) = final.pairing.competitors := by
    simp [competitors, pairings]
  rw [names]
  cases last with
  | zero =>
      -- A bracket of two has no semifinal, so the final alone places.
      have no_semifinal : bracket.semifinalists = [] := by
        simp [semifinalists, last_eq]
      have final_nodup := coherent.competitors_nodup distinct final_slots
      rw [final_competitors] at final_nodup
      obtain ⟨split, split_perm, sublist⟩ := finalists
      rw [no_semifinal, List.append_nil]
      exact split_perm.nodup_iff.mp (final_nodup.sublist sublist)
  | succ last =>
      -- The finalists won the semifinal round and the semifinalists lost it.
      have semifinal_lt : last < bracket.rounds.length := by omega
      have semifinal_slots := List.getElem?_eq_getElem semifinal_lt
      have feeds := coherent.feeds last _ _ semifinal_slots final_slots
      have sound : ∀ p ∈ pairings bracket.rounds[last], p.Sound :=
        coherent.isKnockout.sound _
          (List.mem_map_of_mem (List.mem_of_getElem? semifinal_slots))
      have split_nodup :=
        winners_losers_nodup sound (coherent.competitors_nodup distinct semifinal_slots)
      have semifinalists_eq : bracket.semifinalists =
          Knockout.losers (pairings bracket.rounds[last]) := by
        have index_eq : bracket.rounds.length - 2 = last := by omega
        rw [semifinalists, if_pos (by omega), index_eq, semifinal_slots, Option.getD_some,
          filter_played_loser, losers_pairings]
      rw [← feeds.competitors_eq, final_competitors] at split_nodup
      rw [semifinalists_eq]
      have subperm := finalists.append
        (List.Subperm.refl (Knockout.losers (pairings bracket.rounds[last])))
      obtain ⟨split, split_perm, sublist⟩ := subperm
      exact split_perm.nodup_iff.mp (split_nodup.sublist sublist)

end Bracket

/-! ## All awards -/

section Keys

variable (tournament : TournamentId) {entrants : List Entrant}

theorem entryAwards_keys (accounts : (entrants.filterMap Entrant.account).Nodup) :
    ((entryAwards tournament entrants).map Award.key).Nodup := by
  rw [List.Nodup, List.pairwise_filterMap] at accounts
  rw [List.Nodup, entryAwards, List.pairwise_map, List.pairwise_filterMap]
  refine accounts.imp fun {left right} apart leftAward left_made rightAward right_made same => ?_
  obtain ⟨leftPlayer, left_account, rfl⟩ := Option.map_eq_some_iff.mp left_made
  obtain ⟨rightPlayer, right_account, rfl⟩ := Option.map_eq_some_iff.mp right_made
  simp only [Award.key, Prod.mk.injEq] at same
  exact apart leftPlayer left_account rightPlayer right_account same.2.1

theorem winAwards_keys (entrants : List Entrant) {bracket : Bracket} (ids : bracket.DistinctIds) :
    ((winAwards entrants bracket).map Award.key).Nodup := by
  rw [Bracket.DistinctIds, List.Nodup, List.pairwise_map] at ids
  rw [List.Nodup, winAwards, List.pairwise_map, List.pairwise_filterMap]
  refine (ids.sublist List.filter_sublist).imp
    fun {left right} apart leftAward left_won rightAward right_won same => ?_
  have left_source := (winAward_eq_some left_won).2.2.1
  have right_source := (winAward_eq_some right_won).2.2.1
  simp only [Award.key, Prod.mk.injEq] at same
  rw [left_source, right_source, Id.toText_inj] at same
  exact apart same.2.2

theorem keys_of_players {awards : List Award} (players : (awards.map Award.player).Nodup) :
    (awards.map Award.key).Nodup := by
  rw [List.Nodup, List.pairwise_map] at players ⊢
  refine players.imp fun {left right} apart same => ?_
  simp only [Award.key, Prod.mk.injEq] at same
  exact apart same.2.1

/-- The kinds of a placement. -/
def PointKind.isPlacement (kind : PointKind) : Bool :=
  kind == .champion || kind == .finalist || kind == .semifinalist

theorem mem_placed_kind {bracket : Bracket} {entry : EntrantId × PointKind}
    (member : entry ∈ bracket.placed) : entry.2.isPlacement := by
  simp only [Bracket.placed, List.mem_append, Option.mem_toList, Option.map_eq_some_iff,
    List.mem_map] at member
  rcases member with (⟨c, -, rfl⟩ | ⟨f, -, rfl⟩) | ⟨s, -, rfl⟩ <;> rfl

private theorem keys_append {left right : List Award} (left_keys : (left.map Award.key).Nodup)
    (right_keys : (right.map Award.key).Nodup)
    (kinds : ∀ a ∈ left, ∀ b ∈ right, a.kind ≠ b.kind) :
    ((left ++ right).map Award.key).Nodup := by
  rw [List.map_append, List.nodup_append]
  refine ⟨left_keys, right_keys, ?_⟩
  intro leftKey left_mem rightKey right_mem same
  obtain ⟨a, a_mem, rfl⟩ := List.mem_map.mp left_mem
  obtain ⟨b, b_mem, rfl⟩ := List.mem_map.mp right_mem
  exact kinds a a_mem b b_mem (congrArg Prod.fst same)

end Keys

/-- The placements of a conclusion, with or without a bracket. -/
def conclusionPlacements (tournament : TournamentId) (entrants : List Entrant)
    (bracket : Option Bracket) (winner : Option EntrantId) : List Award :=
  match bracket with
  | none => (winner.bind fun w => placement tournament entrants w .champion).toList
  | some bracket => placementAwards tournament entrants bracket

/-- The wins of a conclusion. -/
def conclusionWins (entrants : List Entrant) (bracket : Option Bracket) : List Award :=
  (bracket.map (winAwards entrants)).getD []

section Conclusion

variable {tournament : TournamentId} {entrants : List Entrant} {bracket : Option Bracket}
  {winner : Option EntrantId}

theorem tournamentAwards_eq :
    tournamentAwards tournament entrants bracket winner =
      entryAwards tournament entrants ++ conclusionWins entrants bracket ++
        conclusionPlacements tournament entrants bracket winner := by
  cases bracket with
  | none => simp [tournamentAwards, conclusionWins, conclusionPlacements]
  | some bracket => rfl

theorem mem_conclusionPlacements {award : Award}
    (member : award ∈ conclusionPlacements tournament entrants bracket winner) :
    award.kind.isPlacement ∧ ∃ entrant, playerOf entrants entrant = some award.player ∧
      award.kind.cycles (.forEntrants entrants.length) = some award.amount := by
  cases bracket with
  | none =>
      obtain ⟨w, -, placed⟩ := Option.bind_eq_some_iff.mp (Option.mem_toList.mp member)
      obtain ⟨found, kind_eq, paid, -⟩ := placement_eq_some placed
      exact ⟨by rw [kind_eq]; rfl, w, found, by rw [kind_eq]; exact paid⟩
  | some bracket =>
      rw [conclusionPlacements, placementAwards_eq] at member
      obtain ⟨⟨entrant, kind⟩, placed_mem, placed⟩ := List.mem_filterMap.mp member
      obtain ⟨found, kind_eq, paid, -⟩ := placement_eq_some placed
      exact ⟨by rw [kind_eq]; exact mem_placed_kind placed_mem, entrant, found,
        by rw [kind_eq]; exact paid⟩

theorem mem_conclusionWins {award : Award} (member : award ∈ conclusionWins entrants bracket) :
    award.kind = .matchWin ∧ award.amount = matchWinCycles ∧
      ∃ entrant, playerOf entrants entrant = some award.player := by
  cases bracket with
  | none => simp [conclusionWins] at member
  | some bracket =>
      obtain ⟨m, -, won⟩ := List.mem_filterMap.mp member
      obtain ⟨kind, amount, -, w, -, found⟩ := winAward_eq_some won
      exact ⟨kind, amount, w, found⟩

/-- Every award goes to the account of an entrant. -/
theorem tournamentAwards_account {award : Award}
    (member : award ∈ tournamentAwards tournament entrants bracket winner) :
    ∃ e ∈ entrants, e.account = some award.player := by
  rw [tournamentAwards_eq, List.mem_append, List.mem_append] at member
  rcases member with (entry | win) | placed
  · exact (mem_entryAwards entry).2.2
  · obtain ⟨-, -, entrant, found⟩ := mem_conclusionWins win
    obtain ⟨e, e_mem, -, account⟩ := playerOf_eq_some found
    exact ⟨e, e_mem, account⟩
  · obtain ⟨-, entrant, found, -⟩ := mem_conclusionPlacements placed
    obtain ⟨e, e_mem, -, account⟩ := playerOf_eq_some found
    exact ⟨e, e_mem, account⟩

/-- A conclusion never pays a check-in or an adjustment. -/
theorem tournamentAwards_kind {award : Award}
    (member : award ∈ tournamentAwards tournament entrants bracket winner) :
    award.kind ≠ .checkin ∧ award.kind ≠ .adjustment := by
  rw [tournamentAwards_eq, List.mem_append, List.mem_append] at member
  rcases member with (entry | win) | placed
  · simp [(mem_entryAwards entry).1]
  · simp [(mem_conclusionWins win).1]
  · have kind := (mem_conclusionPlacements placed).1
    constructor
    · intro checkin
      simp [checkin, PointKind.isPlacement] at kind
    · intro adjustment
      simp [adjustment, PointKind.isPlacement] at kind

theorem conclusionPlacements_players (ids : (entrants.map Entrant.id).Nodup)
    (accounts : (entrants.filterMap Entrant.account).Nodup)
    (drawn : ∀ b, bracket = some b → ∃ seeded, seeded.Perm (entrants.map Entrant.id) ∧
      Bracket.Drawn seeded b) :
    ((conclusionPlacements tournament entrants bracket winner).map Award.player).Nodup := by
  cases bracket with
  | none =>
      rw [conclusionPlacements]
      cases winner.bind fun w => placement tournament entrants w .champion <;> simp
  | some b =>
      obtain ⟨seeded, perm, drawn⟩ := drawn b rfl
      rw [conclusionPlacements, placementAwards_eq]
      exact placed_players_nodup tournament entrants accounts
        (drawn.coherent.placed_nodup (perm.nodup_iff.mpr ids))

end Conclusion

/-- A conclusion never trips the unique index of the ledger.  For entrants with distinct ids and
distinct accounts, and any bracket that calls can make of a draw over them, the awards have
distinct keys, nobody is placed twice, and every award goes to the account of an entrant. -/
theorem tournamentAwards_distinct (tournament : TournamentId) (entrants : List Entrant)
    (bracket : Option Bracket) (winner : Option EntrantId)
    (ids : (entrants.map Entrant.id).Nodup)
    (accounts : (entrants.filterMap Entrant.account).Nodup)
    (drawn : ∀ b, bracket = some b → ∃ seeded, seeded.Perm (entrants.map Entrant.id) ∧
      Bracket.Drawn seeded b) :
    ((tournamentAwards tournament entrants bracket winner).map Award.key).Nodup ∧
      (∀ player, ((tournamentAwards tournament entrants bracket winner).filter fun award =>
        award.player = player ∧ award.kind.isPlacement).length ≤ 1) ∧
      ∀ award ∈ tournamentAwards tournament entrants bracket winner,
        ∃ e ∈ entrants, e.account = some award.player := by
  have players : ((conclusionPlacements tournament entrants bracket winner).map
      Award.player).Nodup := conclusionPlacements_players ids accounts drawn
  have placed_once : ∀ player, ((conclusionPlacements tournament entrants bracket winner).filter
      fun award => award.player = player ∧ award.kind.isPlacement).length ≤ 1 := by
    intro player
    have once := List.nodup_iff_count_le_one.mp players player
    rw [List.count, List.countP_map] at once
    rw [← List.countP_eq_length_filter]
    refine le_trans (List.countP_mono_left fun award _ both => ?_) once
    simp only [decide_eq_true_eq] at both
    simpa using both.1
  have wins_keys : ((conclusionWins entrants bracket).map Award.key).Nodup := by
    cases bracket with
    | none => simp [conclusionWins]
    | some b =>
        obtain ⟨seeded, -, is_drawn⟩ := drawn b rfl
        exact winAwards_keys entrants is_drawn.distinctIds
  refine ⟨?_, ?_, fun award => tournamentAwards_account⟩
  · rw [tournamentAwards_eq]
    refine keys_append (keys_append (entryAwards_keys tournament accounts) wins_keys ?_)
      (keys_of_players players) ?_
    · intro a a_mem b b_mem
      simp [(mem_entryAwards a_mem).1, (mem_conclusionWins b_mem).1]
    · intro a a_mem b b_mem same
      have placed := (mem_conclusionPlacements b_mem).1
      rw [← same] at placed
      rcases List.mem_append.mp a_mem with entry | win
      · simp [(mem_entryAwards entry).1, PointKind.isPlacement] at placed
      · simp [(mem_conclusionWins win).1, PointKind.isPlacement] at placed
  · intro player
    have no_entry : (entryAwards tournament entrants).filter (fun award =>
        award.player = player ∧ award.kind.isPlacement) = [] := by
      rw [List.filter_eq_nil_iff]
      intro award member
      simp [(mem_entryAwards member).1, PointKind.isPlacement]
    have no_win : (conclusionWins entrants bracket).filter (fun award =>
        award.player = player ∧ award.kind.isPlacement) = [] := by
      rw [List.filter_eq_nil_iff]
      intro award member
      simp [(mem_conclusionWins member).1, PointKind.isPlacement]
    rw [tournamentAwards_eq, List.filter_append, List.filter_append, no_entry, no_win]
    exact placed_once player

/-- Two entrants, one of them without an account, after their final. -/
theorem tournamentAwards_distinct_pair :
    let player : Player := ⟨⟨7⟩, ⟨['a', 'd', 'a'], by decide, by decide, by decide⟩, .user, false,
      Standing.new 0 none 0, 1⟩
    let entrants : List Entrant := [⟨⟨10⟩, some player, some 1, none, 1⟩,
      ⟨⟨11⟩, none, some 2, none, 2⟩]
    let final : Bracket := { rounds := [[⟨⟨0⟩, 1, 0, some ⟨10⟩, some ⟨11⟩, some ⟨10⟩⟩]] }
    ((tournamentAwards ⟨1⟩ entrants (some final) none).map Award.key).Nodup ∧
      (tournamentAwards ⟨1⟩ entrants (some final) none).map Award.amount = [40, 30, 120] := by
  intro player entrants final
  refine ⟨(tournamentAwards_distinct ⟨1⟩ entrants (some final) none (by decide) (by decide)
    ?_).1, by decide⟩
  intro b b_eq
  obtain rfl : final = b := Option.some.inj b_eq
  refine ⟨[⟨10⟩, ⟨11⟩], by decide, fun index => ⟨index⟩, _, [.report ⟨0⟩ ⟨10⟩], rfl, ?_, ?_⟩
  · decide
  · decide

/-! ## The same field in another order -/

/-- What the awards look at of an entrant. -/
def Entrant.payee (entrant : Entrant) : EntrantId × Option PlayerId := (entrant.id, entrant.account)

section Payees

variable {left right : List Entrant}
  (same : (left.map Entrant.payee).Perm (right.map Entrant.payee))
  (ids : (left.map Entrant.id).Nodup)

include same ids

theorem playerOf_perm (entrant : EntrantId) : playerOf left entrant = playerOf right entrant := by
  have right_ids : (right.map Entrant.id).Nodup := by
    have firsts := same.map Prod.fst
    rw [List.map_map, List.map_map] at firsts
    exact firsts.nodup_iff.mp ids
  have transfer : ∀ {from_list to_list : List Entrant}, (to_list.map Entrant.id).Nodup →
      (from_list.map Entrant.payee) ⊆ (to_list.map Entrant.payee) → ∀ {player},
        playerOf from_list entrant = some player → playerOf to_list entrant = some player := by
    intro from_list to_list distinct contained player found
    obtain ⟨e, e_mem, rfl, account⟩ := playerOf_eq_some found
    obtain ⟨other, other_mem, payee_eq⟩ :=
      List.mem_map.mp (contained (List.mem_map_of_mem e_mem))
    obtain ⟨id_eq, account_eq⟩ := Prod.mk.inj payee_eq
    rw [← id_eq, playerOf_mem distinct other_mem, account_eq, account]
  refine Option.ext fun player => ⟨fun found => ?_, fun found => ?_⟩
  · exact transfer right_ids same.subset found
  · exact transfer ids same.symm.subset found

/-- The awards depend on who was in and with which account, not on the order of the list. -/
theorem tournamentAwards_perm (tournament : TournamentId) (bracket : Option Bracket)
    (winner : Option EntrantId) :
    (tournamentAwards tournament left bracket winner).Perm
      (tournamentAwards tournament right bracket winner) := by
  have players := playerOf_perm same ids
  have lengths : left.length = right.length := by simpa using same.length_eq
  have entries : (entryAwards tournament left).Perm (entryAwards tournament right) := by
    have by_payee : ∀ entrants, entryAwards tournament entrants =
        (entrants.map Entrant.payee).filterMap fun payee => payee.2.map fun player =>
          { player, amount := entryCycles, kind := .tournamentEntry
            sourceRef := tournament.toText } := by
      intro entrants
      rw [List.filterMap_map]
      rfl
    rw [by_payee, by_payee]
    exact same.filterMap _
  have placements : placement tournament left = placement tournament right := by
    funext entrant kind
    rw [placement, placement, players, lengths]
  cases bracket with
  | none =>
      rw [tournamentAwards, tournamentAwards, placements]
      exact entries.append_right _
  | some drawn =>
      have wins : winAward left = winAward right := by
        funext m
        simp only [winAward, players]
      rw [tournamentAwards, tournamentAwards, placementAwards, placementAwards, placements,
        winAwards, winAwards, wins]
      exact (entries.append_right _).append_right _

end Payees
end LanBunker
