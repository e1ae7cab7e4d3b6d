import Boardgame.Kingdoms.FirstPass

/-!
# Kingdoms.Consistent

The board of a Kingdoms game is consistent in every state a run reaches.

* `fresh_board`, `fresh_firstPasses`: the invariants hold of the fresh state.
* `board_reachable`: they hold of every reachable state.
* `reachable_consistent`: what they say of pieces, tiles and players.
-/

namespace Boardgame.Kingdoms

variable {R : Type}

/-! ## The fresh board -/

section Fresh

variable {opts : GameSetupOptions} {s : KState R}

theorem seat_entry_of_tile {players : List Player} (hn : 2 ≤ players.length ∧ players.length ≤ 4)
    {e e' : Player × TileId} (he : e ∈ seats players) (he' : e' ∈ seats players) (h : e.2 = e'.2) :
    e = e' := by
  have hnd : ((seats players).map fun e => e.2).Nodup := by
    have := seats_tiles_nodup hn
    rwa [List.map_map] at this
  exact List.inj_on_of_nodup_map hnd he he' h

/-- No starting piece has a number. -/
theorem startingIds_unnumbered {id : PlayerId} {i : PieceId} (h : i ∈ startingIds id) (n : Nat) :
    i ≠ "kp-" ++ toString n := by
  simp only [startingIds, List.mem_cons, List.not_mem_nil, or_false] at h
  rcases h with rfl | rfl | rfl | rfl <;> simp [← String.toList_inj]

theorem fresh_board (hf : Fresh opts s) (hid : (opts.players.map Player.id).Nodup) : Board s where
  kind id q h := by
    obtain ⟨e, _, he⟩ := (hf.piece hid).mp h
    exact (startingPieces_facts he).2.2.2.2.1
  numbered id q h n hn := by
    obtain ⟨e, _, he⟩ := (hf.piece hid).mp h
    exact absurd hn (startingIds_unnumbered (startingPieces_facts he).2.1 n)
  home id q h := by
    obtain ⟨e, hes, he⟩ := (hf.piece hid).mp h
    obtain ⟨_, _, how, ht, _, _⟩ := startingPieces_facts he
    exact ⟨e.2, ht, hf.owner.mpr ⟨e, hes, rfl, how.symm⟩⟩
  lone id q id' q' h h' hq hq' ht := by
    obtain ⟨e, hes, he⟩ := (hf.piece hid).mp h
    obtain ⟨e', hes', he'⟩ := (hf.piece hid).mp h'
    obtain ⟨_, _, _, hte, _, hcap⟩ := startingPieces_facts he
    obtain ⟨_, _, _, hte', _, hcap'⟩ := startingPieces_facts he'
    have : e = e' := seat_entry_of_tile hf.size hes hes'
      (by rw [hte, hte', Option.some.injEq] at ht; exact ht)
    rw [hcap hq, hcap' hq', this]
  crown pl hpl _ := by
    obtain ⟨pl', hpl', hid'⟩ := List.mem_map.mp (hf.roster.mp (List.mem_map_of_mem hpl))
    obtain ⟨t, ht⟩ := seat_of hf.size hpl'
    refine ⟨t, _, _, (hf.capital hid).mpr ⟨_, ht, hid', rfl⟩, hf.owner.mpr ⟨_, ht, rfl, hid'⟩,
      (hf.piece hid).mpr ⟨_, ht, List.mem_cons_self⟩, rfl, hid', rfl⟩
  throne id q h hq := by
    obtain ⟨e, hes, he⟩ := (hf.piece hid).mp h
    obtain ⟨_, _, how, ht, _, _⟩ := startingPieces_facts he
    rw [ht]
    exact (hf.capital hid).mpr ⟨e, hes, how.symm, rfl⟩
  ruled t o h := by
    obtain ⟨e, hes, _, rfl⟩ := hf.owner.mp h
    obtain ⟨pl, hpl, hplid⟩ := List.mem_map.mp
      (hf.roster.mpr (List.mem_map_of_mem (mem_seats hes)))
    exact ⟨pl, hpl, hplid, hf.active hpl⟩

theorem fresh_firstPasses (hf : Fresh opts s) (hid : (opts.players.map Player.id).Nodup) :
    FirstPasses s := by
  intro blank _ _
  have hcoord : ∀ e ∈ seats opts.players, ∃ c ∈ kingdomsStartingCoords opts.players.length,
      tileId c = e.2 := by
    intro e he
    have := List.mem_map_of_mem (f := Prod.snd) he
    rw [seats_tiles hf.size] at this
    exact List.mem_map.mp this
  refine
    { all := fun pl hpl => hf.active hpl
      own := fun t o h => ?_
      apart := fun o o' c c' t h h' hadj hadj' => ?_
      hit := fun t e he => ?_ }
  · obtain ⟨e, hes, ht, ho⟩ := hf.owner.mp h
    exact (hf.capital hid).mpr ⟨e, hes, ho, ht⟩
  · obtain ⟨e, hes, rfl, rfl⟩ := (hf.capital hid).mp h
    obtain ⟨e', hes', rfl, rfl⟩ := (hf.capital hid).mp h'
    obtain ⟨c, hc, hce⟩ := hcoord e hes
    obtain ⟨c', hc', hce'⟩ := hcoord e' hes'
    rw [hf.map, ← hce] at hadj
    rw [hf.map, ← hce'] at hadj'
    have hcc : c = c' := starting_apart hf.size hc hc' hadj hadj'
    rw [seat_entry_of_tile hf.size hes hes' (by rw [← hce, ← hce', hcc])]
  · rw [hf.extras] at he
    cases he

end Fresh

/-! ## Runs -/

theorem FirstPasses.noBlankCapture {s : KState R} (hs : Sound s) (h : FirstPasses s)
    {payload : KingdomsPayload} {evs : List (KEvent R)} {s' : KState R}
    (heff : Effect s s.rounds.turn.activePlayer payload evs s') : NoBlankCapture s payload := by
  rintro f t ids rfl hl ho
  obtain ⟨blank, hblank, hid⟩ := List.mem_map.mp (hs.owners t "" ho)
  cases heff with
  | attacked hf _ hadj hfirst =>
    exact absurd ((h blank hblank hid).lasts hs hf hadj hfirst) hl.not_gt

variable [Strength R]

theorem board_reachable {opts : GameSetupOptions} (hid : (opts.players.map Player.id).Nodup)
    (hseat : (opts.players.map Player.seat).Nodup) {calls : List (KCall R)} {g : KGame R}
    (h : Game.RunFrom (kingdomsScenario R) opts calls g) :
    Sound g.state ∧ Board g.state ∧ FirstPasses g.state := by
  refine kingdoms_inv (I := fun s => Board s ∧ FirstPasses s) ?_ ?_ hid hseat
    (fun s hf _ => ⟨fresh_board hf hid, fresh_firstPasses hf hid⟩) h
  · exact fun s st hi hI => ⟨hI.1.congr rfl rfl rfl rfl rfl,
      fun b hb hbid => (hI.2 b hb hbid).congr rfl rfl rfl rfl rfl rfl rfl⟩
  · rintro s payload evs s' hs hne ⟨hb, h₁⟩ heff
    exact ⟨heff.board hb hs (h₁.noBlankCapture hs heff), heff.firstPass hs hne h₁⟩

/-- What players see of a consistent board. -/
structure Consistent (s : KState R) : Prop where
  /-- Every unit and every structure stands on a tile its owner owns. -/
  pieces : ∀ id q, s.pieces.get? id = some q →
    ∃ t, tileOf q = some t ∧ s.extras.ownership.get? t = some q.owner
  /-- No tile carries two structures. -/
  structures : ∀ t id q id' q', s.pieces.get? id = some q → s.pieces.get? id' = some q' →
    q.kind ∈ structureKinds → q'.kind ∈ structureKinds → tileOf q = some t → tileOf q' = some t →
    id = id'
  /-- A player in the game owns their capital, and one capital base stands on it: theirs. -/
  capitals : ∀ pl ∈ s.players.bySeat, pl.isActive = true →
    ∃ t, s.extras.capitals.get? pl.id = some t ∧ s.extras.ownership.get? t = some pl.id ∧
      ∃ id q, s.pieces.get? id = some q ∧ q.kind = "capital-base" ∧ tileOf q = some t ∧
        q.owner = pl.id ∧ ∀ id' q', s.pieces.get? id' = some q' → q'.kind = "capital-base" →
          tileOf q' = some t → id' = id
  /-- An eliminated player owns nothing. -/
  outcasts : ∀ pl ∈ s.players.bySeat, pl.isActive = false →
    (∀ t, s.extras.ownership.get? t ≠ some pl.id) ∧
      ∀ id q, s.pieces.get? id = some q → q.owner ≠ pl.id

omit [Strength R] in
theorem Board.consistent {s : KState R} (hb : Board s) (hs : Sound s) : Consistent s := by
  have hlandless : ∀ pl ∈ s.players.bySeat, pl.isActive = false →
      ∀ t, s.extras.ownership.get? t ≠ some pl.id := by
    intro pl hpl hout t ht
    obtain ⟨pl', hpl', hid, hact⟩ := hb.ruled t pl.id ht
    rw [List.inj_on_of_nodup_map hs.ids hpl' hpl hid, hout] at hact
    cases hact
  refine
    { pieces := hb.home
      structures := fun t id q id' q' h h' hk hk' ht ht' =>
        hb.lone id q id' q' h h' hk hk' (ht.trans ht'.symm)
      capitals := fun pl hpl hact => ?_
      outcasts := fun pl hpl hout => ⟨hlandless pl hpl hout, fun id q h how => ?_⟩ }
  · obtain ⟨t, id, q, hc, ho, hq, hk, how, ht⟩ := hb.crown pl hpl hact
    refine ⟨t, hc, ho, id, q, hq, hk, ht, how, fun id' q' hq' hk' ht' => ?_⟩
    exact hb.lone id' q' id q hq' hq (hk' ▸ capital_base_structure) (hk ▸ capital_base_structure)
      (ht'.trans ht.symm)
  · obtain ⟨t, _, ho⟩ := hb.home id q h
    exact hlandless pl hpl hout t (how ▸ ho)

/-- The board of a Kingdoms game is consistent after any calls. -/
theorem reachable_consistent {opts : GameSetupOptions} (hid : (opts.players.map Player.id).Nodup)
    (hseat : (opts.players.map Player.seat).Nodup) {calls : List (KCall R)} {g : KGame R}
    (h : Game.RunFrom (kingdomsScenario R) opts calls g) : Consistent g.state := by
  obtain ⟨hs, hb, _⟩ := board_reachable hid hseat h
  exact hb.consistent hs

theorem threeHits_consistent : ∃ r, Game.play (kingdomsScenario ℚ) duel threeHits = .ok r ∧
    r.2.state.extras.ownership.get? "3,-4" = some "p1" ∧ Consistent r.2.state := by
  have hfell : (Game.play (kingdomsScenario ℚ) duel threeHits).toOption.map
      (fun r => r.2.state.extras.ownership.get? "3,-4") = some (some "p1") := by decide +kernel
  obtain ⟨r, hr, hrun, hentry⟩ := Game.play_observed hfell
  exact ⟨r, hr, hentry, reachable_consistent (by decide) (by decide) hrun⟩

end Boardgame.Kingdoms
