import Boardgame.Kingdoms.Armory
import Boardgame.Kingdoms.Income

/-!
# Kingdoms.Supply

What an attack does to incomes. A capture moves land, and the structure on it, from one player to
another, or takes a player out of the game with all they have.

* `attack_owned`, `attack_gates`: whose land and whose gates grow and shrink.
* `structures_kept`: a tile that keeps its owner keeps its structures.
* `attack_income`: the attacker's income does not fall, the defender's does not rise, no other
  changes.
-/

namespace Boardgame.Kingdoms

variable {R : Type} {s s' : KState R} {p : PlayerId} {f t : TileId} {ids : Option (List PieceId)}
  {evs : List (KEvent R)}

/-! ## Land -/

/-- An attack leaves the map, the capitals, the developed tiles and the mortgages alone. -/
theorem attack_ground (h : Effect s p (.attackTile f t ids) evs s') :
    s'.map = s.map ∧ s'.extras.capitals = s.extras.capitals ∧
      s'.extras.developed = s.extras.developed ∧
      s'.extras.mortgagedCities = s.extras.mortgagedCities := by
  cases h with
  | attacked _ _ _ _ _ _ _ hafter =>
    cases hafter with
    | repelled | eroded | occupied | toppled | annexed => exact ⟨rfl, rfl, rfl, rfl⟩

theorem captured_owner (s : KState R) (t : TileId) (p : PlayerId) (u : TileId) :
    (captured s t p).extras.ownership.get? u =
      if u = t then some p else s.extras.ownership.get? u :=
  OrderedMap.get?_set _ _ _ _

theorem eliminated_owner {o q : PlayerId} (players : PlayerManager) {u : TileId} :
    (eliminated s o players).extras.ownership.get? u = some q ↔
    s.extras.ownership.get? u = some q ∧ q ≠ o := by
  simp [eliminated, OrderedMap.get?_filter, Option.filter_eq_some_iff]

/-- The attacker's land grows, every other player's shrinks, and only if the tile attacked was
theirs. -/
theorem attack_owned (h : Effect s p (.attackTile f t ids) evs s') :
    (∀ u, s.extras.ownership.get? u = some p → s'.extras.ownership.get? u = some p) ∧
      ∀ q u, q ≠ p → (s'.extras.ownership.get? u = some q → s.extras.ownership.get? u = some q) ∧
        (s.extras.ownership.get? t ≠ some q → s.extras.ownership.get? u = some q →
          s'.extras.ownership.get? u = some q) := by
  cases h with
  | @attacked _ _ _ losses survivor rng battle aftermath s₂ hf ht _ _ _ _ _ hafter =>
    have hset : ∀ {s₁ : KState R}, s₁.extras.ownership = s.extras.ownership →
        (∀ u, s.extras.ownership.get? u = some p →
          (captured s₁ t p).extras.ownership.get? u = some p) ∧
          ∀ q u, q ≠ p →
            ((captured s₁ t p).extras.ownership.get? u = some q →
              s.extras.ownership.get? u = some q) ∧
            (s.extras.ownership.get? t ≠ some q → s.extras.ownership.get? u = some q →
              (captured s₁ t p).extras.ownership.get? u = some q) := by
      intro s₁ hown
      refine ⟨fun u hu => ?_, fun q u hq => ⟨fun hu => ?_, fun hne hu => ?_⟩⟩
      · rw [captured_owner, hown, hu, ite_self]
      · rw [captured_owner, hown] at hu
        split at hu
        · exact absurd (Option.some.inj hu).symm hq
        · exact hu
      · rw [captured_owner, hown, if_neg fun hut : u = t => hne (hut ▸ hu), hu]
    cases hafter with
    | repelled => exact ⟨fun u hu => hu, fun q u _ => ⟨fun hu => hu, fun _ hu => hu⟩⟩
    | eroded => exact ⟨fun u hu => hu, fun q u _ => ⟨fun hu => hu, fun _ hu => hu⟩⟩
    | occupied => exact hset rfl
    | @toppled _ o players _ ho =>
      obtain ⟨hgrow, hothers⟩ := @hset { s with pieces := s.pieces.eraseAll losses, rng } rfl
      refine ⟨fun u hu => (eliminated_owner players).mpr ⟨hgrow u hu, ?_⟩,
        fun q u hq => ⟨fun hu => (hothers q u hq).1 ((eliminated_owner players).mp hu).1,
          fun hne hu => ?_⟩⟩
      · rintro rfl
        exact ht ho
      · refine (eliminated_owner players).mpr ⟨(hothers q u hq).2 hne hu, ?_⟩
        rintro rfl
        exact hne ho
    | annexed => exact hset rfl

/-! ## Structures -/

/-- A structure outlives the attack, unless its owner leaves the game; its owner changes only to the
attacker, and only if it stands on the tile attacked. -/
theorem attack_structure (hb : Board s) (h : Effect s p (.attackTile f t ids) evs s')
    {id : PieceId} {q : Piece} (hq : s.pieces.get? id = some q) (hk : q.kind ∈ structureKinds) :
    (q.owner ≠ p → s.extras.ownership.get? t ≠ some q.owner → s'.pieces.get? id = some q) ∧
      (q.owner = p → s'.pieces.get? id = some q) := by
  cases h with
  | @attacked _ _ _ losses survivor rng battle aftermath s₂ hf ht _ _ hforce _ hbattle hafter =>
    have hkept := Board.keeps_structure hforce hbattle hq hk
    cases hafter with
    | repelled | eroded | occupied => exact ⟨fun _ _ => hkept, fun _ => hkept⟩
    | @toppled _ o players _ ho =>
      have hstay : o ≠ q.owner →
          (eliminated (captured { s with pieces := s.pieces.eraseAll losses, rng } t p) o
          players).pieces.get? id = some q := fun hne => by
        simp [eliminated, captured, setExtras, OrderedMap.get?_filter, hkept,
          Option.filter, hne.symm]
      refine ⟨fun _ hne => hstay fun hoq => hne (hoq ▸ ho), fun hp => hstay fun hoq => ht ?_⟩
      rw [ho, hoq, hp]
    | @annexed _ o _ ho =>
      obtain ⟨u, htile, hu⟩ := hb.home id q hq
      have hstay : s.extras.ownership.get? t ≠ some q.owner →
          (transferred (s.pieces.eraseAll losses) (structureOnTile s t structureKinds) p).get? id =
          some q := by
        intro hne
        rw [transferred_get?, if_neg, hkept]
        intro hd
        obtain ⟨⟨i, r⟩, hdr, hi⟩ := Option.map_eq_some_iff.mp hd
        obtain ⟨hr, -, hrt⟩ := structureOnTile_some hdr
        have hrq : q = r := Option.some.inj (hq.symm.trans (hi ▸ hr))
        rw [← hrq, htile, Option.some.injEq] at hrt
        exact hne (hrt ▸ hu)
      exact ⟨fun _ hne => hstay hne, fun hp => hstay (hp ▸ ht)⟩

/-- Structures after an attack were there before; the new owner of one is the attacker. -/
theorem attack_structure_origin (h : Effect s p (.attackTile f t ids) evs s')
    {id : PieceId} {q : Piece} (hq : s'.pieces.get? id = some q) (hp : q.owner ≠ p) :
    s.pieces.get? id = some q := by
  cases h with
  | @attacked _ _ _ losses survivor rng battle aftermath s₂ hf ht _ _ hforce _ hbattle hafter =>
    have hq₂ : s₂.pieces.get? id = some q := hq
    cases hafter with
    | repelled | eroded | occupied => exact (Board.eraseAll_sub hq₂).2
    | toppled =>
      simp only [eliminated, captured, setExtras, OrderedMap.get?_filter,
        Option.filter_eq_some_iff] at hq₂
      exact (Board.eraseAll_sub hq₂.1).2
    | annexed =>
      simp only [transferred_get?] at hq₂
      split at hq₂
      · obtain ⟨old, _, rfl⟩ := Option.map_eq_some_iff.mp hq₂
        exact absurd rfl hp
      · exact (Board.eraseAll_sub hq₂).2

theorem gate_structure : "gate" ∈ structureKinds := by decide

theorem attack_gates (hb : Board s) (h : Effect s p (.attackTile f t ids) evs s') :
    (∀ u ∈ playerGateTileIds s p, u ∈ playerGateTileIds s' p) ∧
      ∀ q u, q ≠ p → (u ∈ playerGateTileIds s' q → u ∈ playerGateTileIds s q) ∧
        (s.extras.ownership.get? t ≠ some q → u ∈ playerGateTileIds s q →
          u ∈ playerGateTileIds s' q) := by
  refine ⟨fun u hu => ?_, fun q u hq => ⟨fun hu => ?_, fun hne hu => ?_⟩⟩
  · obtain ⟨id, g, hg, hk, ho, hgt⟩ := mem_playerGateTileIds.mp hu
    exact mem_playerGateTileIds.mpr ⟨id, g, (attack_structure hb h hg (hk ▸ gate_structure)).2 ho,
      hk, ho, hgt⟩
  · obtain ⟨id, g, hg, hk, ho, hgt⟩ := mem_playerGateTileIds.mp hu
    exact mem_playerGateTileIds.mpr ⟨id, g, attack_structure_origin h hg (ho ▸ hq), hk, ho, hgt⟩
  · obtain ⟨id, g, hg, hk, ho, hgt⟩ := mem_playerGateTileIds.mp hu
    exact mem_playerGateTileIds.mpr
      ⟨id, g, (attack_structure hb h hg (hk ▸ gate_structure)).1 (ho ▸ hq) (ho ▸ hne), hk, ho, hgt⟩

theorem map_filter_of_same {α β : Type} {g : α → α} {P : α → Bool} {k : α → β} {l : List α}
    (hP : ∀ e ∈ l, P (g e) = P e) (hk : ∀ e ∈ l, k (g e) = k e) :
    ((l.map g).filter P).map k = (l.filter P).map k := by
  have hcomp : ∀ e ∈ l, (P ∘ g) e = P e := hP
  rw [List.filter_map, List.map_map, List.filter_congr hcomp]
  exact List.map_congr_left fun e he => hk e (List.mem_filter.mp he).1

/-- The structures on `u`, among the pieces that satisfy `keep`. -/
theorem structuresAt_filter (m : List PieceId) (u : TileId) {pieces : OrderedMap PieceId Piece}
    (keep : PieceId → Piece → Bool)
    (hkeep : ∀ id q, pieces.get? id = some q → q.kind ∈ structureKinds → tileOf q = some u →
      keep id q = true) :
    structuresAt { s with pieces := pieces.filter keep } m u =
      structuresAt { s with pieces } m u := by
  unfold structuresAt
  simp only [OrderedMap.filter, List.filter_filter]
  refine congrArg _ (List.filter_congr fun e he => ?_)
  by_cases h : e.1 ∉ m ∧ e.2.kind ∈ structureKinds ∧ tileOf e.2 = some u
  · simp [h, hkeep e.1 e.2 (OrderedMap.mem_entries.mp he) h.2.1 h.2.2]
  · simp [h]

theorem structuresAt_eraseAll (m : List PieceId) (u : TileId) (losses : List PieceId)
    {pieces : OrderedMap PieceId Piece}
    (hunits : ∀ id ∈ losses, ∀ q, pieces.get? id = some q → q.kind ∉ structureKinds) :
    structuresAt { s with pieces := pieces.eraseAll losses } m u =
      structuresAt { s with pieces } m u := by
  induction losses generalizing pieces with
  | nil => rfl
  | cons id losses ih =>
    have hrest : ∀ i ∈ losses, ∀ q, (pieces.erase id).get? i = some q →
        q.kind ∉ structureKinds := by
      intro i hi q hq
      rw [OrderedMap.get?_erase] at hq
      split at hq
      · cases hq
      · exact hunits i (List.mem_cons_of_mem _ hi) q hq
    refine (ih hrest).trans (structuresAt_filter m u _ fun i q hq hk _ => ?_)
    rw [decide_eq_true_iff]
    rintro rfl
    exact hunits i List.mem_cons_self q hq hk

/-- A change of owner is no change of structures. -/
theorem structuresAt_transferred (m : List PieceId) (u : TileId) {pieces : OrderedMap PieceId Piece}
    (d : Option (PieceId × Piece)) :
    structuresAt { s with pieces := transferred pieces d p } m u =
      structuresAt { s with pieces } m u := by
  cases d with
  | none => rfl
  | some e =>
    obtain ⟨id, _⟩ := e
    cases hold : pieces.get? id with
    | none => simp only [transferred, hold]
    | some old =>
      have hkey : id ∈ pieces.keys := OrderedMap.mem_keys.mpr ⟨old, hold⟩
      have hsame : ∀ e ∈ pieces.entries, e.1 = id → e.2 = old := fun e he hid => by
        have hget := OrderedMap.mem_entries.mp he
        rw [hid, hold, Option.some.injEq] at hget
        exact hget.symm
      simp only [transferred, hold, structuresAt, OrderedMap.entries_set_of_mem hkey]
      refine map_filter_of_same (fun e he => ?_) fun e he => ?_
      · split
        · rename_i hid
          rw [hid, hsame e he hid]
          rfl
        · rfl
      · split
        · rename_i hid
          rw [hsame e he hid]
        · rfl

/-- A tile that keeps its owner keeps its structures. -/
theorem structures_kept (hb : Board s) (h : Effect s p (.attackTile f t ids) evs s')
    (m : List PieceId) {u : TileId} {q : PlayerId} (hu : s.extras.ownership.get? u = some q)
    (hu' : s'.extras.ownership.get? u = some q) :
    structuresAt s' m u = structuresAt s m u := by
  cases h with
  | @attacked _ _ _ losses survivor rng battle aftermath s₂ hf ht _ _ hforce _ hbattle hafter =>
    have hunits : ∀ id ∈ losses, ∀ r, s.pieces.get? id = some r → r.kind ∉ structureKinds :=
      fun id hid r hr => unitKinds_not_structure (Board.loss_unit hforce hbattle hr hid)
    have herase := structuresAt_eraseAll (s := s) m u losses hunits
    cases hafter with
    | repelled | eroded | occupied => exact herase
    | @toppled _ o players _ ho =>
      refine (@structuresAt_filter _ s m u (s.pieces.eraseAll losses) _
        fun id r hr hk htile => ?_).trans herase
      obtain ⟨u', htile', hhome⟩ := hb.home id r (Board.eraseAll_sub hr).2
      have hru : u' = u := Option.some.inj (htile'.symm.trans htile)
      rw [hru, hu, Option.some.injEq] at hhome
      rw [decide_eq_true_iff, ← hhome]
      exact ((eliminated_owner players).mp hu').2
    | annexed => exact (structuresAt_transferred (s := s) m u _).trans herase

/-! ## Incomes -/

/-- `a` brings at most what `b` does, of every resource. -/
def IncomeResult.AtMost (a b : IncomeResult) : Prop :=
  a.wood ≤ b.wood ∧ a.food ≤ b.food ∧ a.iron ≤ b.iron ∧ a.gold ≤ b.gold

theorem IncomeResult.atMost_of {a b : IncomeResult} (h : ∀ r, a.of r ≤ b.of r) : a.AtMost b :=
  ⟨h "wood", h "food", h "iron", h "gold"⟩

theorem attack_share (hb : Board s) (h : Effect s p (.attackTile f t ids) evs s') {u : TileId}
    {q : PlayerId} (hu : s.extras.ownership.get? u = some q)
    (hu' : s'.extras.ownership.get? u = some q) :
    tileShare s' u = tileShare s u := by
  obtain ⟨hmap, -, hdev, hmort⟩ := attack_ground h
  exact tileShare_congr hmap hdev (hmort ▸ structures_kept hb h _ hu hu')

/-- What an attack does to connections and incomes. -/
theorem attack_supply (hb : Board s) (hm : Fertile s.map)
    (h : Effect s p (.attackTile f t ids) evs s') :
    (computeIncome s p).AtMost (computeIncome s' p) ∧
      (∀ o, s.extras.ownership.get? t = some o → (computeIncome s' o).AtMost (computeIncome s o)) ∧
      ∀ q, q ≠ p → s.extras.ownership.get? t ≠ some q →
        playerConnectedTiles s' q = playerConnectedTiles s q ∧
        computeIncome s' q = computeIncome s q := by
  obtain ⟨hmap, hcap, -, -⟩ := attack_ground h
  obtain ⟨hgrow, howned⟩ := attack_owned h
  obtain ⟨hgates, hgates'⟩ := attack_gates hb h
  refine ⟨IncomeResult.atMost_of ?_, fun o ho => IncomeResult.atMost_of ?_, fun q hq hne => ?_⟩
  · refine income_mono (hmap ▸ hm) (connected_mono hmap hcap hgrow hgates) fun u hu => ?_
    have hown := connected_owned hu
    exact attack_share hb h hown (hgrow u hown)
  · have hop : o ≠ p := by
      cases h with
      | attacked _ ht => exact fun hop => ht (hop ▸ ho)
    refine income_mono hm (connected_mono hmap.symm hcap.symm (fun u => (howned o u hop).1)
      fun u => (hgates' o u hop).1) fun u hu => ?_
    have hown' := connected_owned hu
    exact (attack_share hb h ((howned o u hop).1 hown') hown').symm
  · have hsame : playerConnectedTiles s' q = playerConnectedTiles s q :=
      connected_congr hmap hcap (fun u => ⟨(howned q u hq).1, (howned q u hq).2 hne⟩)
        fun u => ⟨(hgates' q u hq).1, (hgates' q u hq).2 hne⟩
    refine ⟨hsame, income_congr hsame fun u hu => ?_⟩
    have hown := connected_owned hu
    exact attack_share hb h hown ((howned q u hq).2 hne hown)

variable [Strength R]

/-- **The economic effect of an attack**: it never costs the attacker income, never brings the
defender any, and does not touch the others. -/
theorem attack_income {opts : GameSetupOptions} (hid : (opts.players.map Player.id).Nodup)
    (hseat : (opts.players.map Player.seat).Nodup) {calls : List (KCall R)} {g : KGame R}
    (h : Game.RunFrom (kingdomsScenario R) opts calls g) {a : KAction}
    (ha : a.payload = .attackTile f t ids) (hv : (kingdomsScenario R).validate g.state a = .ok ()) :
    ∃ evs s', ((kingdomsScenario R).execute a).run g.state = .ok evs s' ∧
      (computeIncome g.state (actor a.playerId)).AtMost (computeIncome s' (actor a.playerId)) ∧
      (∀ o, g.state.extras.ownership.get? t = some o →
        (computeIncome s' o).AtMost (computeIncome g.state o)) ∧
      ∀ q, q ≠ actor a.playerId → g.state.extras.ownership.get? t ≠ some q →
        playerConnectedTiles s' q = playerConnectedTiles g.state q ∧
          computeIncome s' q = computeIncome g.state q := by
  obtain ⟨hs, hb, -⟩ := board_reachable hid hseat h
  have hm : Fertile g.state.map := by
    rw [(armory_reachable hid hseat h).ground.map]
    exact kingdomsMap_fertile _ _
  obtain ⟨hact, -, evs, s', hrun, heff⟩ := accepted_effect hs hv
  rw [ha] at heff
  rw [hact]
  exact ⟨evs, s', hrun, attack_supply hb hm heff⟩

/-- The last hit of `advance`: the Noble and a spearman of `p1` attack a city of `p2`. -/
def lastHit : KAction :=
  { playerId := some "p1", payload := .attackTile "-2,2" "-3,3" (some ["noble-p1-0", "sp-p1-1"]) }

theorem attack_income_city :
    ∃ r, Game.play (kingdomsScenario ℚ) duel (advance.take (advance.length - 3)) = .ok r ∧
    r.2.state.extras.ownership.get? "-3,3" = some "p2" ∧
    ∃ evs s', ((kingdomsScenario ℚ).execute lastHit).run r.2.state = .ok evs s' ∧
      (computeIncome r.2.state "p1").AtMost (computeIncome s' "p1") ∧
      (computeIncome s' "p2").AtMost (computeIncome r.2.state "p2") := by
  have hobserved :
      (Game.play (kingdomsScenario ℚ) duel (advance.take (advance.length - 3))).toOption.map
      (fun r => ((kingdomsScenario ℚ).validate r.2.state lastHit,
        r.2.state.extras.ownership.get? "-3,3")) = some (.ok (), some "p2") := by decide +kernel
  obtain ⟨r, hr, hrun, hx⟩ := Game.play_observed hobserved
  obtain ⟨hv, hdefender⟩ := Prod.mk.inj hx
  obtain ⟨evs, s', hex, hmine, htheirs, -⟩ := attack_income (by decide) (by decide) hrun rfl hv
  exact ⟨r, hr, hdefender, evs, s', hex, hmine, htheirs "p2" hdefender⟩

end Boardgame.Kingdoms
