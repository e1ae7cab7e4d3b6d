import Boardgame.Kingdoms.Cycles
import Boardgame.Kingdoms.Safety
import Boardgame.Kingdoms.Terrain
import Boardgame.Kingdoms.View

/-!
# Kingdoms.Forecast

The two income previews of the view. That of a player is `computeIncome`, that of a tile only what
`calculateTileIncome` gives: the bonus of a developed tile is missing from it.

* `tileSum_eq`: what the tiles of a player show, as a sum over the connected tiles.
* `previews_agree_iff`: the previews agree exactly if no connected tile is developed.
-/

namespace Boardgame.Kingdoms

variable {R : Type}

/-! ## What the tiles show -/

/-- The sum of `f` over the previews on the tiles `p` owns. -/
def tileSum (view : KingdomsView) (p : PlayerId) (f : TileIncome → ℚ) : ℚ :=
  ((view.tiles.filter fun t => t.owner = some p).map fun t => (t.incomePreview.map f).getD 0).sum

/-- The amount a tile gives of a resource. -/
def TileIncome.amount (income : TileIncome) (r : ResourceType) : ℚ :=
  if income.resource = some r then income.resourceAmount else 0

/-- The previews on the tiles of a player add up to the preview of the player. -/
structure PreviewsAgree (view : KingdomsView) (pv : KingdomsPlayerView) : Prop where
  gold : tileSum view pv.id TileIncome.gold = pv.incomePreview.gold
  resource : ∀ r ∈ yields, tileSum view pv.id (·.amount r) = pv.incomePreview.of r

section Tiles

variable {s : KState R} {players : List Player} {pl : Player}

theorem connectedByPlayer_get? (hpl : pl ∈ players)
    (halive : s.players.isEliminated pl.id = false) :
    (connectedByPlayer s players).get? pl.id = some (playerConnectedTiles s pl.id) := by
  rw [connectedByPlayer, OrderedMap.ofEntries, OrderedMap.get?_setAll_of_keys
    (f := fun id => if s.players.isEliminated id then [] else playerConnectedTiles s id)]
  · rw [if_pos, halive]
    · rfl
    · rw [List.map_map]
      exact List.mem_map.mpr ⟨pl, hpl, rfl⟩
  · intro e he
    obtain ⟨q, -, rfl⟩ := List.mem_map.mp he
    rfl

theorem structuresByTileId_eq {t : TileId} (ht : t ≠ "") :
    structuresByTileId s t = structuresAt s [] t := by
  rw [structuresByTileId, if_neg ht, structuresAt, OrderedMap.values, List.filter_map, List.map_map]
  refine congrArg _ (List.filter_congr fun e _ => ?_)
  simp [and_comm]

/-- The income of the tile under an id. -/
def incomeAt (s : KState R) (t : TileId) : TileIncome :=
  match s.map.tileById t with
  | none => ⟨0, none, 0⟩
  | some tile => calculateTileIncome tile (structuresAt s [] t)

theorem incomePreview_eq (hne : pl.id ≠ "") (hpl : pl ∈ players)
    (halive : s.players.isEliminated pl.id = false) {tile : Tile}
    (hget : s.map.tileById tile.id = some tile) (hid : tile.id ≠ "")
    (hown : s.extras.ownership.get? tile.id = some pl.id) :
    (buildTileView s players tile).incomePreview =
      if tile.id ∈ playerConnectedTiles s pl.id then some (incomeAt s tile.id) else none := by
  have howner : (some pl.id).filter (· ≠ "") = some pl.id := by simp [Option.filter, hne]
  simp only [buildTileView, hown, howner, connectedByPlayer_get? hpl halive,
    structuresByTileId_eq hid, incomeAt, hget, Option.any_some, decide_eq_true_eq]

theorem sum_filter_ite {α : Type} {P Q : α → Bool} {f g : α → ℚ} {l : List α}
    (hsub : ∀ a ∈ l, Q a = true → P a = true) (hin : ∀ a ∈ l, Q a = true → f a = g a)
    (hout : ∀ a ∈ l, P a = true → Q a = false → f a = 0) :
    ((l.filter P).map f).sum = ((l.filter Q).map g).sum := by
  induction l with
  | nil => rfl
  | cons a l ih =>
    have hl := ih (fun b hb => hsub b (List.mem_cons_of_mem _ hb))
      (fun b hb => hin b (List.mem_cons_of_mem _ hb))
      fun b hb => hout b (List.mem_cons_of_mem _ hb)
    have hmem : a ∈ a :: l := List.mem_cons_self
    cases hQ : Q a with
    | true => simp [hsub a hmem hQ, hQ, hin a hmem hQ, hl]
    | false =>
      cases hP : P a with
      | true => simp [hP, hQ, hout a hmem hP hQ, hl]
      | false => simp [hP, hQ, hl]

/-- The connected tiles, found in the map. -/
theorem tiles_connected (hkeyed : ∀ id tile, s.map.tileById id = some tile → tile.id = id)
    (hon : ∀ t ∈ playerConnectedTiles s pl.id, ∃ tile, s.map.tileById t = some tile) :
    ((s.map.tiles.filter fun t => t.id ∈ playerConnectedTiles s pl.id).map Tile.id).Perm
      (playerConnectedTiles s pl.id) := by
  have hids : s.map.tiles.map Tile.id = s.map.tileMap.keys := by
    rw [GameMap.tiles, OrderedMap.values, List.map_map, OrderedMap.keys]
    refine List.map_congr_left fun e he => ?_
    exact hkeyed e.1 e.2 (OrderedMap.mem_entries.mp he)
  have hnd :
      ((s.map.tiles.filter fun t => t.id ∈ playerConnectedTiles s pl.id).map Tile.id).Nodup := by
    refine List.Nodup.sublist (List.filter_sublist.map _) ?_
    rw [hids]
    exact s.map.tileMap.nodup_keys
  refine (List.perm_ext_iff_of_nodup hnd connected_nodup).mpr fun t => ?_
  simp only [List.mem_map, List.mem_filter, decide_eq_true_eq]
  constructor
  · rintro ⟨tile, ⟨-, ht⟩, rfl⟩
    exact ht
  · intro ht
    obtain ⟨tile, htile⟩ := hon t ht
    have hid := hkeyed t tile htile
    exact ⟨tile, ⟨GameMap.mem_tiles.mpr ⟨t, htile⟩, hid ▸ ht⟩, hid⟩

/-- **What the tiles of a player show**. -/
theorem tileSum_eq (hne : pl.id ≠ "") (hpl : pl ∈ players)
    (halive : s.players.isEliminated pl.id = false)
    (hkeyed : ∀ id tile, s.map.tileById id = some tile → tile.id = id ∧ id ≠ "")
    (hon : ∀ t ∈ playerConnectedTiles s pl.id, ∃ tile, s.map.tileById t = some tile)
    (victory : Option VictoryResult) (f : TileIncome → ℚ) :
    tileSum (buildKingdomsView s players victory) pl.id f =
      ((playerConnectedTiles s pl.id).map fun t => f (incomeAt s t)).sum := by
  have hget : ∀ tile ∈ s.map.tiles, s.map.tileById tile.id = some tile ∧ tile.id ≠ "" := by
    intro tile htile
    obtain ⟨id, hid⟩ := GameMap.mem_tiles.mp htile
    obtain ⟨hkey, hid'⟩ := hkeyed id tile hid
    rw [hkey]
    exact ⟨hid, hid'⟩
  have hsum := sum_filter_ite (l := s.map.tiles)
    (P := fun t => decide (s.extras.ownership.get? t.id = some pl.id))
    (Q := fun t => decide (t.id ∈ playerConnectedTiles s pl.id))
    (f := fun t => ((buildTileView s players t).incomePreview.map f).getD 0)
      (g := fun t => f (incomeAt s t.id))
    (fun t _ ht => decide_eq_true (connected_owned (of_decide_eq_true ht)))
    (fun t ht hc => by
      obtain ⟨htile, hid⟩ := hget t ht
      have hconn := of_decide_eq_true hc
      rw [incomePreview_eq hne hpl halive htile hid (connected_owned hconn), if_pos hconn]
      rfl)
    (fun t ht ho hc => by
      obtain ⟨htile, hid⟩ := hget t ht
      rw [incomePreview_eq hne hpl halive htile hid (of_decide_eq_true ho),
        if_neg (of_decide_eq_false hc)]
      rfl)
  have hperm := tiles_connected (fun id tile h => (hkeyed id tile h).1) hon
  rw [← (hperm.map fun t => f (incomeAt s t)).sum_eq, List.map_map]
  rw [tileSum, buildKingdomsView, List.filter_map, List.map_map]
  exact hsum

end Tiles

/-! ## What the player earns -/

theorem addResource_zero_of {r r' : ResourceType} (hr : r ∈ yields) (hr' : r' ∈ yields)
    (gold q : ℚ) :
    (addResource ⟨0, 0, 0, gold⟩ r' q).of r = if r' = r then q else 0 := by
  simp only [yields, List.mem_cons, List.not_mem_nil, or_false] at hr hr'
  rcases hr with rfl | rfl | rfl <;> rcases hr' with rfl | rfl | rfl <;>
    simp [addResource, IncomeResult.of]

theorem addResource_gold (i : IncomeResult) (resource : String) (q : ℚ) :
    (addResource i resource q).gold = i.gold := by
  unfold addResource
  split <;> rfl

/-- A yield of one of the three resources. -/
def TileIncome.Yields (income : TileIncome) : Prop :=
  ∃ r ∈ yields, income.resource = some r ∧ 0 < income.resourceAmount

theorem yields_ne {r : ResourceType} (hr : r ∈ yields) : r ≠ "" := by
  rintro rfl
  exact absurd hr (by decide)

theorem addYield_zero {income : TileIncome} (h : income.Yields) :
    (addYield ⟨0, 0, 0, 0⟩ income).gold = income.gold ∧
      ∀ r ∈ yields, (addYield ⟨0, 0, 0, 0⟩ income).of r = income.amount r := by
  obtain ⟨r', hr', hres, hpos⟩ := h
  have hyield : addYield ⟨0, 0, 0, 0⟩ income =
      addResource ⟨0, 0, 0, income.gold⟩ r' income.resourceAmount := by
    simp [addYield, hres, yields_ne hr', hpos]
  refine ⟨by rw [hyield, addResource_gold], fun r hr => ?_⟩
  rw [hyield, addResource_zero_of hr hr', TileIncome.amount, hres]
  simp

/-- What a developed tile adds to the income, and its preview does not show. -/
def developBonus (tile : Tile) (r : ResourceType) : ℚ :=
  if effectiveResource tile = some r then baseResourceYield else 0

theorem addDevelopBonus_gold (i : IncomeResult) (tile : Tile) :
    (addDevelopBonus i tile).gold = i.gold := by
  unfold addDevelopBonus
  split
  · rfl
  · split
    · exact addResource_gold _ _ _
    · rfl

theorem addDevelopBonus_zero {tile : Tile} {r r' : ResourceType} (hr : r ∈ yields)
    (hr' : r' ∈ yields) (heff : effectiveResource tile = some r') :
    (addDevelopBonus ⟨0, 0, 0, 0⟩ tile).of r = developBonus tile r := by
  have hbonus : addDevelopBonus ⟨0, 0, 0, 0⟩ tile =
      addResource ⟨0, 0, 0, 0⟩ r' baseResourceYield := by
    simp [addDevelopBonus, heff, yields_ne hr']
  rw [hbonus, addResource_zero_of hr hr', developBonus, heff]
  simp

section Earned

variable {opts : GameSetupOptions} {s : KState R} {p : PlayerId}

/-- A tile of the map yields its resource, and some gold. -/
theorem incomeAt_yields (hground : Ground opts s) {t : TileId} {tile : Tile}
    (h : s.map.tileById t = some tile) :
    (incomeAt s t).Yields ∧ 1 ≤ (incomeAt s t).gold := by
  obtain ⟨hmul, hflat, hres⟩ := combinedEffect_ge (structuresAt s [] t)
  rw [incomeAt, h]
  rw [hground.map] at h
  obtain ⟨r, hr, htype⟩ := kingdomsMap_resource h
  have hvalue := kingdomsMap_value h
  constructor
  · have hamount : 0 < (calculateTileIncome tile (structuresAt s [] t)).resourceAmount := by
      have hfloor : (1 : ℤ) ≤ ⌊baseResourceYield *
          (combinedEffect (structuresAt s [] t)).resourceMultiplier⌋ := by
        rw [Int.le_floor, baseResourceYield]
        push_cast
        linarith
      simp only [calculateTileIncome, htype, Option.some.injEq, reduceCtorEq, yields_ne hr,
        or_self, if_false]
      exact_mod_cast zero_lt_one.trans_le hfloor
    refine ⟨r, hr, ?_, hamount⟩
    simp only [calculateTileIncome] at hamount ⊢
    rw [if_pos hamount, htype]
  · have hfloor : (1 : ℤ) ≤ ⌊(tile.properties.bind TileProps.economicValue).getD 1 *
        goldPerEconomicValue *
        (combinedEffect (structuresAt s [] t)).goldMultiplier⌋ := by
      rw [Int.le_floor, goldPerEconomicValue, mul_one]
      push_cast
      exact one_le_mul_of_one_le_of_one_le hvalue hmul
    have hfloor' :
        (1 : ℚ) ≤ (⌊(tile.properties.bind TileProps.economicValue).getD 1 * goldPerEconomicValue *
        (combinedEffect (structuresAt s [] t)).goldMultiplier⌋ : ℤ) := by exact_mod_cast hfloor
    exact le_add_of_le_of_nonneg hfloor' hflat

theorem effectiveResource_yields (hground : Ground opts s) {t : TileId} {tile : Tile}
    (h : s.map.tileById t = some tile) : ∃ r ∈ yields, effectiveResource tile = some r := by
  rw [hground.map] at h
  obtain ⟨r, hr, htype⟩ := kingdomsMap_resource h
  exact ⟨r, hr, by rw [effectiveResource, htype]⟩

/-- The bonus of the tile under an id. -/
def bonusAt (s : KState R) (r : ResourceType) (t : TileId) : ℚ :=
  if t ∈ s.extras.developed then ((s.map.tileById t).map (developBonus · r)).getD 0 else 0

theorem bonusAt_nonneg (s : KState R) (r : ResourceType) (t : TileId) : 0 ≤ bonusAt s r t := by
  unfold bonusAt
  split
  · cases s.map.tileById t with
    | none => exact le_rfl
    | some tile =>
      simp only [Option.map_some, Option.getD_some, developBonus]
      split <;> norm_num [baseResourceYield]
  · exact le_rfl

/-- The share of a tile of the map is what its preview shows, and the bonus if it is developed. -/
theorem share_split (hground : Ground opts s) (hmort : s.extras.mortgagedCities = []) {t : TileId}
    {tile : Tile} (h : s.map.tileById t = some tile) :
    (tileShare s t).gold = (incomeAt s t).gold ∧
      ∀ r ∈ yields, (tileShare s t).of r = (incomeAt s t).amount r + bonusAt s r t := by
  obtain ⟨hgold, hyield⟩ := addYield_zero (incomeAt_yields hground h).1
  obtain ⟨r', hr', heff⟩ := effectiveResource_yields hground h
  have hincome : calculateTileIncome tile (structuresAt s s.extras.mortgagedCities t) =
      incomeAt s t := by
    rw [incomeAt, h, hmort]
  simp only [tileShare, addTileIncome, h, hincome, bonusAt, Option.map_some, Option.getD_some]
  by_cases hdev : t ∈ s.extras.developed
  · simp only [if_pos hdev]
    refine ⟨by rw [addDevelopBonus_gold, hgold], fun r hr => ?_⟩
    rw [addDevelopBonus_of, hyield r hr, addDevelopBonus_zero hr hr' heff]
  · simp only [if_neg hdev, add_zero]
    exact ⟨hgold, hyield⟩

variable (hground : Ground opts s) (hmort : s.extras.mortgagedCities = [])
  (hon : ∀ t ∈ playerConnectedTiles s p, ∃ tile, s.map.tileById t = some tile)

include hground hmort hon

theorem earned_gold :
    (computeIncome s p).gold =
      ((playerConnectedTiles s p).map fun t => (incomeAt s t).gold).sum := by
  refine (computeIncome_of s p "gold").trans
    (congrArg List.sum (List.map_congr_left fun t ht => ?_))
  obtain ⟨tile, htile⟩ := hon t ht
  exact (share_split hground hmort htile).1

theorem earned_resource {r : ResourceType} (hr : r ∈ yields) :
    (computeIncome s p).of r =
      ((playerConnectedTiles s p).map fun t => (incomeAt s t).amount r).sum +
      ((playerConnectedTiles s p).map (bonusAt s r)).sum := by
  rw [computeIncome_of, ← List.sum_map_add]
  refine congrArg List.sum (List.map_congr_left fun t ht => ?_)
  obtain ⟨tile, htile⟩ := hon t ht
  exact (share_split hground hmort htile).2 r hr

omit hmort in
/-- The bonuses are nothing exactly if there are none. -/
theorem bonuses_zero_iff : (∀ r ∈ yields, ((playerConnectedTiles s p).map (bonusAt s r)).sum = 0) ↔
    ∀ t ∈ playerConnectedTiles s p, t ∉ s.extras.developed := by
  constructor
  · intro hzero t ht hdev
    obtain ⟨tile, htile⟩ := hon t ht
    obtain ⟨r, hr, heff⟩ := effectiveResource_yields hground htile
    have hbonus : bonusAt s r t = baseResourceYield := by
      rw [bonusAt, if_pos hdev, htile, Option.map_some, Option.getD_some, developBonus, if_pos heff]
    have hle := List.single_le_sum (l := (playerConnectedTiles s p).map (bonusAt s r))
      (fun q hq => by
        obtain ⟨u, -, rfl⟩ := List.mem_map.mp hq
        exact bonusAt_nonneg s r u) _ (List.mem_map_of_mem ht)
    rw [hzero r hr, hbonus] at hle
    norm_num [baseResourceYield] at hle
  · intro hnone r _
    refine List.sum_eq_zero fun q hq => ?_
    obtain ⟨t, ht, rfl⟩ := List.mem_map.mp hq
    exact if_neg (hnone t ht)

end Earned

/-! ## The previews -/

section Agree

variable {opts : GameSetupOptions} {s : KState R} {players : List Player} {pl : Player}

/-- The capital of a player in the game is connected, and gives gold. -/
theorem earned_some (hb : Board s) (hground : Ground opts s) (hmort : s.extras.mortgagedCities = [])
    (hon : ∀ t ∈ playerConnectedTiles s pl.id, ∃ tile, s.map.tileById t = some tile) {q : Player}
    (hq : q ∈ s.players.bySeat) (hact : q.isActive = true) (hid : q.id = pl.id)
    (hsize : 2 ≤ opts.players.length ∧ opts.players.length ≤ 4) :
    0 < (computeIncome s pl.id).gold := by
  obtain ⟨t, _, _, hcap, hown, -⟩ := hb.crown q hq hact
  rw [hid] at hcap hown
  obtain ⟨tile, htile⟩ := capital_on_map hground hsize hcap
  have hconn : t ∈ playerConnectedTiles s pl.id := by
    simp only [playerConnectedTiles, hcap, if_neg (hground.named htile)]
    exact getConnectedTiles_least.1.start (mem_playerOwnedTiles.mpr hown)
  have hle := List.single_le_sum (l := (playerConnectedTiles s pl.id).map fun t =>
    (incomeAt s t).gold)
    (fun q hq => by
      obtain ⟨u, hu, rfl⟩ := List.mem_map.mp hq
      obtain ⟨tile', htile'⟩ := hon u hu
      exact zero_le_one.trans (incomeAt_yields hground htile').2) _ (List.mem_map_of_mem hconn)
  rw [earned_gold hground hmort hon]
  exact zero_lt_one.trans_le ((incomeAt_yields hground htile).2.trans hle)

/-- The view takes an owner with an empty id for none. -/
theorem tileSum_blank (victory : Option VictoryResult) (f : TileIncome → ℚ) :
    tileSum (buildKingdomsView s players victory) "" f = 0 := by
  refine List.sum_eq_zero fun q hq => ?_
  obtain ⟨tv, htv, rfl⟩ := List.mem_map.mp hq
  obtain ⟨hmem, howner⟩ := List.mem_filter.mp htv
  obtain ⟨tile, -, rfl⟩ := List.mem_map.mp hmem
  have hown : s.extras.ownership.get? tile.id = some "" := of_decide_eq_true howner
  simp [buildTileView, hown, Option.filter]

theorem agree_iff (hb : Board s) (hground : Ground opts s) (hmort : s.extras.mortgagedCities = [])
    (hsize : 2 ≤ opts.players.length ∧ opts.players.length ≤ 4) (hpl : pl ∈ players)
    (halive : s.players.isEliminated pl.id = false) {q : Player} (hq : q ∈ s.players.bySeat)
    (hact : q.isActive = true) (hid : q.id = pl.id) (victory : Option VictoryResult) :
    PreviewsAgree (buildKingdomsView s players victory) (buildPlayerView s players pl) ↔
      pl.id ≠ "" ∧ ∀ t ∈ playerConnectedTiles s pl.id, t ∉ s.extras.developed := by
  have hon : ∀ t ∈ playerConnectedTiles s pl.id, ∃ tile, s.map.tileById t = some tile :=
    fun t ht => connected_on_map hground hsize ht
  have hview : (buildPlayerView s players pl).id = pl.id ∧
      (buildPlayerView s players pl).incomePreview = computeIncome s pl.id := by
    simp [buildPlayerView, halive]
  have hpos := earned_some hb hground hmort hon hq hact hid hsize
  by_cases hne : pl.id = ""
  · refine ⟨fun h => ?_, fun h => absurd hne h.1⟩
    have hgold := h.gold
    rw [hview.1, hview.2, hne, tileSum_blank, ← hne] at hgold
    exact absurd hgold hpos.ne
  have hshown := tileSum_eq hne hpl halive (fun id tile h => ⟨hground.keyed h, hground.named h⟩)
    hon victory
  have hgold : tileSum (buildKingdomsView s players victory) pl.id TileIncome.gold =
      (computeIncome s pl.id).gold := by
    rw [hshown, earned_gold hground hmort hon]
  rw [← bonuses_zero_iff hground hon]
  constructor
  · refine fun h => ⟨hne, fun r hr => ?_⟩
    have hres := h.resource r hr
    rw [hview.1, hview.2, hshown, earned_resource hground hmort hon hr] at hres
    linarith
  · rintro ⟨-, hzero⟩
    refine ⟨by rw [hview.1, hview.2]; exact hgold, fun r hr => ?_⟩
    rw [hview.1, hview.2, hshown, earned_resource hground hmort hon hr, hzero r hr, add_zero]

end Agree

/-- The round end gives a player what the preview of the player shows, before the units are fed. -/
structure Collected (s : KState R) (pv : KingdomsPlayerView) (evs : List (KEvent R))
    (s' : KState R) : Prop where
  reported : kEvent pv.id (.incomeCollected pv.incomePreview) ∈ evs
  credited : ∃ inv inv', s.inventories.get? pv.id = some inv ∧
    s'.inventories.get? pv.id = some inv' ∧
    inv'.get = fedCount (fun r => inv.get r + pv.incomePreview.of r) (computeFoodCost s pv.id)

variable [Strength R]

/-- **Tile and player previews agree** exactly if no tile that is connected to the player's capital
is developed (and the id of the player is not empty). What the player's preview shows is what the
round end collects. -/
theorem previews_agree_iff {opts : GameSetupOptions} (hid : (opts.players.map Player.id).Nodup)
    (hseat : (opts.players.map Player.seat).Nodup) {calls : List (KCall R)} {g : KGame R}
    (h : Game.RunFrom (kingdomsScenario R) opts calls g) (players : List Player)
    (victory : Option VictoryResult) {pl : Player} (hpl : pl ∈ players)
    (hroster : pl.id ∈ g.state.players.bySeat.map Player.id)
    (halive : g.state.players.isEliminated pl.id = false) :
    ∃ pv ∈ (buildKingdomsView g.state players victory).players, pv.id = pl.id ∧
      (∃ evs s', processRoundEnd.run g.state = .ok evs s' ∧ Collected g.state pv evs s') ∧
      (PreviewsAgree (buildKingdomsView g.state players victory) pv ↔
        pl.id ≠ "" ∧ ∀ t ∈ playerConnectedTiles g.state pl.id, t ∉ g.state.extras.developed) := by
  obtain ⟨hs, hb, -⟩ := board_reachable hid hseat h
  have hground := (armory_reachable hid hseat h).ground
  have hsize : 2 ≤ opts.players.length ∧ opts.players.length ≤ 4 := by
    obtain ⟨_, hset, _⟩ := h
    exact (createGameState_ok hset).1
  have hmort := unmortgaged_reachable hid hseat h
  have hm : Fertile g.state.map := hground.map ▸ kingdomsMap_fertile _ _
  obtain ⟨q, hq, hact, hqid⟩ := PlayerManager.active_of_not_eliminated hs.ids hroster halive
  have hq' : q ∈ g.state.players.active := List.mem_filter.mpr ⟨hq, hact⟩
  obtain ⟨own, s', hrun, hind⟩ := cycles_independent hm (hs.ids.sublist (active_sublist.map _))
    fun p hp => by
    obtain ⟨inv, hinv⟩ := hs.purses p (active_sublist.subset hp)
    exact ⟨inv, hinv, hs.whole _ _ hinv⟩
  obtain ⟨reports, hround⟩ := processRoundEnd_loop hrun
  have hpreview : (buildPlayerView g.state players pl).incomePreview =
      computeIncome g.state pl.id := by
    simp [buildPlayerView, halive]
  have hreported := hind.reported q hq'
  have hcredited := hind.credited q hq'
  rw [hqid] at hreported hcredited
  refine ⟨buildPlayerView g.state players pl, List.mem_map_of_mem hpl, rfl, ⟨_, s', hround, ?_, ?_⟩,
    agree_iff hb hground hmort hsize hpl halive hq hact hqid victory⟩
  · rw [hpreview]
    exact List.mem_append_left _ (List.mem_flatMap.mpr ⟨q, hq', hreported⟩)
  · rw [hpreview]
    exact hcredited

/-! ## The capital, developed in the first turn -/

def developCapital : List (Game.Request KingdomsPayload) :=
  [.start, request "p1" (.developTile "4,-4")]

theorem previews_agree_capital : ∃ r, Game.play (kingdomsScenario ℚ) duel developCapital = .ok r ∧
    ∃ pv ∈ (buildKingdomsView r.2.state duel.players none).players, pv.id = "p1" ∧
      (∃ evs s', processRoundEnd.run r.2.state = .ok evs s' ∧ Collected r.2.state pv evs s') ∧
      (PreviewsAgree (buildKingdomsView r.2.state duel.players none) pv ↔
        "p1" ≠ "" ∧ ∀ t ∈ playerConnectedTiles r.2.state "p1", t ∉ r.2.state.extras.developed) := by
  have hobserved : (Game.play (kingdomsScenario ℚ) duel developCapital).toOption.map (fun r =>
      (r.2.state.players.bySeat.map Player.id, r.2.state.players.isEliminated "p1")) =
        some (["p1", "p2"], false) := by decide +kernel
  obtain ⟨r, hr, hrun, hx⟩ := Game.play_observed hobserved
  simp only [Prod.mk.injEq] at hx
  have hada : (⟨"p1", "Ada", "red", 0, none⟩ : Player) ∈ duel.players := by decide
  exact ⟨r, hr, previews_agree_iff (by decide) (by decide) hrun duel.players none hada
    (by rw [hx.1]; decide) hx.2⟩

/-- The tiles show two food, the player gets four. -/
theorem capital_hides_food : ∃ r, Game.play (kingdomsScenario ℚ) duel developCapital = .ok r ∧
    r.2.state.players.isEliminated "p1" = false ∧
    ∃ pv ∈ (buildKingdomsView r.2.state duel.players none).players, pv.id = "p1" ∧
      tileSum (buildKingdomsView r.2.state duel.players none) "p1" (·.amount "food") = 2 ∧
      pv.incomePreview.food = 4 ∧
      ¬ PreviewsAgree (buildKingdomsView r.2.state duel.players none) pv := by
  have hobserved : (Game.play (kingdomsScenario ℚ) duel developCapital).toOption.map (fun r =>
      (r.2.state.players.isEliminated "p1",
        tileSum (buildKingdomsView r.2.state duel.players none) "p1" (·.amount "food"),
        (buildKingdomsView r.2.state duel.players none).players.map fun pv =>
          (pv.id, pv.incomePreview.food))) =
        some (false, 2, [("p1", 4), ("p2", 0)]) := by decide +kernel
  obtain ⟨r, hr, -, hx⟩ := Game.play_observed hobserved
  simp only [Prod.mk.injEq] at hx
  obtain ⟨halive, hshown, hplayers⟩ := hx
  obtain ⟨pv, hpv, hfood⟩ := List.mem_map.mp (hplayers ▸ List.mem_cons_self :
    ("p1", (4 : ℚ)) ∈ (buildKingdomsView r.2.state duel.players none).players.map
      fun pv => (pv.id, pv.incomePreview.food))
  obtain ⟨hid, hfood⟩ := Prod.mk.inj hfood
  refine ⟨r, hr, halive, pv, hpv, hid, hshown, hfood, fun h => ?_⟩
  have hsum := h.resource "food" (by decide)
  rw [hid, hshown] at hsum
  exact absurd (hsum.trans hfood) (by norm_num)

end Boardgame.Kingdoms
