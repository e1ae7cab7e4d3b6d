import Boardgame.Kingdoms.Forecast

/-!
# Kingdoms.Develop

What developing a tile costs, and what it brings for the rest of the game.

* `share_undeveloped`: the share of a developed tile is its share before, and the bonus.
* `income_undeveloped`: the bonus goes to whom the tile is connected, and to nobody else.
* `developed_kept`: no action takes a development back.
* `develop_pays`: all of it along every run.
-/

namespace Boardgame.Kingdoms

variable {R : Type} {s s' : KState R} {p : PlayerId} {t : TileId}

/-- The state without the development of a tile. -/
def undeveloped (s : KState R) (t : TileId) : KState R :=
  setExtras (fun x => { x with developed := x.developed.filter (· ≠ t) }) s

/-- `p` has paid `q` gold, and nobody anything else. -/
structure Spent (s : KState R) (p : PlayerId) (q : ℚ) (s' : KState R) : Prop where
  own : ∀ r, stockOf (s'.inventories.get? p) r =
    stockOf (s.inventories.get? p) r - if r = "gold" then q else 0
  others : ∀ id, id ≠ p → s'.inventories.get? id = s.inventories.get? id

/-- The development of `t` is final, and brings two of `r` to whose capital `t` is connected. -/
structure Bears (s : KState R) (t : TileId) (r : ResourceType) : Prop where
  final : ∀ q, developTileValidator s q t ≠ .ok ()
  bonus : ∀ q r', (computeIncome s q).of r' = (computeIncome (undeveloped s t) q).of r' +
    if t ∈ playerConnectedTiles s q ∧ r' = r then 2 else 0

/-! ## The bonus -/

theorem mem_undeveloped {u : TileId} : u ∈ (undeveloped s t).extras.developed ↔
    u ∈ s.extras.developed ∧ u ≠ t := by
  simp [undeveloped, setExtras]

/-- Other tiles keep their shares. -/
theorem share_other {u : TileId} (hu : u ≠ t) : tileShare (undeveloped s t) u = tileShare s u := by
  unfold tileShare addTileIncome
  simp only [mem_undeveloped, hu, ne_eq, not_false_eq_true, and_true]
  rfl

theorem of_eq_zero (i : IncomeResult) {r : ResourceType} (hr : r ∉ yields) (hgold : r ≠ "gold") :
    i.of r = 0 := by
  simp only [yields, List.mem_cons, List.not_mem_nil, or_false, not_or] at hr
  simp [IncomeResult.of, hr, hgold]

/-- The bonus is two of the tile's resource. -/
theorem addDevelopBonus_yield {tile : Tile} {r : ResourceType} (hr : r ∈ yields)
    (heff : effectiveResource tile = some r) (r' : ResourceType) :
    (addDevelopBonus ⟨0, 0, 0, 0⟩ tile).of r' = if r' = r then 2 else 0 := by
  by_cases hr' : r' ∈ yields
  · rw [addDevelopBonus_zero hr' hr heff, developBonus, heff]
    simp only [Option.some.injEq, eq_comm (a := r)]
    rfl
  · have hne : r' ≠ r := fun h => hr' (h ▸ hr)
    rw [if_neg hne]
    by_cases hgold : r' = "gold"
    · subst hgold
      exact addDevelopBonus_gold _ _
    · exact of_eq_zero _ hr' hgold

theorem share_undeveloped {tile : Tile} {r : ResourceType} (hdev : t ∈ s.extras.developed)
    (htile : s.map.tileById t = some tile) (hr : r ∈ yields)
    (heff : effectiveResource tile = some r) (r' : ResourceType) :
    (tileShare s t).of r' = (tileShare (undeveloped s t) t).of r' + if r' = r then 2 else 0 := by
  have htile' : (undeveloped s t).map.tileById t = some tile := htile
  have hnot : t ∉ (undeveloped s t).extras.developed := fun h => (mem_undeveloped.mp h).2 rfl
  have hyield : structuresAt (undeveloped s t) (undeveloped s t).extras.mortgagedCities t =
      structuresAt s s.extras.mortgagedCities t := rfl
  simp only [tileShare, addTileIncome, htile, htile', if_pos hdev, if_neg hnot, hyield]
  rw [addDevelopBonus_of, addDevelopBonus_yield hr heff]

/-- A sum over distinct entries in which one entry counts more. -/
theorem sum_bonus {ts : List TileId} (hnd : ts.Nodup) {f f' : TileId → ℚ} {q : ℚ}
    (hsame : ∀ u, u ≠ t → f u = f' u) (hmore : f t = f' t + q) :
    (ts.map f).sum = (ts.map f').sum + if t ∈ ts then q else 0 := by
  induction ts with
  | nil => simp
  | cons u ts ih =>
    obtain ⟨hu, hnd⟩ := List.nodup_cons.mp hnd
    rw [List.map_cons, List.map_cons, List.sum_cons, List.sum_cons, ih hnd]
    by_cases hut : u = t
    · subst hut
      rw [hmore, if_neg hu, if_pos List.mem_cons_self]
      ring
    · have hmem : t ∈ u :: ts ↔ t ∈ ts := by
        rw [List.mem_cons, or_iff_right (Ne.symm hut)]
      simp only [hsame u hut, hmem, add_assoc]

theorem income_undeveloped {tile : Tile} {r : ResourceType} (hdev : t ∈ s.extras.developed)
    (htile : s.map.tileById t = some tile) (hr : r ∈ yields)
    (heff : effectiveResource tile = some r) (q : PlayerId) (r' : ResourceType) :
    (computeIncome s q).of r' = (computeIncome (undeveloped s t) q).of r' +
      if t ∈ playerConnectedTiles s q ∧ r' = r then 2 else 0 := by
  have hconn : playerConnectedTiles (undeveloped s t) q = playerConnectedTiles s q := rfl
  have hsum : ((playerConnectedTiles s q).map fun u => (tileShare s u).of r').sum =
      ((playerConnectedTiles s q).map fun u => (tileShare (undeveloped s t) u).of r').sum +
        if t ∈ playerConnectedTiles s q then (if r' = r then 2 else 0) else 0 :=
    sum_bonus connected_nodup (fun u hu => by rw [share_other hu])
    (share_undeveloped hdev htile hr heff r')
  rw [computeIncome_of, computeIncome_of, hconn, hsum]
  rw [ite_and]

/-! ## One action -/

/-- No action takes a development back. -/
theorem developed_kept {payload : KingdomsPayload} {evs : List (KEvent R)}
    (h : Effect s p payload evs s') (hdev : t ∈ s.extras.developed) : t ∈ s'.extras.developed := by
  cases h with
  | recruited | built | demolished | moved | turned => exact hdev
  | developed => exact List.mem_append_left _ hdev
  | attacked _ _ _ _ _ _ _ hafter =>
    cases hafter with
    | repelled | eroded | occupied | toppled | annexed => exact hdev
  | wrapped _ hs₁ =>
    subst hs₁
    exact hdev

theorem not_developable (hdev : t ∈ s.extras.developed) (q : Option PlayerId) :
    developTileValidator s q t ≠ .ok () := by
  intro h
  simp only [developTileValidator, Eff.except_seq_eq_ok, rejectIf_eq_ok, orReject_bind_ok] at h
  obtain ⟨-, -, -, hnot, -⟩ := h
  exact hnot hdev

/-- What the action itself does. -/
theorem Effect.development {evs : List (KEvent R)} (h : Effect s p (.developTile t) evs s') :
    ∃ tile, s.map.tileById t = some tile ∧ t ∈ s'.extras.developed ∧ Spent s p 8 s' ∧
      evs = [kEvent p (.tileDeveloped t developCost (effectiveResource tile))] := by
  cases h with
  | @developed _ tile inv inv' _ _ htile hinv _ hinv' =>
    subst hinv'
    refine ⟨tile, htile, List.mem_append_right _ (List.mem_singleton_self t),
      ⟨fun r => ?_, fun id hid => ?_⟩, rfl⟩
    · simp only [setExtras, GameState.setInventory, OrderedMap.get?_set, if_true, hinv, stockOf,
        Option.map_some,
        Option.getD_some, Inventory.get_put]
      split
      · rename_i hr
        rw [hr]
        rfl
      · exact (sub_zero _).symm
    · simp only [setExtras, GameState.setInventory, OrderedMap.get?_set, if_neg hid]

/-! ## Runs -/

variable [Strength R] {g g' g₁ : KGame R}

theorem developed_run {opts : GameSetupOptions} (hid : (opts.players.map Player.id).Nodup)
    (hseat : (opts.players.map Player.seat).Nodup) {calls later : List (KCall R)}
    (h : Game.RunFrom (kingdomsScenario R) opts calls g)
    (hlater : Trace (Game.Step (kingdomsScenario R)) g later g')
    (hdev : t ∈ g.state.extras.developed) : t ∈ g'.state.extras.developed := by
  induction hlater generalizing calls with
  | nil => exact hdev
  | @cons g g₁ g' c later hstep _ ih =>
    refine ih (h.snoc hstep) ?_
    cases move_of_step (board_reachable hid hseat h).1 hstep with
    | idle _ hstate => rwa [hstate]
    | acted _ hF hstate =>
      obtain ⟨_, _, heff⟩ := hF
      have hkept := developed_kept heff hdev
      rw [hstate]
      exact hkept

/-- **Development pays what it promises.** An accepted `develop-tile` costs eight gold, nothing else
and nobody else anything. From then on the tile is not developed again, and every income is the one
without the development and two of the resource the event names, if the tile is connected to that
capital. -/
theorem develop_pays {opts : GameSetupOptions} (hid : (opts.players.map Player.id).Nodup)
    (hseat : (opts.players.map Player.seat).Nodup) {calls : List (KCall R)}
    (h : Game.RunFrom (kingdomsScenario R) opts calls g) {a : KAction}
    (hpay : a.payload = .developTile t) (hacc : Game.accepts (kingdomsScenario R) g a = true)
    {res : Except JsError (ActionResult (KingdomsEvent R))}
    (hstep : Game.Step (kingdomsScenario R) g (.submit a res) g₁) :
    ∃ p r, a.playerId = some p ∧ Spent g.state p 8 g₁.state ∧
      (∀ x, Game.Emits g g₁ x ↔ x = .tileDeveloped t 8 (some r)) ∧
      ∀ later g', Trace (Game.Step (kingdomsScenario R)) g₁ later g' → Bears g'.state t r := by
  have hs := (board_reachable hid hseat h).1
  have h₁ := h.snoc hstep
  cases move_of_step hs hstep with
  | idle hno =>
    rw [hno a res rfl] at hacc
    cases hacc
  | @acted _ _ _ evs s' status history tail _ hF hstate hemitted htail =>
    obtain ⟨hact, _, heff⟩ := hF
    rw [hpay] at heff
    obtain ⟨tile, htile, hdev, hspent, rfl⟩ := heff.development
    obtain ⟨r, hr, hres⟩ := effectiveResource_yields (armory_reachable hid hseat h).ground htile
    refine ⟨_, r, hact, ?_, fun x => ?_, fun later g' hlater => ?_⟩
    · rw [hstate]
      exact ⟨hspent.own, hspent.others⟩
    · rw [Game.emits_iff (Game.newEvents_append hemitted) htail, hres]
      simp [kEvent, developCost, eq_comm]
    · have hdev' : t ∈ g'.state.extras.developed :=
        developed_run hid hseat h₁ hlater (by rw [hstate]; exact hdev)
      have htile' : g'.state.map.tileById t = some tile := by
        rw [(armory_reachable hid hseat (h₁.append hlater)).ground.map,
          ← (armory_reachable hid hseat h).ground.map]
        exact htile
      exact ⟨not_developable hdev', income_undeveloped hdev' htile' hr hres⟩

/-- `p1` develops the capital in the first turn. -/
theorem develop_pays_capital : ∃ r res g₁, Game.play (kingdomsScenario ℚ) duel [.start] = .ok r ∧
    Game.Step (kingdomsScenario ℚ) r.2
      (.submit { playerId := some "p1", payload := .developTile "4,-4" } res) g₁ ∧
    ∃ p y, some "p1" = some p ∧ Spent r.2.state p 8 g₁.state ∧
      (∀ x, Game.Emits r.2 g₁ x ↔ x = .tileDeveloped "4,-4" 8 (some y)) ∧
      ∀ later g', Trace (Game.Step (kingdomsScenario ℚ)) g₁ later g' → Bears g'.state "4,-4" y := by
  have hobserved : (Game.play (kingdomsScenario ℚ) duel [.start]).toOption.map (fun r =>
      Game.accepts (kingdomsScenario ℚ) r.2
      { playerId := some "p1", payload := .developTile "4,-4" }) = some true := by
    decide +kernel
  obtain ⟨r, hr, hrun, hacc⟩ := Game.play_observed hobserved
  obtain ⟨res, g₁, hstep⟩ :=
    Game.submits (kingdomsScenario ℚ) r.2 { playerId := some "p1", payload := .developTile "4,-4" }
  exact ⟨r, res, g₁, hr, hstep, develop_pays (by decide) (by decide) hrun rfl hacc hstep⟩

end Boardgame.Kingdoms
