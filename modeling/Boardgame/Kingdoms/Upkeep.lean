import Boardgame.Kingdoms.Turns

/-!
# Kingdoms.Upkeep

What a round end does with food. Bought food is credited after the upkeep has been taken, so it is
never eaten: it stays in stock.

* `computeIncome_nonneg`: on the Kingdoms map no income is negative.
* `fed_surplus`: the cycle leaves what upkeep leaves, and on top of it what was bought.
* `food_eaten_iff`: the bought food is eaten if and only if none is bought.
-/

namespace Boardgame.Kingdoms

variable {R : Type}

/-! ## Incomes are not negative -/

def IncomeResult.Nonneg (income : IncomeResult) : Prop :=
  0 ≤ income.wood ∧ 0 ≤ income.food ∧ 0 ≤ income.iron ∧ 0 ≤ income.gold

theorem IncomeResult.Nonneg.of {i : IncomeResult} (h : i.Nonneg) (r : ResourceType) :
    0 ≤ i.of r := by
  obtain ⟨hw, hf, hn, hg⟩ := h
  unfold IncomeResult.of
  split_ifs
  · exact hw
  · exact hf
  · exact hn
  · exact hg
  · exact le_rfl

theorem addResource_nonneg {i : IncomeResult} (h : i.Nonneg) (r : String) {q : ℚ} (hq : 0 ≤ q) :
    (addResource i r q).Nonneg := by
  obtain ⟨hw, hf, hn, hg⟩ := h
  unfold addResource
  split
  · exact ⟨add_nonneg hw hq, hf, hn, hg⟩
  · exact ⟨hw, add_nonneg hf hq, hn, hg⟩
  · exact ⟨hw, hf, add_nonneg hn hq, hg⟩
  · exact ⟨hw, hf, hn, hg⟩

/-- Structures never make a yield smaller. -/
theorem combinedEffect_ge (ks : List String) : 1 ≤ (combinedEffect ks).goldMultiplier ∧
    0 ≤ (combinedEffect ks).goldFlat ∧ 1 ≤ (combinedEffect ks).resourceMultiplier := by
  have hall : ∀ d ∈ structureDefs, 1 ≤ d.incomeEffect.goldMultiplier ∧
      0 ≤ d.incomeEffect.goldFlat := by
    decide +kernel
  rw [combinedEffect]
  refine List.foldlRecOn ks _ (motive := fun acc : StructureIncomeEffect =>
    1 ≤ acc.goldMultiplier ∧ 0 ≤ acc.goldFlat ∧ 1 ≤ acc.resourceMultiplier)
    ⟨le_rfl, le_rfl, le_rfl⟩ ?_
  rintro acc ⟨hm, hf, hr⟩ k -
  cases h : structureStats k with
  | none => exact ⟨hm, hf, hr⟩
  | some d =>
    obtain ⟨hm', hf'⟩ := hall d (List.mem_of_find?_eq_some h)
    exact ⟨one_le_mul_of_one_le_of_one_le hm hm', add_nonneg hf hf', le_max_of_le_left hr⟩

/-- A map on which no tile has a negative economic value. -/
def Fertile (m : GameMap) : Prop :=
  ∀ id tile, m.tileById id = some tile → 0 ≤ (tile.properties.bind TileProps.economicValue).getD 1

theorem kingdomsMap_fertile (n : Nat) (seed : String) : Fertile (buildKingdomsMap n seed) := by
  intro id tile h
  obtain ⟨hmem, _⟩ := GameMap.tileById_build h
  obtain ⟨i, hi, rfl⟩ := List.mem_mapIdx.mp hmem
  simp [kingdomsTile, economicValue]

theorem floor_cast_nonneg {q : ℚ} (h : 0 ≤ q) : (0 : ℚ) ≤ (⌊q⌋ : ℤ) := by
  exact_mod_cast Int.floor_nonneg.mpr h

theorem addTileIncome_nonneg {s : KState R} (hm : Fertile s.map) {i : IncomeResult} (h : i.Nonneg)
    (t : TileId) : (addTileIncome s i t).Nonneg := by
  unfold addTileIncome
  split
  · exact h
  · rename_i tile htile
    obtain ⟨hmul, hflat, -⟩ := combinedEffect_ge (structuresAt s s.extras.mortgagedCities t)
    have hev := hm t tile htile
    obtain ⟨hw, hf, hn, hg⟩ := h
    have hgold :
        0 ≤ (calculateTileIncome tile (structuresAt s s.extras.mortgagedCities t)).gold := by
      refine add_nonneg (floor_cast_nonneg
        (mul_nonneg (mul_nonneg hev ?_) (zero_le_one.trans hmul))) hflat
      norm_num [goldPerEconomicValue]
    have hyield : (addYield i
        (calculateTileIncome tile (structuresAt s s.extras.mortgagedCities t))).Nonneg := by
      have h₁ : ({ i with gold := i.gold + (calculateTileIncome tile
          (structuresAt s s.extras.mortgagedCities t)).gold } : IncomeResult).Nonneg :=
        ⟨hw, hf, hn, add_nonneg hg hgold⟩
      unfold addYield
      dsimp only
      split
      · exact h₁
      · split
        · rename_i hpos
          exact addResource_nonneg h₁ _ hpos.2.le
        · exact h₁
    dsimp only
    split
    · unfold addDevelopBonus
      split
      · exact hyield
      · split
        · exact addResource_nonneg hyield _ (by norm_num [baseResourceYield])
        · exact hyield
    · exact hyield

theorem computeIncome_nonneg {s : KState R} (hm : Fertile s.map) (p : PlayerId) :
    (computeIncome s p).Nonneg := by
  have h0 : (⟨0, 0, 0, 0⟩ : IncomeResult).Nonneg := ⟨le_rfl, le_rfl, le_rfl, le_rfl⟩
  unfold computeIncome
  split
  · exact h0
  · split
    · exact h0
    · generalize playerConnectedTiles s p = ts
      suffices h : ∀ i : IncomeResult, i.Nonneg → (ts.foldl (addTileIncome s) i).Nonneg from h _ h0
      induction ts with
      | nil => exact fun i hi => hi
      | cons t ts ih => exact fun i hi => ih _ (addTileIncome_nonneg hm hi t)

theorem paidCount_eq {s : KState R} (hm : Fertile s.map) (p : PlayerId) (inv : Inventory)
    (r : ResourceType) : paidCount s p inv r = inv.get r + (computeIncome s p).of r := by
  rw [paidCount, max_eq_right ((computeIncome_nonneg hm p).of r)]

theorem Effect.map {s s' : KState R} {p : PlayerId} {payload : KingdomsPayload}
    {evs : List (KEvent R)} (h : Effect s p payload evs s') : s'.map = s.map := by
  cases h with
  | attacked _ _ _ _ _ _ _ hafter => cases hafter <;> rfl
  | wrapped _ hs₁ => subst hs₁; rfl
  | _ => rfl

/-! ## One cycle -/

/-- What the claim of a round end is: upkeep is paid from stock and from bought food, bought food is
eaten, and the rest of the gold, the wood and the iron change by income only. -/
structure FoodEaten (income : IncomeResult) (foodCost : ℚ) (inv inv' : Inventory) : Prop where
  food : inv'.get "food" = max 0 (inv.get "food" + income.food - foodCost)
  gold : inv'.get "gold" = inv.get "gold" + income.gold -
    3 * min (max 0 (foodCost - (inv.get "food" + income.food))) ⌊(inv.get "gold" + income.gold) / 3⌋
  wood : inv'.get "wood" = inv.get "wood" + income.wood
  iron : inv'.get "iron" = inv.get "iron" + income.iron

/-- No food is bought: stock and income cover the upkeep, or the gold does not pay for one unit. -/
def BuysNothing (income : IncomeResult) (foodCost : ℚ) (inv : Inventory) : Prop :=
  foodCost ≤ inv.get "food" + income.food ∨ inv.get "gold" + income.gold < 3

theorem affordable_eq {gold : ℚ} (hg : 0 ≤ gold) (deficit : ℚ) :
    affordable gold deficit = min (max 0 deficit) ⌊gold / 3⌋ := by
  have hfloor : (0 : ℚ) ≤ (⌊gold / 3⌋ : ℤ) := floor_cast_nonneg (div_nonneg hg (by norm_num))
  unfold affordable
  split
  · rename_i hd
    rw [max_eq_left hd, min_eq_left hfloor]
  · rename_i hd
    rw [max_eq_right (not_le.mp hd).le]
    rfl

/-- Upkeep leaves what it leaves, and the food bought comes on top. -/
theorem fed_surplus (counts : ResourceType → ℚ) (cost : ℚ) :
    fedCount counts cost "food" =
      max 0 (counts "food" - cost) + affordable (counts "gold") (cost - counts "food") := by
  have hrest : counts "food" - min (counts "food") cost = max 0 (counts "food" - cost) := by
    rcases le_total (counts "food") cost with h | h
    · rw [min_eq_left h, max_eq_left (by linarith), sub_self]
    · rw [min_eq_right h, max_eq_right (by linarith)]
  simp only [fedCount, if_neg (by decide : ¬ "food" = "gold"), if_true, hrest]

/-- A purchase is empty exactly when the stock covers the upkeep or the gold buys nothing. -/
theorem affordable_eq_zero {gold deficit : ℚ} (hg : 0 ≤ gold) :
    affordable gold deficit = 0 ↔ deficit ≤ 0 ∨ gold < 3 := by
  have hfloor : (⌊gold / 3⌋ : ℤ) ≤ 0 ↔ gold < 3 := by
    rw [← Int.lt_add_one_iff, zero_add, Int.floor_lt, Int.cast_one, div_lt_one (by norm_num)]
  constructor
  · intro h
    by_contra hno
    rw [not_or, not_le, ← hfloor, not_le] at hno
    have hpos : 0 < affordable gold deficit := by
      rw [affordable, if_neg (not_le.mpr hno.1)]
      exact lt_min hno.1 (by exact_mod_cast hno.2)
    exact hpos.ne' h
  · rintro (hd | hlt)
    · exact if_pos hd
    · refine le_antisymm ?_ (affordable_nonneg hg deficit)
      rw [affordable_eq hg]
      exact (min_le_right _ _).trans (by exact_mod_cast hfloor.mpr hlt)

/-- A cycle eats what it buys if and only if it buys nothing. -/
theorem cycle_eaten_iff {s : KState R} (hm : Fertile s.map) {p : PlayerId} {inv inv' : Inventory}
    (hw : inv.Whole) (h : inv'.get = cycleCount s p inv) :
    FoodEaten (computeIncome s p) (computeFoodCost s p) inv inv' ↔
      BuysNothing (computeIncome s p) (computeFoodCost s p) inv := by
  have hinc := computeIncome_nonneg hm p
  have hfood : paidCount s p inv "food" = inv.get "food" + (computeIncome s p).food :=
    paidCount_eq hm p inv _
  have hgold : paidCount s p inv "gold" = inv.get "gold" + (computeIncome s p).gold :=
    paidCount_eq hm p inv _
  have hpos : 0 ≤ paidCount s p inv "gold" := by
    rw [hgold]
    exact add_nonneg (hw.nonneg _) hinc.2.2.2
  have hbuys : BuysNothing (computeIncome s p) (computeFoodCost s p) inv ↔
      affordable (paidCount s p inv "gold") (computeFoodCost s p - paidCount s p inv "food") =
      0 := by
    rw [affordable_eq_zero hpos, hfood, hgold, BuysNothing, sub_nonpos]
  have hafter : inv'.get "food" = max 0
      (inv.get "food" + (computeIncome s p).food - computeFoodCost s p) +
      affordable (paidCount s p inv "gold") (computeFoodCost s p - paidCount s p inv "food") := by
    rw [h, cycleCount, fed_surplus, ← hfood]
  rw [hbuys]
  constructor
  · intro heaten
    have := heaten.food
    linarith
  · intro hzero
    refine ⟨by rw [hafter, hzero, add_zero], ?_, ?_, ?_⟩
    · have hbought := affordable_eq hpos (computeFoodCost s p - paidCount s p inv "food")
      rw [h, cycleCount, ← hfood, ← hgold, ← hbought]
      simp only [fedCount, if_true, exchangeRate]
      ring
    · rw [h, cycleCount]
      exact paidCount_eq hm p inv "wood"
    · rw [h, cycleCount]
      exact paidCount_eq hm p inv "iron"

/-! ## Runs -/

variable [Strength R]

theorem fertile_reachable {opts : GameSetupOptions} (hid : (opts.players.map Player.id).Nodup)
    (hseat : (opts.players.map Player.seat).Nodup) {calls : List (KCall R)} {g : KGame R}
    (h : Game.RunFrom (kingdomsScenario R) opts calls g) : Sound g.state ∧ Fertile g.state.map :=
  kingdoms_inv (I := fun s => Fertile s.map) (fun _ _ _ h => h)
    (fun _ _ _ _ _ _ hm heff => heff.map.symm ▸ hm) hid hseat
    (fun s hf _ => by rw [hf.map]; exact kingdomsMap_fertile _ _) h

/-- The food of one active player: in a cycle on the state of `g`, and in a call that ends a
round. -/
structure Eats (g : KGame R) (pl : Player) (inv : Inventory) : Prop where
  cycle : ∃ evs s' inv', (processPlayerCycle pl.id).run g.state = .ok evs s' ∧
    s'.inventories.get? pl.id = some inv' ∧
    FoodEaten (computeIncome g.state pl.id) (computeFoodCost g.state pl.id) inv inv'
  roundEnd : ∀ c g', Game.Step (kingdomsScenario R) g c g' → Wraps ⟨g, c, g'⟩ →
    ∃ inv', g'.state.inventories.get? pl.id = some inv' ∧
      FoodEaten (computeIncome g.state pl.id) (computeFoodCost g.state pl.id) inv inv'

/-- On a sound state the bought food of an active player is eaten if and only if none is bought. -/
theorem eats_iff {g : KGame R} (hs : Sound g.state) (hm : Fertile g.state.map) {pl : Player}
    (hpl : pl ∈ g.state.players.active) {inv : Inventory}
    (hinv : g.state.inventories.get? pl.id = some inv) :
    Eats g pl inv ↔
      BuysNothing (computeIncome g.state pl.id) (computeFoodCost g.state pl.id) inv := by
  have hw := hs.whole _ _ hinv
  constructor
  · rintro ⟨⟨evs, s', inv', hrun, hinv', heaten⟩, _⟩
    obtain ⟨inv₁, hrun₁, hget⟩ := cycle_run hinv hw
    rw [hrun] at hrun₁
    cases hrun₁
    rw [GameState.setInventory_same] at hinv'
    cases hinv'
    exact (cycle_eaten_iff hm hw hget).mp heaten
  · intro hbuys
    refine ⟨?_, fun c g' hstep hwrap => ?_⟩
    · obtain ⟨inv', hrun, hget⟩ := cycle_run hinv hw
      exact ⟨_, _, inv', hrun, GameState.setInventory_same _ _ _,
        (cycle_eaten_iff hm hw hget).mpr hbuys⟩
    · obtain ⟨inv', hinv', hget⟩ := call_paid hs hstep hwrap hpl hinv
      exact ⟨inv', hinv', (cycle_eaten_iff hm hw hget).mpr hbuys⟩

/-- In a reachable state an active player's bought food is eaten if and only if none is bought. -/
theorem food_eaten_iff {opts : GameSetupOptions} (hid : (opts.players.map Player.id).Nodup)
    (hseat : (opts.players.map Player.seat).Nodup) {calls : List (KCall R)} {g : KGame R}
    (h : Game.RunFrom (kingdomsScenario R) opts calls g) {pl : Player}
    (hpl : pl ∈ g.state.players.active) {inv : Inventory}
    (hinv : g.state.inventories.get? pl.id = some inv) :
    Eats g pl inv ↔
      BuysNothing (computeIncome g.state pl.id) (computeFoodCost g.state pl.id) inv := by
  obtain ⟨hs, hm⟩ := fertile_reachable hid hseat h
  exact eats_iff hs hm hpl hinv

/-! ## A hungry round -/

/-- Rounds in which both players only end their turns. -/
def idleRounds (n : Nat) : List (Game.Request KingdomsPayload) :=
  .start :: (List.replicate n [request "p1" .endTurn, request "p2" .endTurn]).flatten

/-- What the round end finds of `p`: the stock, the income and the upkeep. -/
def purse (s : KState R) (p : PlayerId) : Option (ℚ × ℚ × ℚ × ℚ × ℚ) :=
  (s.players.active.find? (·.id = p)).bind fun pl => (s.inventories.get? pl.id).map fun inv =>
    (inv.get "food", inv.get "gold", (computeIncome s pl.id).food, (computeIncome s pl.id).gold,
      computeFoodCost s pl.id)

omit [Strength R] in
theorem purse_eq_some {s : KState R} {p : PlayerId} {food gold foodIn goldIn cost : ℚ}
    (h : purse s p = some (food, gold, foodIn, goldIn, cost)) :
    ∃ pl ∈ s.players.active, pl.id = p ∧ ∃ inv, s.inventories.get? pl.id = some inv ∧
      inv.get "food" = food ∧ inv.get "gold" = gold ∧ (computeIncome s pl.id).food = foodIn ∧
      (computeIncome s pl.id).gold = goldIn ∧ computeFoodCost s pl.id = cost := by
  unfold purse at h
  rw [Option.bind_eq_some_iff] at h
  obtain ⟨pl, hfind, hmap⟩ := h
  obtain ⟨inv, hinv, heq⟩ := Option.map_eq_some_iff.mp hmap
  cases heq
  exact ⟨pl, List.mem_of_find?_eq_some hfind, by simpa using List.find?_some hfind, inv, hinv,
    rfl, rfl, rfl, rfl, rfl⟩

theorem duel_eats : ∃ r, Game.play (kingdomsScenario ℚ) duel (idleRounds 0) = .ok r ∧
    ∃ pl ∈ r.2.state.players.active, pl.id = "p2" ∧
      ∃ inv, r.2.state.inventories.get? pl.id = some inv ∧ Eats r.2 pl inv := by
  have hplay : (Game.play (kingdomsScenario ℚ) duel (idleRounds 0)).toOption.map (fun r =>
      purse r.2.state "p2") =
      some (some (8, 30, 0, 2, 3)) := by decide +kernel
  obtain ⟨r, hr, hrun, hpurse⟩ := Game.play_observed hplay
  obtain ⟨pl, hpl, hid, inv, hinv, hfood, _, hin, _, hcost⟩ := purse_eq_some hpurse
  refine ⟨r, hr, pl, hpl, hid, inv, hinv,
    (food_eaten_iff (by decide) (by decide) hrun hpl hinv).mpr (.inl ?_)⟩
  rw [hcost, hfood, hin]
  norm_num

/-- After two idle rounds `p2` has two food for an upkeep of three: the one bought stays in
stock. -/
theorem idle_overfed : ∃ r, Game.play (kingdomsScenario ℚ) duel (idleRounds 2) = .ok r ∧
    ∃ pl ∈ r.2.state.players.active, pl.id = "p2" ∧
      ∃ inv, r.2.state.inventories.get? pl.id = some inv ∧ ¬ Eats r.2 pl inv := by
  have hplay : (Game.play (kingdomsScenario ℚ) duel (idleRounds 2)).toOption.map (fun r =>
      purse r.2.state "p2") =
      some (some (2, 34, 0, 2, 3)) := by decide +kernel
  obtain ⟨r, hr, hrun, hpurse⟩ := Game.play_observed hplay
  obtain ⟨pl, hpl, hid, inv, hinv, hfood, hgold, hin, hgin, hcost⟩ := purse_eq_some hpurse
  obtain ⟨hs, hm⟩ := fertile_reachable (by decide) (by decide) hrun
  refine ⟨r, hr, pl, hpl, hid, inv, hinv, fun heats => ?_⟩
  have hbuys := (eats_iff hs hm hpl hinv).mp heats
  rw [BuysNothing, hcost, hfood, hgold, hin, hgin] at hbuys
  norm_num at hbuys

end Boardgame.Kingdoms
