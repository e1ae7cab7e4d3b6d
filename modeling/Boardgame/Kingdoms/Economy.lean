import Boardgame.Lib.Respects
import Boardgame.Kingdoms.State

/-!
# Kingdoms.Economy

Income, food and the round end (`economy.ts`, `income.ts`, `resources.ts`, `economy-loop.ts`).

* `cycle_run`: one player's cycle, from an inventory with no debt: what each count becomes and
  which events are pushed; the mortgage branch is not taken.
* `cycle_respects`: what a cycle does is independent of the other players' inventories.
* `cycles_run`, `processRoundEnd_run`: cycles one after the other do what each does alone, and
  change inventories only.
-/

namespace Boardgame.Kingdoms

variable {R : Type}

/-! ## Tile income -/

structure TileIncome where
  gold : ℚ
  resource : Option String
  resourceAmount : ℚ
  deriving DecidableEq

/-- The multipliers of the structures on a tile, taken together. -/
def combinedEffect (structureKinds : List String) : StructureIncomeEffect :=
  structureKinds.foldl (fun acc kind =>
    match structureStats kind with
    | none => acc
    | some d =>
      { goldMultiplier := acc.goldMultiplier * d.incomeEffect.goldMultiplier
        goldFlat := acc.goldFlat + d.incomeEffect.goldFlat
        resourceMultiplier := max acc.resourceMultiplier d.incomeEffect.resourceMultiplier })
    ⟨0, 1, 1⟩

def calculateTileIncome (tile : Tile) (structureKinds : List String) : TileIncome :=
  let economicValue := (tile.properties.bind TileProps.economicValue).getD 1
  let resourceType := tile.properties.bind TileProps.resourceType
  let fx := combinedEffect structureKinds
  let gold : ℚ := ⌊economicValue * goldPerEconomicValue * fx.goldMultiplier⌋ + fx.goldFlat
  let resourceAmount : ℚ :=
    if resourceType = none ∨ resourceType = some "" then 0
    else ⌊baseResourceYield * fx.resourceMultiplier⌋
  { gold, resource := if resourceAmount > 0 then resourceType else none, resourceAmount }

def calculateFoodConsumption (unitKinds : List String) : ℚ :=
  unitKinds.foldl (fun total kind => total + ((unitStats kind).map UnitDef.foodPerRound).getD 0) 0

def calculateStructureFoodCost (structureKinds : List String) : ℚ :=
  structureKinds.foldl
    (fun total kind => total + ((structureStats kind).map StructureDef.foodCostPerRound).getD 0) 0

/-! ## Player income -/

/-- `buildStructureMap(state, mortgagedIds).get(tileId) ?? []`. -/
def structuresAt (s : KState R) (mortgagedIds : List PieceId) (tileId : TileId) : List String :=
  (s.pieces.entries.filter fun e =>
    e.1 ∉ mortgagedIds ∧ e.2.kind ∈ structureKinds ∧ tileOf e.2 = some tileId).map (·.2.kind)

def addResource (result : IncomeResult) (resource : String) (amount : ℚ) : IncomeResult :=
  match resource with
  | "wood" => { result with wood := result.wood + amount }
  | "food" => { result with food := result.food + amount }
  | "iron" => { result with iron := result.iron + amount }
  | _ => result

/-- `tile.properties?.['resourceType'] ?? TERRAIN_DEVELOPS_INTO[tile.terrain] ?? null`. -/
def effectiveResource (tile : Tile) : Option String :=
  match tile.properties.bind TileProps.resourceType with
  | some r => some r
  | none => terrainDevelopsInto tile.terrain

/-- `result.gold += income.gold`, and the tile's own resource. -/
def addYield (result : IncomeResult) (income : TileIncome) : IncomeResult :=
  let result := { result with gold := result.gold + income.gold }
  match income.resource with
  | none => result
  | some r =>
    if r ≠ "" ∧ income.resourceAmount > 0 then addResource result r
      income.resourceAmount else result

def addDevelopBonus (result : IncomeResult) (tile : Tile) : IncomeResult :=
  match effectiveResource tile with
  | none => result
  | some r => if r ≠ "" then addResource result r baseResourceYield else result

/-- What a tile adds to its owner's income. -/
def addTileIncome (s : KState R) (result : IncomeResult) (tileId : TileId) : IncomeResult :=
  match s.map.tileById tileId with
  | none => result
  | some tile =>
    let result := addYield result
      (calculateTileIncome tile (structuresAt s s.extras.mortgagedCities tileId))
    if tileId ∈ s.extras.developed then addDevelopBonus result tile else result

def computeIncome (s : KState R) (playerId : PlayerId) : IncomeResult :=
  match s.extras.capitals.get? playerId with
  | none => ⟨0, 0, 0, 0⟩
  | some capitalId =>
    if capitalId = "" then ⟨0, 0, 0, 0⟩
    else (playerConnectedTiles s playerId).foldl (addTileIncome s) ⟨0, 0, 0, 0⟩

def computeFoodCost (s : KState R) (playerId : PlayerId) : ℚ :=
  let mine := (s.pieces.entries.filter fun e =>
    e.2.owner = playerId ∧ e.1 ∉ s.extras.mortgagedCities).map (·.2.kind)
  let units := mine.filter fun k => (unitStats k).isSome
  let structures := mine.filter fun k => (unitStats k).isNone ∧ k ∈ structureKinds
  calculateFoodConsumption units + calculateStructureFoodCost structures

/-! ## The market -/

def executeExchange (playerId : PlayerId) (resource : ResourceType) (qty : ℚ) : KExec R Unit :=
  Eff.when (¬ qty ≤ 0) do
    removeFrom playerId "gold" (qty * exchangeRate)
    addTo playerId resource qty

def exchangeForFood (playerId : PlayerId) (foodNeeded : ℚ) : KExec R ℚ :=
  if foodNeeded ≤ 0 then pure 0
  else do
    let inv ← inventoryOf playerId
    let maxAffordable : ℚ := ⌊inv.get "gold" / exchangeRate⌋
    let purchased := min foodNeeded maxAffordable
    Eff.when (purchased > 0) (executeExchange playerId "food" purchased)
    return purchased

/-! ## The round end -/

/-- The trailing digits of a piece id, as a number. -/
def idOrder (pieceId : PieceId) : Nat :=
  (pieceId.toList.reverse.takeWhile Char.isDigit).reverse.foldl
  (fun n c => 10 * n + (c.toNat - 48)) 0

def findOldestUnmortgagedCity (s : KState R) (playerId : PlayerId) (mortgagedIds : List PieceId) :
    Option PieceId :=
  let cities := s.pieces.entries.filter fun e =>
    e.2.owner = playerId ∧ e.2.kind = "city" ∧ e.1 ∉ mortgagedIds
  (cities.foldl (fun (oldest : Option (PieceId × Nat)) e =>
    match oldest with
    | none => some (e.1, idOrder e.1)
    | some (id, order) => if idOrder e.1 < order then some (e.1, idOrder e.1) else some (id, order))
    none).map Prod.fst

def findDisconnectedTiles (s : KState R) (playerId : PlayerId) : List TileId :=
  let connected := playerConnectedTiles s playerId
  (s.extras.ownership.entries.filter fun e => e.2 = playerId ∧ e.1 ∉ connected).map Prod.fst

/-- Step 1 of `processPlayerCycle`. -/
def collectIncome (playerId : PlayerId) (income : IncomeResult) : KExec R Unit := do
  Eff.when (income.wood > 0) (addTo playerId "wood" income.wood)
  Eff.when (income.food > 0) (addTo playerId "food" income.food)
  Eff.when (income.iron > 0) (addTo playerId "iron" income.iron)
  Eff.when (income.gold > 0) (addTo playerId "gold" income.gold)

/-- Step 2a. -/
def buyFood (playerId : PlayerId) (rawDeficit : ℚ) : KExec R (List (KEvent R)) :=
  if rawDeficit > 0 then do
    let purchased ← exchangeForFood playerId rawDeficit
    return if purchased > 0 then [kEvent playerId
      (.foodPurchased purchased (purchased * exchangeRate))]
      else []
  else pure []

/-- Step 2. -/
def consumeFood (playerId : PlayerId) (foodCost : ℚ) : KExec R (List (KEvent R)) :=
  if foodCost > 0 then do
    let inv ← inventoryOf playerId
    let foodHave := inv.get "food"
    let foodUsed := min foodHave foodCost
    Eff.when (foodUsed > 0) (removeFrom playerId "food" foodUsed)
    let bought ← buyFood playerId (foodCost - foodHave)
    return kEvent playerId (.foodConsumed foodUsed foodCost) :: bought
  else pure []

/-- Step 3. -/
def mortgage (playerId : PlayerId) : KExec R (List (KEvent R)) := do
  let inv ← inventoryOf playerId
  if inv.get "gold" < 0 then do
    let s ← get
    match findOldestUnmortgagedCity s playerId s.extras.mortgagedCities with
    | none => return []
    | some city => do
      set (setExtras (fun x => { x with mortgagedCities := x.mortgagedCities ++ [city] }) s)
      return [kEvent playerId (.cityMortgaged city)]
  else return []

def processPlayerCycle (playerId : PlayerId) : KExec R (List (KEvent R)) := do
  match (← get).inventories.get? playerId with
  | none => return []
  | some _ => do
    let income := computeIncome (← get) playerId
    collectIncome playerId income
    let foodCost := computeFoodCost (← get) playerId
    let fed ← consumeFood playerId foodCost
    let mortgaged ← mortgage playerId
    return kEvent playerId (.incomeCollected income) :: (fed ++ mortgaged)

/-- Step 4, for one player. -/
def reportDisconnected (s : KState R) (playerId : PlayerId) : List (KEvent R) :=
  let tileIds := findDisconnectedTiles s playerId
  if tileIds.length > 0 then [kEvent playerId (.territoryDisconnected tileIds)] else []

def processRoundEnd : KExec R (List (KEvent R)) := do
  let activePlayers := (← get).players.active
  let cycles ← Eff.collect (fun player => processPlayerCycle player.id) activePlayers
  let s ← get
  return cycles ++ activePlayers.flatMap (fun player => reportDisconnected s player.id) ++
    [{ body := .scenario (.roundEnded s.rounds.round) }]

/-! ## One player's cycle -/

section Cycle

variable (s : KState R) (p : PlayerId) (inv : Inventory)

/-- The program `x` only changes `p`'s inventory, from `inv` to one with `P`, and returns `a`. -/
def Trades {α : Type} (x : KExec R α) (a : α) (P : Inventory → Prop) : Prop :=
  ∃ inv', x.run (s.setInventory p inv) = .ok a (s.setInventory p inv') ∧ P inv'

theorem Trades.bind {α β : Type} {x : KExec R α} {f : α → KExec R β} {a : α} {b : β}
    {P Q : Inventory → Prop} (h : Trades s p inv x a P)
    (h' : ∀ inv', P inv' → Trades s p inv' (f a) b Q) : Trades s p inv (x >>= f) b Q := by
  obtain ⟨i₁, h₁, hP⟩ := h
  obtain ⟨i₂, h₂, hQ⟩ := h' i₁ hP
  exact ⟨i₂, by rw [Eff.bind_ok h₁, h₂], hQ⟩

theorem Trades.pure {α : Type} (a : α) : Trades s p inv (Pure.pure a : KExec R α) a (· = inv) :=
  ⟨inv, rfl, rfl⟩

theorem inventoryOf_trades : Trades s p inv (inventoryOf p) inv (· = inv) :=
  ⟨inv, inventoryOf_run (s.setInventory_same p inv), rfl⟩

theorem addTo_trades (r : ResourceType) {q : ℚ} (hq : 0 ≤ q) :
    Trades s p inv (addTo p r q) () (· = inv.put r (inv.get r + q)) :=
  ⟨_, by rw [addTo_run (s.setInventory_same p inv) hq, GameState.setInventory_setInventory], rfl⟩

theorem removeFrom_trades {r : ResourceType} {q : ℚ} (hq : 0 ≤ q) (hle : q ≤ inv.get r) :
    Trades s p inv (removeFrom p r q) () (· = inv.put r (inv.get r - q)) :=
  ⟨_, by rw [removeFrom_run (s.setInventory_same p inv) hq hle,
    GameState.setInventory_setInventory], rfl⟩

theorem credit_run (r : ResourceType) (q : ℚ) :
    Trades s p inv (Eff.when (q > 0) (addTo p r q)) () fun inv' =>
      ∀ r', inv'.get r' = if r' = r then inv.get r + max 0 q else inv.get r' := by
  by_cases hq : q > 0
  · rw [Eff.when_true hq]
    obtain ⟨inv', hrun, rfl⟩ := addTo_trades s p inv r hq.le
    exact ⟨_, hrun, fun r' => by rw [Inventory.get_put, max_eq_right hq.le]⟩
  · rw [Eff.when_false hq]
    refine ⟨inv, rfl, fun r' => ?_⟩
    rw [max_eq_left (not_lt.mp hq), add_zero]
    split <;> simp_all

/-- What an income brings of a resource. -/
def IncomeResult.of (income : IncomeResult) (r : ResourceType) : ℚ :=
  if r = "wood" then income.wood else if r = "food" then income.food
  else if r = "iron" then income.iron else if r = "gold" then income.gold else 0

theorem collectIncome_run (income : IncomeResult) :
    Trades s p inv (collectIncome p income) () fun inv' =>
      ∀ r, inv'.get r = inv.get r + max 0 (income.of r) := by
  obtain ⟨i₁, h₁, g₁⟩ := credit_run s p inv "wood" income.wood
  obtain ⟨i₂, h₂, g₂⟩ := credit_run s p i₁ "food" income.food
  obtain ⟨i₃, h₃, g₃⟩ := credit_run s p i₂ "iron" income.iron
  obtain ⟨i₄, h₄, g₄⟩ := credit_run s p i₃ "gold" income.gold
  refine ⟨i₄, by rw [collectIncome, Eff.bind_ok h₁, Eff.bind_ok h₂, Eff.bind_ok h₃, h₄],
    fun r => ?_⟩
  by_cases hw : r = "wood"
  · subst hw; simp [IncomeResult.of, g₄, g₃, g₂, g₁]
  by_cases hf : r = "food"
  · subst hf; simp [IncomeResult.of, g₄, g₃, g₂, g₁]
  by_cases hi : r = "iron"
  · subst hi; simp [IncomeResult.of, g₄, g₃, g₂, g₁]
  by_cases hg : r = "gold"
  · subst hg; simp [IncomeResult.of, g₄, g₃, g₂, g₁]
  simp [IncomeResult.of, g₄, g₃, g₂, g₁, hw, hf, hi, hg]

/-- What an amount of gold buys of a deficit. -/
def affordable (gold deficit : ℚ) : ℚ :=
  if deficit ≤ 0 then 0 else min deficit ⌊gold / exchangeRate⌋

theorem exchangeRate_pos : 0 < exchangeRate := by norm_num [exchangeRate]

theorem affordable_nonneg {gold : ℚ} (hg : 0 ≤ gold) (deficit : ℚ) :
    0 ≤ affordable gold deficit := by
  unfold affordable
  split
  · exact le_refl _
  · rename_i hd
    exact le_min (not_le.mp hd).le
      (by exact_mod_cast Int.floor_nonneg.mpr (div_nonneg hg exchangeRate_pos.le))

theorem affordable_le {gold : ℚ} (hg : 0 ≤ gold) (deficit : ℚ) :
    affordable gold deficit * exchangeRate ≤ gold := by
  unfold affordable
  split
  · simpa using hg
  · rw [← le_div_iff₀ exchangeRate_pos]
    exact le_trans (min_le_right _ _) (Int.floor_le _)

theorem exchangeForFood_run (hg : 0 ≤ inv.get "gold") (deficit : ℚ) :
    Trades s p inv (exchangeForFood p deficit) (affordable (inv.get "gold") deficit) fun inv' =>
      ∀ r, inv'.get r =
        if r = "gold" then inv.get "gold" - affordable (inv.get "gold") deficit * exchangeRate
        else if r = "food" then inv.get "food" + affordable (inv.get "gold") deficit
        else inv.get r := by
  have hb := affordable_nonneg hg deficit
  have hle := affordable_le hg deficit
  unfold exchangeForFood
  split
  · rename_i hd
    have h0 : affordable (inv.get "gold") deficit = 0 := if_pos hd
    rw [h0]
    exact ⟨inv, rfl, fun r => by split_ifs <;> simp_all⟩
  · rename_i hd
    have hpur : min deficit (⌊inv.get "gold" / exchangeRate⌋ : ℚ) =
        affordable (inv.get "gold") deficit :=
      (if_neg hd).symm
    refine .bind s p inv (inventoryOf_trades s p inv) ?_
    intro i hi
    dsimp only
    rw [hi, hpur]
    refine .bind s p _ (a := ()) (P := fun inv' => ∀ r, inv'.get r =
        if r = "gold" then inv.get "gold" - affordable (inv.get "gold") deficit * exchangeRate
        else if r = "food" then inv.get "food" + affordable (inv.get "gold") deficit
        else inv.get r) ?_ fun i hi => ⟨i, rfl, hi⟩
    by_cases hp : affordable (inv.get "gold") deficit > 0
    · rw [Eff.when_true hp, executeExchange, Eff.when_true (not_le.mpr hp)]
      refine .bind s p _ (removeFrom_trades s p _ (mul_nonneg hb exchangeRate_pos.le) hle) ?_
      intro i hi
      rw [hi]
      obtain ⟨i, hi, rfl⟩ := addTo_trades s p (inv.put "gold" (inv.get "gold" -
        affordable (inv.get "gold") deficit * exchangeRate)) "food" hb
      refine ⟨_, hi, fun r => ?_⟩
      simp only [Inventory.get_put]
      split_ifs <;> simp_all
    · rw [Eff.when_false hp]
      have h0 : affordable (inv.get "gold") deficit = 0 := le_antisymm (not_lt.mp hp) hb
      exact ⟨inv, rfl, fun r => by split_ifs <;> simp_all⟩

/-- The counts once food is eaten and bought. -/
def fedCount (counts : ResourceType → ℚ) (foodCost : ℚ) (r : ResourceType) : ℚ :=
  let bought := affordable (counts "gold") (foodCost - counts "food")
  if r = "gold" then counts "gold" - bought * exchangeRate
  else if r = "food" then counts "food" - min (counts "food") foodCost + bought
  else counts r

/-- The events of step 2. -/
def fedEvents (counts : ResourceType → ℚ) (foodCost : ℚ) : List (KEvent R) :=
  let bought := affordable (counts "gold") (foodCost - counts "food")
  if foodCost > 0 then
    kEvent p (.foodConsumed (min (counts "food") foodCost) foodCost) ::
      if bought > 0 then [kEvent p (.foodPurchased bought (bought * exchangeRate))] else []
  else []

theorem buyFood_run (hg : 0 ≤ inv.get "gold") (deficit : ℚ) :
    Trades s p inv (buyFood p deficit)
      (if affordable (inv.get "gold") deficit > 0 then
        [kEvent p (.foodPurchased (affordable (inv.get "gold") deficit)
          (affordable (inv.get "gold") deficit * exchangeRate))]
      else []) fun inv' =>
        ∀ r, inv'.get r =
          if r = "gold" then inv.get "gold" - affordable (inv.get "gold") deficit * exchangeRate
          else if r = "food" then inv.get "food" + affordable (inv.get "gold") deficit
          else inv.get r := by
  unfold buyFood
  split
  · exact .bind s p inv (exchangeForFood_run s p inv hg deficit) fun i hi => ⟨i, rfl, hi⟩
  · rename_i hd
    have h0 : affordable (inv.get "gold") deficit = 0 := if_pos (not_lt.mp hd)
    rw [h0]
    exact ⟨inv, rfl, fun r => by split_ifs <;> simp_all⟩

theorem consumeFood_run (hg : 0 ≤ inv.get "gold") (hf : 0 ≤ inv.get "food") {foodCost : ℚ}
    (hc : 0 ≤ foodCost) :
    Trades s p inv (consumeFood p foodCost) (fedEvents p inv.get foodCost) fun inv' =>
      ∀ r, inv'.get r = fedCount inv.get foodCost r := by
  unfold consumeFood fedEvents
  by_cases hpos : foodCost > 0
  · rw [if_pos hpos, if_pos hpos]
    refine .bind s p inv (inventoryOf_trades s p inv) ?_
    intro i hi
    dsimp only
    rw [hi]
    -- eating changes the food count only, so the gold the purchase sees is the same
    have heat : Trades s p inv (Eff.when (min (inv.get "food") foodCost > 0)
        (removeFrom p "food" (min (inv.get "food") foodCost))) () fun inv' =>
          ∀ r, inv'.get r =
            if r = "food" then inv.get "food" - min (inv.get "food") foodCost else inv.get r := by
      by_cases hm : min (inv.get "food") foodCost > 0
      · rw [Eff.when_true hm]
        obtain ⟨j, hj, rfl⟩ := removeFrom_trades s p inv hm.le (min_le_left _ _)
        exact ⟨_, hj, fun r => by rw [Inventory.get_put]⟩
      · rw [Eff.when_false hm]
        have h0 : min (inv.get "food") foodCost = 0 := le_antisymm (not_lt.mp hm) (le_min hf hc)
        exact ⟨inv, rfl, fun r => by rw [h0]; split_ifs <;> simp_all⟩
    refine .bind s p inv heat ?_
    intro i₁ h₁
    have hgold : i₁.get "gold" = inv.get "gold" := by rw [h₁]; simp
    refine .bind s p i₁ (buyFood_run s p i₁ (by rw [hgold]; exact hg) _) ?_
    intro i₂ h₂
    rw [hgold] at h₂ ⊢
    refine ⟨i₂, rfl, fun r => ?_⟩
    rw [h₂, fedCount, h₁ "food", if_pos rfl]
    split_ifs <;> simp_all
  · rw [if_neg hpos, if_neg hpos]
    have h0 : foodCost = 0 := le_antisymm (not_lt.mp hpos) hc
    have hb : affordable (inv.get "gold") (0 - inv.get "food") = 0 := if_pos (by linarith)
    refine ⟨inv, rfl, fun r => ?_⟩
    rw [fedCount, h0, hb, min_eq_right hf]
    split_ifs <;> simp_all

theorem fedCount_gold_nonneg (hg : 0 ≤ inv.get "gold") (foodCost : ℚ) :
    0 ≤ fedCount inv.get foodCost "gold" := by
  have := affordable_le hg (foodCost - inv.get "food")
  simp only [fedCount, if_pos]
  linarith

/-- Gold is never negative here, so step 3 does nothing. -/
theorem mortgage_run (hg : 0 ≤ inv.get "gold") : Trades s p inv (mortgage p) [] (· = inv) := by
  refine .bind s p inv (inventoryOf_trades s p inv) ?_
  intro i hi
  rw [hi, if_neg (not_lt.mpr hg)]
  exact .pure s p inv []

end Cycle

/-! ## The frame of a cycle -/

section Frame

variable {p : PlayerId}

/-- States that differ in the inventories of other players than `p`. -/
def SameFor (p : PlayerId) (s t : KState R) : Prop :=
  ∃ invs, t = { s with inventories := invs } ∧ invs.get? p = s.inventories.get? p

theorem SameFor.setInventory {s t : KState R} (h : SameFor p s t) (inv : Inventory) :
    SameFor p (s.setInventory p inv) (t.setInventory p inv) := by
  obtain ⟨invs, rfl, _⟩ := h
  exact ⟨invs.set p inv, rfl, by simp [GameState.setInventory]⟩

theorem sameFor_other {s : KState R} {q : PlayerId} (hne : p ≠ q) (inv : Inventory) :
    SameFor p (s.setInventory q inv) s :=
  ⟨s.inventories, rfl, by rw [GameState.setInventory_get?, if_neg hne]⟩

theorem inventory_read (s t : KState R) (h : SameFor p s t) :
    s.inventories.get? p = t.inventories.get? p := by
  obtain ⟨invs, rfl, hp⟩ := h
  exact hp.symm

theorem inventoryOf_respects : Eff.Respects (SameFor p) (inventoryOf p : KExec R Inventory) := by
  refine .get fun s t h => ?_
  rw [inventory_read s t h]
  cases t.inventories.get? p with
  | none => exact ⟨rfl, h⟩
  | some inv => exact ⟨rfl, h⟩

theorem addTo_respects (r : ResourceType) (q : ℚ) :
    Eff.Respects (SameFor p) (addTo p r q : KExec R Unit) :=
  .bind inventoryOf_respects fun _ => .bind (.liftExcept _) fun inv => .modify fun _ _ h =>
    h.setInventory inv

theorem removeFrom_respects (r : ResourceType) (q : ℚ) :
    Eff.Respects (SameFor p) (removeFrom p r q : KExec R Unit) :=
  .bind inventoryOf_respects fun _ => .bind (.liftExcept _) fun inv => .modify fun _ _ h =>
    h.setInventory inv

theorem collectIncome_respects (income : IncomeResult) :
    Eff.Respects (SameFor p) (collectIncome p income : KExec R Unit) :=
  .bind (.when (addTo_respects _ _)) fun _ => .bind (.when (addTo_respects _ _)) fun _ =>
    .bind (.when (addTo_respects _ _)) fun _ => .when (addTo_respects _ _)

theorem exchangeForFood_respects (foodNeeded : ℚ) :
    Eff.Respects (SameFor p) (exchangeForFood p foodNeeded : KExec R ℚ) := by
  unfold exchangeForFood
  split
  · exact .pure 0
  · refine .bind inventoryOf_respects fun inv => .bind (.when (.when ?_)) fun _ => .pure _
    exact .bind (removeFrom_respects _ _) fun _ => addTo_respects _ _

theorem consumeFood_respects (foodCost : ℚ) :
    Eff.Respects (SameFor p) (consumeFood p foodCost : KExec R (List (KEvent R))) := by
  unfold consumeFood
  split
  · refine .bind inventoryOf_respects fun inv => .bind (.when (removeFrom_respects _ _)) fun _ =>
      .bind ?_ fun _ => .pure _
    unfold buyFood
    split
    · exact .bind (exchangeForFood_respects _) fun _ => .pure _
    · exact .pure _
  · exact .pure _

theorem mortgage_respects : Eff.Respects (SameFor p) (mortgage p : KExec R (List (KEvent R))) := by
  refine .bind inventoryOf_respects fun inv => ?_
  split
  · refine .get fun s t h => ?_
    obtain ⟨invs, rfl, hp⟩ := h
    -- which city is mortgaged does not depend on inventories
    have hcity : findOldestUnmortgagedCity ({ s with inventories := invs } : KState R) p
        s.extras.mortgagedCities = findOldestUnmortgagedCity s p s.extras.mortgagedCities := rfl
    rw [hcity]
    split
    · exact ⟨rfl, invs, rfl, hp⟩
    · exact ⟨rfl, invs, rfl, hp⟩
  · exact .pure _

/-- Income and upkeep are read from the board, and only `p`'s own inventory is read and written. -/
theorem cycle_respects :
    Eff.Respects (SameFor p) (processPlayerCycle p : KExec R (List (KEvent R))) := by
  have hfed : ∀ (income : IncomeResult) (cost : ℚ), Eff.Respects (SameFor p) (do
      let fed ← consumeFood p cost
      let mortgaged ← mortgage p
      return kEvent p (.incomeCollected income) :: (fed ++ mortgaged) : KExec R
        (List (KEvent R))) :=
    fun income cost => .bind (consumeFood_respects cost) fun fed =>
      .bind mortgage_respects fun mortgaged => .pure _
  have hpaid : ∀ income : IncomeResult, Eff.Respects (SameFor p) (do
      collectIncome p income
      let foodCost := computeFoodCost (← get) p
      let fed ← consumeFood p foodCost
      let mortgaged ← mortgage p
      return kEvent p (.incomeCollected income) :: (fed ++ mortgaged) : KExec R
        (List (KEvent R))) := by
    refine fun income => .bind (collectIncome_respects income) fun _ => .get ?_
    rintro s t ⟨invs, rfl, hp⟩
    exact hfed income (computeFoodCost s p) s _ ⟨invs, rfl, hp⟩
  unfold processPlayerCycle
  refine .get fun s t h => ?_
  rw [inventory_read s t h]
  cases t.inventories.get? p with
  | none => exact ⟨rfl, h⟩
  | some inv =>
    refine Eff.Respects.get ?_ s t h
    rintro s t ⟨invs, rfl, hp⟩
    exact hpaid (computeIncome s p) s _ ⟨invs, rfl, hp⟩

end Frame

/-! ## Whole numbers -/

theorem foldl_add_whole {α : Type} {f : α → ℚ} (h : ∀ a, ∃ n : ℕ, f a = n) (l : List α) :
    ∀ {q : ℚ}, (∃ n : ℕ, q = n) → ∃ n : ℕ, l.foldl (fun t a => t + f a) q = n := by
  induction l with
  | nil => intro q hq; exact hq
  | cons a l ih =>
    rintro q ⟨m, rfl⟩
    obtain ⟨k, hk⟩ := h a
    exact ih ⟨m + k, by simp only [hk, Nat.cast_add]⟩

theorem calculateFoodConsumption_whole (ks : List String) :
    ∃ n : ℕ, calculateFoodConsumption ks = n := by
  refine foldl_add_whole (fun k => ?_) ks ⟨0, rfl⟩
  cases h : unitStats k with
  | none => exact ⟨0, by simp⟩
  | some d =>
    have hall : ∀ d ∈ unitDefs, d.foodPerRound = (d.foodPerRound.num.toNat : ℚ) := by
      simp [unitDefs]
    exact ⟨_, hall d (List.mem_of_find?_eq_some h)⟩

theorem calculateStructureFoodCost_whole (ks : List String) :
    ∃ n : ℕ, calculateStructureFoodCost ks = n := by
  refine foldl_add_whole (fun k => ?_) ks ⟨0, rfl⟩
  cases h : structureStats k with
  | none => exact ⟨0, by simp⟩
  | some d =>
    have hall : ∀ d ∈ structureDefs, d.foodCostPerRound = (d.foodCostPerRound.num.toNat : ℚ) := by
      simp [structureDefs]
    exact ⟨_, hall d (List.mem_of_find?_eq_some h)⟩

theorem computeFoodCost_whole (s : KState R) (p : PlayerId) : ∃ n : ℕ, computeFoodCost s p = n := by
  obtain ⟨m, hm⟩ := calculateFoodConsumption_whole (((s.pieces.entries.filter fun e =>
    e.2.owner = p ∧ e.1 ∉ s.extras.mortgagedCities).map (·.2.kind)).filter
      fun k => (unitStats k).isSome)
  obtain ⟨n, hn⟩ := calculateStructureFoodCost_whole (((s.pieces.entries.filter fun e =>
    e.2.owner = p ∧ e.1 ∉ s.extras.mortgagedCities).map (·.2.kind)).filter
      fun k => (unitStats k).isNone ∧ k ∈ structureKinds)
  exact ⟨m + n, by rw [Nat.cast_add, ← hm, ← hn]; rfl⟩

/-- An income of integers. -/
def IncomeResult.Whole (income : IncomeResult) : Prop := ∀ r, ∃ z : ℤ, income.of r = z

theorem IncomeResult.whole_iff {i : IncomeResult} :
    i.Whole ↔ (∃ z : ℤ, i.wood = z) ∧ (∃ z : ℤ, i.food = z) ∧ (∃ z : ℤ, i.iron = z) ∧
      ∃ z : ℤ, i.gold = z := by
  constructor
  · intro h
    exact ⟨by simpa [of] using h "wood", by simpa [of] using h "food", by simpa [of] using h "iron",
      by simpa [of] using h "gold"⟩
  · rintro ⟨hw, hf, hi, hg⟩ r
    unfold of
    split_ifs
    · exact hw
    · exact hf
    · exact hi
    · exact hg
    · exact ⟨0, by simp⟩

theorem addResource_whole {i : IncomeResult} (h : i.Whole) (r : String) {q : ℚ}
    (hq : ∃ z : ℤ, q = z) : (addResource i r q).Whole := by
  obtain ⟨⟨w, hw⟩, ⟨f, hf⟩, ⟨n, hn⟩, hg⟩ := IncomeResult.whole_iff.mp h
  obtain ⟨z, rfl⟩ := hq
  rw [IncomeResult.whole_iff]
  unfold addResource
  split
  · exact ⟨⟨w + z, by simp [hw]⟩, ⟨f, hf⟩, ⟨n, hn⟩, hg⟩
  · exact ⟨⟨w, hw⟩, ⟨f + z, by simp [hf]⟩, ⟨n, hn⟩, hg⟩
  · exact ⟨⟨w, hw⟩, ⟨f, hf⟩, ⟨n + z, by simp [hn]⟩, hg⟩
  · exact ⟨⟨w, hw⟩, ⟨f, hf⟩, ⟨n, hn⟩, hg⟩

theorem combinedEffect_goldFlat (ks : List String) : ∃ z : ℤ, (combinedEffect ks).goldFlat = z := by
  have hall : ∀ d ∈ structureDefs, d.incomeEffect.goldFlat = (d.incomeEffect.goldFlat.num : ℚ) := by
    simp [structureDefs]
  suffices h : ∀ (ks : List String) (acc : StructureIncomeEffect), (∃ z : ℤ, acc.goldFlat = z) →
      ∃ z : ℤ, (ks.foldl (fun acc kind =>
        match structureStats kind with
        | none => acc
        | some d =>
          { goldMultiplier := acc.goldMultiplier * d.incomeEffect.goldMultiplier
            goldFlat := acc.goldFlat + d.incomeEffect.goldFlat
            resourceMultiplier := max acc.resourceMultiplier d.incomeEffect.resourceMultiplier :
              StructureIncomeEffect })
        acc).goldFlat = z from h ks _ ⟨0, by simp⟩
  intro ks
  induction ks with
  | nil => intro acc h; exact h
  | cons k ks ih =>
    rintro acc ⟨z, hz⟩
    rw [List.foldl_cons]
    apply ih
    cases h : structureStats k with
    | none => exact ⟨z, hz⟩
    | some d =>
      refine ⟨z + d.incomeEffect.goldFlat.num, ?_⟩
      have := hall d (List.mem_of_find?_eq_some h)
      simp only [hz, Int.cast_add]
      rw [← this]

theorem addYield_whole {i : IncomeResult} (h : i.Whole) {t : TileIncome} (hg : ∃ z : ℤ, t.gold = z)
    (ha : ∃ z : ℤ, t.resourceAmount = z) : (addYield i t).Whole := by
  have hgold : ({ i with gold := i.gold + t.gold } : IncomeResult).Whole := by
    obtain ⟨hw, hf, hn, ⟨g, hig⟩⟩ := IncomeResult.whole_iff.mp h
    obtain ⟨z, hz⟩ := hg
    exact IncomeResult.whole_iff.mpr ⟨hw, hf, hn, ⟨g + z, by simp [hig, hz]⟩⟩
  unfold addYield
  dsimp only
  split
  · exact hgold
  · split
    · exact addResource_whole hgold _ ha
    · exact hgold

theorem addDevelopBonus_whole {i : IncomeResult} (h : i.Whole) (tile : Tile) :
    (addDevelopBonus i tile).Whole := by
  unfold addDevelopBonus
  split
  · exact h
  · split
    · exact addResource_whole h _ ⟨2, by simp [baseResourceYield]⟩
    · exact h

theorem addTileIncome_whole (s : KState R) {i : IncomeResult} (h : i.Whole) (t : TileId) :
    (addTileIncome s i t).Whole := by
  unfold addTileIncome
  split
  · exact h
  · rename_i tile _
    obtain ⟨z, hz⟩ := combinedEffect_goldFlat (structuresAt s s.extras.mortgagedCities t)
    have hy := addYield_whole h (t := calculateTileIncome tile
        (structuresAt s s.extras.mortgagedCities t))
      ⟨⌊(tile.properties.bind TileProps.economicValue).getD 1 * goldPerEconomicValue *
          (combinedEffect (structuresAt s s.extras.mortgagedCities t)).goldMultiplier⌋ + z,
        by simp only [calculateTileIncome, hz, Int.cast_add]⟩
      (by
        simp only [calculateTileIncome]
        split
        · exact ⟨0, by simp⟩
        · exact ⟨_, rfl⟩)
    dsimp only
    split
    · exact addDevelopBonus_whole hy tile
    · exact hy

theorem computeIncome_whole (s : KState R) (p : PlayerId) : (computeIncome s p).Whole := by
  have h0 : (⟨0, 0, 0, 0⟩ : IncomeResult).Whole :=
    IncomeResult.whole_iff.mpr ⟨⟨0, by simp⟩, ⟨0, by simp⟩, ⟨0, by simp⟩, ⟨0, by simp⟩⟩
  unfold computeIncome
  split
  · exact h0
  · split
    · exact h0
    · generalize playerConnectedTiles s p = ts
      suffices h : ∀ i : IncomeResult, i.Whole → (ts.foldl (addTileIncome s) i).Whole from h _ h0
      induction ts with
      | nil => intro i hi; exact hi
      | cons t ts ih => intro i hi; exact ih _ (addTileIncome_whole s hi t)

/-! ## The whole round end -/

section RoundEnd

variable (s : KState R) (p : PlayerId) (inv : Inventory)

/-- `p`'s counts after income. -/
def paidCount (r : ResourceType) : ℚ := inv.get r + max 0 ((computeIncome s p).of r)

/-- `p`'s counts after the cycle. -/
def cycleCount : ResourceType → ℚ := fedCount (paidCount s p inv) (computeFoodCost s p)

def cycleEvents : List (KEvent R) :=
  kEvent p (.incomeCollected (computeIncome s p)) ::
    fedEvents p (paidCount s p inv) (computeFoodCost s p)

variable {s p inv}

theorem cycle_run (h : s.inventories.get? p = some inv) (hw : inv.Whole) :
    ∃ inv', (processPlayerCycle p).run s = .ok (cycleEvents s p inv) (s.setInventory p inv') ∧
      inv'.get = cycleCount s p inv := by
  have hs : s.setInventory p inv = s := GameState.setInventory_self h
  obtain ⟨n, hn⟩ := computeFoodCost_whole s p
  have hc : 0 ≤ computeFoodCost s p := by rw [hn]; exact Nat.cast_nonneg n
  obtain ⟨i₁, h₁, g₁⟩ := collectIncome_run s p inv (computeIncome s p)
  have hget : i₁.get = paidCount s p inv := funext g₁
  have hpos : ∀ r, 0 ≤ i₁.get r := fun r => by
    rw [g₁]; exact add_nonneg (hw.nonneg r) (le_max_left _ _)
  obtain ⟨i₂, h₂, g₂⟩ := consumeFood_run s p i₁ (hpos "gold") (hpos "food") hc
  have hgold : 0 ≤ i₂.get "gold" := by rw [g₂]; exact fedCount_gold_nonneg i₁ (hpos "gold") _
  obtain ⟨i₃, h₃, rfl⟩ := mortgage_run s p i₂ hgold
  refine ⟨i₃, ?_, funext fun r => by rw [g₂, hget]; rfl⟩
  rw [hs] at h₁
  have hcost : computeFoodCost (s.setInventory p i₁) p = computeFoodCost s p := rfl
  simp only [processPlayerCycle, EStateM.run_bind, EStateM.run_get, h, h₁, hcost, h₂, h₃,
    EStateM.run_pure, List.append_nil, hget]
  rfl

theorem paidCount_whole (hw : inv.Whole) (r : ResourceType) : ∃ n : ℕ, paidCount s p inv r = n := by
  obtain ⟨n, hn⟩ := hw r
  obtain ⟨z, hz⟩ := computeIncome_whole s p r
  refine ⟨n + z.toNat, ?_⟩
  rw [paidCount, hn, hz, Nat.cast_add]
  congr 1
  rw [← Int.cast_natCast, Int.toNat_eq_max, max_comm]
  simp

theorem natural_of_int {q : ℚ} (h : 0 ≤ q) (hz : ∃ z : ℤ, q = z) : ∃ n : ℕ, q = n := by
  obtain ⟨z, rfl⟩ := hz
  have hz0 : 0 ≤ z := by exact_mod_cast h
  exact ⟨z.toNat, by rw [← Int.cast_natCast, Int.toNat_of_nonneg hz0]⟩

theorem affordable_int (gold deficit : ℚ) (hd : ∃ z : ℤ, deficit = z) :
    ∃ z : ℤ, affordable gold deficit = z := by
  obtain ⟨z, rfl⟩ := hd
  unfold affordable
  split
  · exact ⟨0, by simp⟩
  · exact ⟨min z ⌊gold / exchangeRate⌋, by rw [Int.cast_min]⟩

theorem fedCount_whole {counts : ResourceType → ℚ} (hw : ∀ r, ∃ n : ℕ, counts r = n) {cost : ℚ}
    (hc : ∃ n : ℕ, cost = n) (r : ResourceType) : ∃ n : ℕ, fedCount counts cost r = n := by
  obtain ⟨c, rfl⟩ := hc
  obtain ⟨f, hf⟩ := hw "food"
  obtain ⟨g, hg⟩ := hw "gold"
  obtain ⟨b, hb⟩ := affordable_int (counts "gold") (c - counts "food") ⟨c - f, by simp [hf]⟩
  have hg0 : 0 ≤ counts "gold" := by rw [hg]; exact Nat.cast_nonneg g
  have hb0 := affordable_nonneg hg0 (c - counts "food")
  have hle := affordable_le hg0 (c - counts "food")
  unfold fedCount
  dsimp only
  split_ifs
  · refine natural_of_int (by linarith) ⟨g - b * 3, ?_⟩
    rw [hb, hg, exchangeRate]
    push_cast
    rfl
  · refine natural_of_int (by linarith [min_le_left (counts "food") c]) ⟨f - min (f : ℤ) c + b, ?_⟩
    rw [hb, hf]
    push_cast
    rfl
  · exact hw r

theorem cycleCount_whole (hw : inv.Whole) (r : ResourceType) : ∃ n : ℕ, cycleCount s p inv r = n :=
  fedCount_whole (paidCount_whole hw) (computeFoodCost_whole s p) r

/-- The cycles of several players: each gets what their own cycle, run alone, gives them on the
state before. -/
theorem cycles_run : ∀ (ps : List Player), (ps.map Player.id).Nodup → ∀ s : KState R,
    (∀ p ∈ ps, ∃ inv, s.inventories.get? p.id = some inv ∧ inv.Whole) →
    ∃ invs, (Eff.collect (fun player => processPlayerCycle player.id) ps).run s =
        .ok (ps.flatMap fun p => cycleEvents s p.id ((s.inventories.get? p.id).getD .empty))
          { s with inventories := invs } ∧
      (∀ q, q ∉ ps.map Player.id → invs.get? q = s.inventories.get? q) ∧
      ∀ p ∈ ps, ∀ inv, s.inventories.get? p.id = some inv →
        ∃ inv', invs.get? p.id = some inv' ∧ inv'.get = cycleCount s p.id inv ∧
          (processPlayerCycle p.id).run s = .ok (cycleEvents s p.id inv)
          (s.setInventory p.id inv') := by
  intro ps
  induction ps with
  | nil => intro _ s _; exact ⟨s.inventories, rfl, fun _ _ => rfl, by simp⟩
  | cons p ps ih =>
    intro hnd s hinv
    rw [List.map_cons, List.nodup_cons] at hnd
    obtain ⟨inv, hp, hw⟩ := hinv p (by simp)
    obtain ⟨inv', h₁, g₁⟩ := cycle_run hp hw
    have hne : ∀ q ∈ ps, q.id ≠ p.id := fun q hq h => hnd.1 (h ▸ List.mem_map_of_mem hq)
    have hget : ∀ q ∈ ps, (s.setInventory p.id inv').inventories.get? q.id =
        s.inventories.get? q.id :=
      fun q hq => by rw [GameState.setInventory_get?, if_neg (hne q hq)]
    obtain ⟨invs, h₂, hout, hin⟩ := ih hnd.2 (s.setInventory p.id inv')
      (fun q hq => by rw [hget q hq]; exact hinv q (by simp [hq]))
    have hevs : (ps.flatMap fun q => cycleEvents (s.setInventory p.id inv') q.id
          (((s.setInventory p.id inv').inventories.get? q.id).getD .empty)) =
        ps.flatMap fun q => cycleEvents s q.id ((s.inventories.get? q.id).getD .empty) := by
      rw [List.flatMap_congr]
      intro q hq
      rw [hget q hq]
      rfl
    have hwhole : ∀ q ∈ ps, ∀ inv₀, s.inventories.get? q.id = some inv₀ → inv₀.Whole := by
      intro q hq inv₀ hq₀
      obtain ⟨inv₁, h₁, hw₁⟩ := hinv q (List.mem_cons_of_mem _ hq)
      rw [hq₀, Option.some.injEq] at h₁
      exact h₁ ▸ hw₁
    refine ⟨invs, ?_, fun q hq => ?_, fun q hq inv₀ hq₀ => ?_⟩
    · rw [Eff.collect, Eff.bind_ok h₁, Eff.bind_ok h₂, hevs, List.flatMap_cons, hp,
        Option.getD_some]
      rfl
    · rw [List.map_cons, List.mem_cons, not_or] at hq
      rw [hout q hq.2, GameState.setInventory_get?, if_neg hq.1]
    · rcases List.mem_cons.mp hq with rfl | hq
      · rw [hout _ hnd.1, GameState.setInventory_same]
        rw [hp, Option.some.injEq] at hq₀
        subst hq₀
        exact ⟨inv', rfl, g₁, h₁⟩
      · obtain ⟨inv₁, hout₁, g₂, hrun⟩ := hin q hq inv₀ (by rw [hget q hq]; exact hq₀)
        -- the cycle of `q` does the same without the cycle of `p` before it
        obtain ⟨t, ht, hsame⟩ := cycle_respects.ok (sameFor_other (hne q hq) inv') hrun
        obtain ⟨inv₂, halone, -⟩ := cycle_run hq₀ (hwhole q hq inv₀ hq₀)
        rw [halone, EStateM.Result.ok.injEq] at ht
        obtain ⟨-, rfl⟩ := ht
        have hinv₂ := inventory_read _ _ hsame
        rw [GameState.setInventory_same, GameState.setInventory_same, Option.some.injEq] at hinv₂
        exact ⟨inv₁, hout₁, g₂, hinv₂ ▸ halone⟩

/-- What a round end emits. -/
def roundEndEvents (s : KState R) : List (KEvent R) :=
  (s.players.active.flatMap fun p => cycleEvents s p.id ((s.inventories.get? p.id).getD .empty)) ++
    s.players.active.flatMap (fun p => reportDisconnected s p.id) ++
    [{ body := .scenario (.roundEnded s.rounds.round) }]

/-- What a round end reports. -/
def RoundReport : KingdomsEvent R → Prop
  | .incomeCollected _ | .foodConsumed .. | .foodPurchased .. | .territoryDisconnected _
  | .roundEnded _ => True
  | _ => False

theorem roundEndEvents_reports {s : KState R} :
    ∀ e ∈ roundEndEvents s, ∃ x, e.body = .scenario x ∧ RoundReport x := by
  intro e he
  simp only [roundEndEvents, List.mem_append, List.mem_flatMap, List.mem_singleton] at he
  rcases he with (⟨pl, _, he⟩ | ⟨pl, _, he⟩) | rfl
  · simp only [cycleEvents, fedEvents, List.mem_cons] at he
    rcases he with rfl | he
    · exact ⟨_, rfl, trivial⟩
    · split at he
      · rcases List.mem_cons.mp he with rfl | he
        · exact ⟨_, rfl, trivial⟩
        · split at he
          · rw [List.mem_singleton.mp he]
            exact ⟨_, rfl, trivial⟩
          · cases he
      · cases he
  · simp only [reportDisconnected] at he
    split at he
    · rw [List.mem_singleton.mp he]
      exact ⟨_, rfl, trivial⟩
    · cases he
  · exact ⟨_, rfl, trivial⟩

/-- The round end changes the inventories of the active players and nothing else. -/
theorem processRoundEnd_run {s : KState R} (hnd : (s.players.active.map Player.id).Nodup)
    (hinv : ∀ p ∈ s.players.active, ∃ inv, s.inventories.get? p.id = some inv ∧ inv.Whole) :
    ∃ invs, processRoundEnd.run s = .ok (roundEndEvents s) { s with inventories := invs } ∧
      (∀ q, q ∉ s.players.active.map Player.id → invs.get? q = s.inventories.get? q) ∧
      ∀ p ∈ s.players.active, ∀ inv, s.inventories.get? p.id = some inv →
        ∃ inv', invs.get? p.id = some inv' ∧ inv'.get = cycleCount s p.id inv ∧
          (processPlayerCycle p.id).run s = .ok (cycleEvents s p.id inv)
          (s.setInventory p.id inv') := by
  obtain ⟨invs, h, hout, hin⟩ := cycles_run s.players.active hnd s hinv
  refine ⟨invs, ?_, hout, hin⟩
  simp only [processRoundEnd, EStateM.run_bind, EStateM.run_get, h, EStateM.run_pure,
    roundEndEvents]
  rfl

end RoundEnd

end Boardgame.Kingdoms
