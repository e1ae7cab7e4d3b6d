import Boardgame.Core.Game

/-!
# Kingdoms.Defs

The tables of the Kingdoms scenario (`units.ts`, `structures.ts`, `pieces.ts`, `terrain.ts`, the
constants of `economy.ts`), its map and its starting coordinates (`map.ts`).

* `unitKinds_not_structure`: no kind is both a unit and a structure.
* `cost_nonneg`, `cost_whole`: every registered cost is a non-negative integer.
-/

namespace Boardgame.Kingdoms

/-! ## Units -/

structure UnitDef where
  kind : String
  displayName : String
  buildCost : OrderedMap ResourceType ℚ
  limitPerPlayer : Option Nat
  hp : ℚ
  attack : ℚ
  defense : ℚ
  movement : ℚ
  foodPerRound : ℚ
  canAttack : Bool

def unitDefs : List UnitDef :=
  [ { kind := "spearman", displayName := "Spearman"
      buildCost := .ofEntries [("gold", 10), ("food", 1)]
      limitPerPlayer := some 20
      hp := 10, attack := 3, defense := 5, movement := 1, foodPerRound := 1, canAttack := true },
    { kind := "cannoneer", displayName := "Cannoneer"
      buildCost := .ofEntries [("gold", 20), ("iron", 2)]
      limitPerPlayer := some 8
      hp := 6, attack := 8, defense := 2, movement := 1, foodPerRound := 2, canAttack := true },
    { kind := "noble", displayName := "Noble"
      buildCost := .ofEntries [("gold", 8), ("iron", 1), ("food", 1)]
      limitPerPlayer := some 10
      hp := 8, attack := 1, defense := 3, movement := 2, foodPerRound := 1, canAttack := false } ]

/-- `UNIT_DEFS[kind]`, and with it `UNIT_STATS[kind]`, which keeps five of its fields. -/
def unitStats (kind : String) : Option UnitDef := unitDefs.find? (·.kind = kind)

def unitKinds : List String := unitDefs.map UnitDef.kind

def combatUnitKinds : List String := (unitDefs.filter UnitDef.canAttack).map UnitDef.kind

/-! ## Structures -/

structure StructureIncomeEffect where
  goldFlat : ℚ
  goldMultiplier : ℚ
  resourceMultiplier : ℚ

structure StructureDef where
  kind : String
  displayName : String
  buildCost : OrderedMap ResourceType ℚ
  limitPerPlayer : Option Nat
  hp : ℚ
  defenseMultiplier : ℚ
  incomeEffect : StructureIncomeEffect
  foodCostPerRound : ℚ
  canBeBuilt : Bool

def structureDefs : List StructureDef :=
  [ { kind := "capital-base", displayName := "Capital Base"
      buildCost := ∅, limitPerPlayer := some 1
      hp := 5, defenseMultiplier := 2, incomeEffect := ⟨1, 1, 1⟩
      foodCostPerRound := 0, canBeBuilt := false },
    { kind := "farm", displayName := "Farm"
      buildCost := .ofEntries [("wood", 2)], limitPerPlayer := some 5
      hp := 3, defenseMultiplier := 1, incomeEffect := ⟨0, 1, 3 / 2⟩
      foodCostPerRound := 0, canBeBuilt := true },
    { kind := "city", displayName := "City"
      buildCost := .ofEntries [("wood", 3), ("iron", 2)], limitPerPlayer := some 3
      hp := 3, defenseMultiplier := 1, incomeEffect := ⟨0, 2, 1⟩
      foodCostPerRound := 2, canBeBuilt := true },
    { kind := "castle", displayName := "Castle"
      buildCost := .ofEntries [("wood", 4), ("iron", 3)], limitPerPlayer := some 3
      hp := 4, defenseMultiplier := 2, incomeEffect := ⟨0, 1, 1⟩
      foodCostPerRound := 0, canBeBuilt := true },
    { kind := "gate", displayName := "Gate"
      buildCost := .ofEntries [("wood", 2), ("iron", 1)], limitPerPlayer := none
      hp := 2, defenseMultiplier := 1, incomeEffect := ⟨0, 1, 1⟩
      foodCostPerRound := 0, canBeBuilt := true } ]

/-- `STRUCTURE_DEFS[kind]`; `STRUCTURE_STATS` and `STRUCTURE_INCOME_EFFECTS` are fields of it. -/
def structureStats (kind : String) : Option StructureDef := structureDefs.find? (·.kind = kind)

def structureKinds : List String := structureDefs.map StructureDef.kind

def buildableStructures : List String :=
  (structureDefs.filter StructureDef.canBeBuilt).map StructureDef.kind

/-! ## The registry -/

def structureEntry (d : StructureDef) : PieceKindDefinition :=
  { kind := d.kind, category := "building", displayName := d.displayName
    cost := if d.buildCost.entries.length > 0 then some d.buildCost else none
    limitPerPlayer := d.limitPerPlayer
    defaultStats := some (.ofEntries [("hp", d.hp), ("defenseMultiplier", d.defenseMultiplier)]) }

def unitEntry (d : UnitDef) : PieceKindDefinition :=
  { kind := d.kind, category := "unit", displayName := d.displayName
    cost := some d.buildCost
    limitPerPlayer := d.limitPerPlayer
    defaultStats := some (.ofEntries
      [("attack", d.attack), ("defense", d.defense), ("movement", d.movement),
       ("foodPerRound", d.foodPerRound), ("hp", d.hp)]) }

def kingdomsPieces : PieceRegistry :=
  .ofEntries ((structureDefs.map structureEntry ++ unitDefs.map unitEntry).map fun d => (d.kind, d))

/-- `def.cost ?? {}`. -/
def costOf (d : PieceKindDefinition) : OrderedMap ResourceType ℚ := d.cost.getD ∅

theorem unitKinds_not_structure {k : String} (h : k ∈ unitKinds) : k ∉ structureKinds := by
  revert k
  decide

theorem buildable_structure {k : String} (h : k ∈ buildableStructures) :
    k ∈ structureKinds ∧ k ≠ "capital-base" := by
  revert k
  decide

theorem combat_unit {k : String} (h : k ∈ combatUnitKinds) : k ∈ unitKinds := by
  revert k
  decide

theorem capital_base_structure : "capital-base" ∈ structureKinds := by decide

/-- The kinds a piece can have. -/
def pieceKinds : List String := structureKinds ++ unitKinds

theorem require_ok {k : String} (h : k ∈ pieceKinds) :
    ∃ d, kingdomsPieces.require k = .ok d ∧ kingdomsPieces.get? k = some d := by
  have hk : k ∈ kingdomsPieces.keys := by
    revert k
    decide +kernel
  obtain ⟨d, hd⟩ := OrderedMap.mem_keys.mp hk
  exact ⟨d, by simp [PieceRegistry.require, hd], hd⟩

/-- Every cost in the registry is a natural number. -/
theorem cost_whole {k : String} {d : PieceKindDefinition} (h : kingdomsPieces.get? k = some d)
    {r : ResourceType} {q : ℚ} (hq : (r, q) ∈ (costOf d).entries) : ∃ n : ℕ, q = n := by
  have hall : ∀ e ∈ kingdomsPieces.entries, ∀ c ∈ (costOf e.2).entries, c.2 =
      (c.2.num.toNat : ℚ) := by
    decide +kernel
  exact ⟨_, hall _ (OrderedMap.mem_entries.mpr h) _ hq⟩

/-! ## Terrain and constants -/

/-- `kingdomsTerrains.get(terrain)?.meta.defenseBonus ?? 1.0`. -/
def terrainDefenseBonus (terrain : String) : ℚ :=
  match terrain with
  | "plains" => 1
  | "hills" => 13 / 10
  | "forest" => 3 / 2
  | "mountain" => 2
  | _ => 1

def goldPerEconomicValue : ℚ := 1

def baseResourceYield : ℚ := 2

def exchangeRate : ℚ := 3

def developCost : ℚ := 8

/-- `TERRAIN_DEVELOPS_INTO[terrain]`. -/
def terrainDevelopsInto (terrain : String) : Option String :=
  match terrain with
  | "plains" => some "food"
  | "forest" => some "wood"
  | "hills" => some "iron"
  | "mountain" => some "iron"
  | _ => none

/-! ## The map -/

def ringDirs : List (Int × Int) := [(0, -1), (-1, 0), (-1, 1), (0, 1), (1, 0), (1, -1)]

/-- `ring(radius)`: `radius` steps in each direction, from `(radius, 0)`. -/
def ring (radius : Nat) : List AxialCoord :=
  if radius = 0 then [⟨0, 0⟩]
  else
    let steps := ringDirs.flatMap fun d => List.replicate radius d
    (steps.foldl (fun acc d => (acc.1 ++ [acc.2], ⟨acc.2.q + d.1, acc.2.r + d.2⟩))
      (([] : List AxialCoord), ⟨radius, 0⟩)).1

def allCoords : List AxialCoord := [0, 1, 2, 3, 4].flatMap ring

def terrainBag : List String :=
  List.replicate 25 "plains" ++ List.replicate 15 "forest" ++ List.replicate 12 "hills" ++
    List.replicate 9 "mountain"

/-- The loop of `seededShuffle`, with `i` counting down to 1. -/
def shuffleLoop {α : Type} : Nat → BitVec 32 → List α → List α
  | 0, _, copy => copy
  | i + 1, x, copy =>
    let x := xorshift x
    shuffleLoop i x (swapAt copy (i + 1) (x.toNat % (i + 2)))

def seededShuffle {α : Type} (arr : List α) (seed : String) : List α :=
  shuffleLoop (arr.length - 1) (seedFromString seed) arr

/-- `TERRAIN_RESOURCE[terrain] ?? null`. -/
def terrainResource (terrain : String) : Option String :=
  match terrain with
  | "plains" => some "food"
  | "forest" => some "wood"
  | "hills" => some "iron"
  | "mountain" => some "iron"
  | _ => none

/-- `TERRAIN_COMBAT_VALUE[terrain] ?? 1`. -/
def terrainCombatValue (terrain : String) : ℚ :=
  match terrain with
  | "plains" => 1
  | "forest" => 2
  | "hills" => 2
  | "mountain" => 3
  | _ => 1

def economicValue (ringRadius : Nat) : ℚ := max 1 (5 - ringRadius)

def tileRing (c : AxialCoord) : Nat := max (max c.q.natAbs c.r.natAbs) (c.q + c.r).natAbs

def kingdomsTile (c : AxialCoord) (terrain : String) : Tile :=
  { id := tileId c, coord := c, terrain
    properties := some
      { resourceType := terrainResource terrain
        economicValue := some (economicValue (tileRing c))
        combatValue := some (terrainCombatValue terrain) } }

def buildKingdomsMap (_playerCount : Nat) (seed : String) : GameMap :=
  let terrains := seededShuffle terrainBag seed
  .build (allCoords.mapIdx fun i c => kingdomsTile c (terrains[i]?.getD "plains"))

/-- `KINGDOMS_STARTING_COORDS[playerCount] ?? KINGDOMS_STARTING_COORDS[2]`. -/
def kingdomsStartingCoords (playerCount : Nat) : List AxialCoord :=
  match playerCount with
  | 3 => [⟨4, 0⟩, ⟨0, -4⟩, ⟨-4, 4⟩]
  | 4 => [⟨4, 0⟩, ⟨0, -4⟩, ⟨-4, 0⟩, ⟨0, 4⟩]
  | 5 => [⟨4, 0⟩, ⟨4, -4⟩, ⟨0, -4⟩, ⟨-4, 0⟩, ⟨0, 4⟩]
  | 6 => [⟨4, 0⟩, ⟨4, -4⟩, ⟨0, -4⟩, ⟨-4, 0⟩, ⟨-4, 4⟩, ⟨0, 4⟩]
  | _ => [⟨4, -4⟩, ⟨-4, 4⟩]

end Boardgame.Kingdoms
