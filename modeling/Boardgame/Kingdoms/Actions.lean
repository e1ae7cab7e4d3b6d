import Boardgame.Core.Combat
import Boardgame.Kingdoms.Economy

/-!
# Kingdoms.Actions

The validators and executors of the seven Kingdoms actions (`actions/`), each under its source
name, on the fields of its own payload.
-/

namespace Boardgame.Kingdoms

variable {R : Type}

/-! ## recruit-unit -/

def recruitStructures : List String := ["capital-base", "city"]

def nobleCost (currentNobleCount : Nat) : OrderedMap ResourceType ℚ :=
  .ofEntries [("gold", (⌈(8 : ℚ) * (17 / 10) ^ (currentNobleCount - 1)⌉ : ℚ)), ("iron", 1),
    ("food", 1)]

def effectiveCost (s : KState R) (playerId : PlayerId) (unitKind : String)
    (d : PieceKindDefinition) : OrderedMap ResourceType ℚ :=
  if unitKind = "noble" then nobleCost (countPlayerPiecesOfKind s playerId "noble") else costOf d

/-- `def.limitPerPlayer !== undefined && count >= def.limitPerPlayer`. -/
def limitReached (d : PieceKindDefinition) (count : Nat) : Bool := d.limitPerPlayer.any (· ≤ count)

def recruitUnitValidator (s : KState R) (playerId : Option PlayerId) (tileId : TileId)
    (unitKind : String) : Except Refusal Unit := do
  guardActivePlayer s playerId
  rejectIf (unitKind ∉ unitKinds) "invalid-kind" ("Unknown unit kind: " ++ unitKind)
  rejectIf (s.extras.ownership.get? tileId ≠ playerId) "not-owned" "You do not own this tile"
  rejectIf (tileId ∉ playerConnectedTiles s (actor playerId)) "disconnected"
    "Tile is not connected to your capital"
  rejectIf (structureOnTile s tileId recruitStructures = none) "no-structure"
    "You can only recruit on tiles with a Capital Base or City"
  let d ← orThrow (kingdomsPieces.require unitKind)
  let currentCount := countPlayerPiecesOfKind s (actor playerId) unitKind
  rejectIf (limitReached d currentCount) "unit-limit"
    (unitKind ++ " limit reached (" ++ d.limitPerPlayer.elim "" toString ++ ")")
  let inv := s.inventories.get? (actor playerId)
  checkCost inv (effectiveCost s (actor playerId) unitKind d).entries
  rejectIf (((unitStats unitKind).map UnitDef.foodPerRound).getD 0 > 0 ∧ stockOf inv "food" ≤ 0)
    "insufficient-food-upkeep" "Not enough food in stock to support another unit"

/-- `state.pieces.set(nextId(state), makeUnitFromRegistry(…))`, returning the id. -/
def placeNew (kind : String) (playerId : PlayerId) (tileId : TileId) : KExec R PieceId := do
  let s ← get
  let id := nextId s
  set { s with
    extras := { s.extras with nextPieceId := s.extras.nextPieceId + 1 }
    pieces := s.pieces.set id (makeUnitFromRegistry kingdomsPieces id kind playerId tileId) }
  return id

def recruitUnitExecutor (playerId : PlayerId) (tileId : TileId) (unitKind : String) :
    KExec R (List (KEvent R)) := do
  let d ← Eff.liftExcept (kingdomsPieces.require unitKind)
  let s ← get
  payAll playerId (effectiveCost s playerId unitKind d)
  let id ← placeNew unitKind playerId tileId
  return [kEvent playerId (.unitRecruited id unitKind tileId)]

/-! ## build-structure -/

def buildStructureValidator (s : KState R) (playerId : Option PlayerId) (tileId : TileId)
    (structureKind : String) : Except Refusal Unit := do
  guardActivePlayer s playerId
  rejectIf (structureKind ∉ buildableStructures) "invalid-kind"
    (structureKind ++ " cannot be built manually")
  rejectIf (s.extras.ownership.get? tileId ≠ playerId) "not-owned" "You do not own this tile"
  rejectIf (tileId ∉ playerConnectedTiles s (actor playerId)) "disconnected"
    "You can only build on tiles connected to your capital"
  rejectIf (structureOnTile s tileId structureKinds ≠ none) "tile-occupied"
    "A structure already exists on this tile"
  let d ← orThrow (kingdomsPieces.require structureKind)
  rejectIf (limitReached d (countPlayerPiecesOfKind s (actor playerId) structureKind))
    "structure-limit" (structureKind ++ " limit reached")
  checkCost (s.inventories.get? (actor playerId)) (costOf d).entries

def buildStructureExecutor (playerId : PlayerId) (tileId : TileId) (structureKind : String) :
    KExec R (List (KEvent R)) := do
  let d ← Eff.liftExcept (kingdomsPieces.require structureKind)
  payAll playerId (costOf d)
  let id ← placeNew structureKind playerId tileId
  return [kEvent playerId (.structureBuilt id structureKind tileId)]

/-! ## demolish-structure -/

def demolishStructureValidator (s : KState R) (playerId : Option PlayerId) (tileId : TileId) :
    Except Refusal Unit := do
  guardActivePlayer s playerId
  rejectIf (s.extras.ownership.get? tileId ≠ playerId) "not-owned" "You do not own this tile"
  let (_, structure_) ← orReject (structureOnTile s tileId structureKinds) "no-structure"
    "No structure on this tile"
  rejectIf (structure_.kind = "capital-base") "cannot-demolish" "Cannot demolish your Capital Base"
  rejectIf (some structure_.owner ≠ playerId) "not-yours" "Structure belongs to another player"

/-- What comes back of each resource: half, rounded down, where that is positive. -/
def refundOf (cost : OrderedMap ResourceType ℚ) : OrderedMap ResourceType ℚ :=
  (cost.mapValues fun _ qty => (⌊qty / 2⌋ : ℚ)).filter fun _ back => back > 0

def demolishStructureExecutor (playerId : PlayerId) (tileId : TileId) :
    KExec R (List (KEvent R)) := do
  let s ← get
  match structureOnTile s tileId structureKinds with
  | none => throw ⟨"Cannot read properties of null (reading 'id')"⟩
  | some (id, structure_) => do
    set { s with pieces := s.pieces.erase id }
    let refund := refundOf (((kingdomsPieces.get? structure_.kind).map costOf).getD ∅)
    creditAll playerId refund
    return [kEvent playerId (.structureDemolished structure_.kind tileId refund)]

/-! ## move-unit -/

def moveUnitValidator (s : KState R) (playerId : Option PlayerId) (pieceId : PieceId)
    (targetTileId : TileId) : Except Refusal Unit := do
  guardActivePlayer s playerId
  let piece ← orReject ((s.pieces.get? pieceId).filter fun p => some p.owner = playerId)
    "not-your-piece" "Piece not found or not yours"
  rejectIf (piece.kind ∉ unitKinds) "not-a-unit" "Can only move military units"
  rejectIf (pieceId ∈ s.extras.movedThisTurn) "already-moved" "This unit already moved this turn"
  rejectIf (tileOf piece = some targetTileId) "same-tile" "Unit is already on that tile"
  rejectIf (s.extras.ownership.get? targetTileId ≠ playerId) "not-owned"
    "You can only move units to tiles you own — attack to contest other tiles"
  rejectIf (targetTileId ∉ playerConnectedTiles s (actor playerId)) "disconnected"
    "Target tile is not connected to your capital"

def moveUnitExecutor (playerId : PlayerId) (pieceId : PieceId) (targetTileId : TileId) :
    KExec R (List (KEvent R)) := do
  let piece ← pieceAt pieceId
  modify fun s =>
    { s with
      pieces := s.pieces.set pieceId { piece with location := .tile targetTileId }
      extras := { s.extras with movedThisTurn := s.extras.movedThisTurn ++ [pieceId] } }
  return [kEvent playerId (.unitMoved pieceId (tileOf piece) targetTileId)]

/-! ## develop-tile -/

def developTileValidator (s : KState R) (playerId : Option PlayerId) (tileId : TileId) :
    Except Refusal Unit := do
  guardActivePlayer s playerId
  rejectIf (s.extras.ownership.get? tileId ≠ playerId) "not-owned" "You do not own this tile"
  rejectIf (tileId ∉ playerConnectedTiles s (actor playerId)) "disconnected"
    "Tile is not connected to your capital"
  rejectIf (tileId ∈ s.extras.developed) "already-developed" "This tile has already been developed"
  let tile ← orReject (s.map.tileById tileId) "tile-not-found" "Tile not found on map"
  rejectIf (tile.properties.bind TileProps.resourceType = none ∧
    terrainDevelopsInto tile.terrain = none)
    "cannot-develop" "This terrain type cannot be developed"
  rejectIf (stockOf (s.inventories.get? (actor playerId)) "gold" < developCost)
    "insufficient-resources" ("Developing a tile costs " ++ numberText developCost ++ " gold")

def developTileExecutor (playerId : PlayerId) (tileId : TileId) : KExec R (List (KEvent R)) := do
  removeFrom playerId "gold" developCost
  modify (setExtras fun x => { x with developed := x.developed ++ [tileId] })
  match (← get).map.tileById tileId with
  | none => throw ⟨"Cannot read properties of undefined (reading 'properties')"⟩
  | some tile =>
    return [kEvent playerId (.tileDeveloped tileId developCost (effectiveResource tile))]

/-! ## attack-tile -/

def loyaltyDamagePerAttack : Int := 45

def maxLoyalty : Int := 100

def attackTileValidator (s : KState R) (playerId : Option PlayerId) (fromTileId toTileId : TileId)
    (unitIds : Option (List PieceId)) : Except Refusal Unit := do
  guardActivePlayer s playerId
  let ownership := s.extras.ownership
  rejectIf (ownership.get? fromTileId ≠ playerId) "not-owned" "You do not own the attacking tile"
  rejectIf (fromTileId ∉ playerConnectedTiles s (actor playerId)) "disconnected"
    "You can only attack from tiles connected to your capital"
  rejectIf (ownership.get? toTileId = playerId) "own-tile" "Cannot attack your own tile"
  rejectIf (isAdjacent s.map fromTileId toTileId = false) "not-adjacent" "Tiles are not adjacent"
  rejectIf ((unitsOnTile s fromTileId playerId unitKinds).length = 0) "no-units"
    "No units on attacking tile"
  rejectIf (s.extras.attackedFrom.length > 0) "already-attacked" "You can only attack once per turn"
  let isUnownedTarget := ownership.get? toTileId = none
  let eligibleKinds := if isUnownedTarget then unitKinds else combatUnitKinds
  let noCombatUnitsMessage :=
    if isUnownedTarget then "No units on attacking tile"
    else "You need at least one non-Noble unit to attack an enemy tile"
  match unitIds with
  | some ids => do
    rejectIf (ids.length = 0) "no-units-selected" "Select at least one unit to attack with"
    let ownUnitsOnTile := unitsOnTile s fromTileId playerId unitKinds
    rejectIf (∃ id ∈ ids, id ∉ ownUnitsOnTile) "invalid-unit"
      "Selected unit is not on the attacking tile"
    rejectIf (¬ ∃ id ∈ ids, (s.pieces.get? id).any (·.kind ∈ eligibleKinds)) "no-combat-units"
      noCombatUnitsMessage
  | none =>
    rejectIf ((unitsOnTile s fromTileId playerId eligibleKinds).length = 0) "no-combat-units"
      noCombatUnitsMessage

/-- `pieceAsCombatant(piece) ?? { id, kind, attack: UNIT_STATS[kind]?.attack ?? 1 }` -/
def combatantOf (id : PieceId) (piece : Piece) : Combatant :=
  (pieceAsCombatant piece).getD ⟨id, piece.kind, ((unitStats piece.kind).map UnitDef.attack).getD 1⟩

def muster (ids : List PieceId) : KExec R (List Combatant) :=
  Eff.collect (fun id => do
    let piece ← pieceAt id
    return [combatantOf id piece]) ids

/-- `unitIds && unitIds.length > 0 ? unitIds : unitsOnTile(…)`. -/
def attackForce (s : KState R) (playerId : PlayerId) (fromTileId : TileId)
    (unitIds : Option (List PieceId)) : List PieceId :=
  match unitIds with
  | some (id :: ids) => id :: ids
  | _ => unitsOnTile s fromTileId (some playerId) unitKinds

/-- Capital captured: the player leaves with every piece and every tile. -/
def eliminatePlayer (defenderOwner playerId : PlayerId) : KExec R (List (KEvent R)) := do
  let s ← get
  let players ← Eff.liftExcept (s.players.eliminate defenderOwner)
  set { s with
    players
    pieces := s.pieces.filter fun _ piece => piece.owner ≠ defenderOwner
    extras := { s.extras with
      ownership := s.extras.ownership.filter fun _ owner => owner ≠ defenderOwner } }
  return [{ body := .scenario (.playerEliminated defenderOwner playerId) }]

/-- Non-capital capture: the structure changes hands. -/
def transferStructure (defStructure : Option (PieceId × Piece)) (playerId : PlayerId) :
    KExec R (List (KEvent R)) :=
  match defStructure with
  | none => return []
  | some (id, _) => do
    let s ← get
    match s.pieces.get? id with
    | none => return []
    | some oldPiece => do
      set { s with pieces := s.pieces.set id { oldPiece with owner := playerId } }
      return []

/-- What else a captured tile brings. -/
def captureFallout (playerId : PlayerId) (toTileId : TileId) (defenderOwner : Option PlayerId)
    (defStructure : Option (PieceId × Piece)) : KExec R (List (KEvent R)) := do
  match defenderOwner with
  | none => return []
  | some owner =>
    if owner = "" then return []
    else if (← get).extras.capitals.get? owner = some toTileId then eliminatePlayer owner playerId
    else transferStructure defStructure playerId

/-- `loyaltyMap[tileId]?.loyalty ?? MAX_LOYALTY`. -/
def loyaltyOf (x : KingdomsExtras) (tileId : TileId) : Int :=
  ((x.tileLoyalty.get? tileId).map TileLoyalty.loyalty).getD maxLoyalty

/-- A surviving Noble wears down the tile's loyalty, and captures it at 0. -/
def erodeLoyalty (playerId : PlayerId) (toTileId : TileId) (defenderOwner : Option PlayerId)
    (defStructure : Option (PieceId × Piece)) : KExec R (List (KEvent R)) := do
  let nextLoyalty := loyaltyOf (← get).extras toTileId - loyaltyDamagePerAttack
  if nextLoyalty ≤ 0 then do
    modify (setExtras fun x =>
      { x with
        tileLoyalty := x.tileLoyalty.erase toTileId
        ownership := x.ownership.set toTileId playerId })
    let fallout ← captureFallout playerId toTileId defenderOwner defStructure
    return kEvent playerId (.tileCaptured toTileId defenderOwner) :: fallout
  else do
    modify (setExtras fun x =>
      { x with tileLoyalty := x.tileLoyalty.set toTileId ⟨nextLoyalty, playerId⟩ })
    return [kEvent playerId (.tileLoyaltyReduced toTileId nextLoyalty)]

/-- `if (survivingNobleId) { … }`. -/
def siege (survivingNobleId : Option PieceId) (playerId : PlayerId) (toTileId : TileId)
    (defenderOwner : Option PlayerId) (defStructure : Option (PieceId × Piece)) :
    KExec R (List (KEvent R)) :=
  if survivingNobleId.getD "" = "" then pure []
  else erodeLoyalty playerId toTileId defenderOwner defStructure

def onRng {α : Type} (x : EStateM JsError SeededRandom α) : KExec R α :=
  Eff.zoom GameState.rng (fun rng s => { s with rng }) x

def attackTileExecutor [Strength R] (playerId : PlayerId) (fromTileId toTileId : TileId)
    (unitIds : Option (List PieceId)) : KExec R (List (KEvent R)) := do
  let s ← get
  let attackerIds := attackForce s playerId fromTileId unitIds
  let defenderIds := unitsOnTile s toTileId none unitKinds
  let defenderOwner := s.extras.ownership.get? toTileId
  let attackers ← muster attackerIds
  let defenders ← muster defenderIds
  let tileProps : TileProperties :=
    ⟨((s.map.tileById toTileId).map fun t => terrainDefenseBonus t.terrain).getD 1⟩
  let defStructure := structureOnTile s toTileId structureKinds
  let structureEffects : List StructureEffect := defStructure.toList.map fun d =>
    ⟨((structureStats d.2.kind).map StructureDef.defenseMultiplier).getD 1⟩
  let result : CombatResult R ←
    onRng (resolveAttack attackers defenders tileProps structureEffects (some SeededRandom.draw))
  let survivingNobleId := attackerIds.find? fun id =>
    (s.pieces.get? id).any (·.kind = "noble") ∧ id ∉ result.attackerLosses
  modify fun s =>
    { s with pieces := s.pieces.eraseAll (result.defenderLosses ++ result.attackerLosses) }
  let battle :=
    kEvent playerId (.battleResolved fromTileId toTileId defenderOwner result.attackerWins
    result.attackerStrength result.defenderStrength result.attackerLosses.length
    result.defenderLosses.length)
  let aftermath ← siege survivingNobleId playerId toTileId defenderOwner defStructure
  modify (setExtras fun x => { x with attackedFrom := x.attackedFrom ++ [fromTileId] })
  return battle :: aftermath

/-! ## end-turn -/

def loyaltyRecoveryPerRound : Int := 10

def endTurnValidator (s : KState R) (playerId : Option PlayerId) : Except Refusal Unit :=
  guardActivePlayer s playerId

/-- Every entry gains; an entry that reaches the maximum goes. -/
def recoverLoyalty (loyaltyMap : OrderedMap TileId TileLoyalty) : OrderedMap TileId TileLoyalty :=
  (loyaltyMap.mapValues fun _ entry =>
    { entry with loyalty := entry.loyalty + loyaltyRecoveryPerRound }).filter fun _ entry =>
      ¬ entry.loyalty ≥ maxLoyalty

theorem get?_recoverLoyalty {m : OrderedMap TileId TileLoyalty} {t : TileId} {e : TileLoyalty} :
    (recoverLoyalty m).get? t = some e ↔ ∃ old, m.get? t = some old ∧
      e = { old with loyalty := old.loyalty + loyaltyRecoveryPerRound } ∧
      e.loyalty < maxLoyalty := by
  simp only [recoverLoyalty, OrderedMap.get?_filter, Option.filter_eq_some_iff,
    OrderedMap.get?_mapValues, Option.map_eq_some_iff, decide_eq_true_eq, ge_iff_le, not_le]
  constructor
  · rintro ⟨⟨old, h, rfl⟩, hlt⟩
    exact ⟨old, h, rfl, hlt⟩
  · rintro ⟨old, h, rfl, hlt⟩
    exact ⟨⟨old, h, rfl⟩, hlt⟩

def endTurnExecutor (playerId : PlayerId) : KExec R (List (KEvent R)) := do
  modify (setExtras fun x => { x with movedThisTurn := [], attackedFrom := [] })
  let s ← get
  let (turnEnd, rounds) ← Eff.liftExcept (s.rounds.endTurn s.players.all "command")
  set { s with rounds }
  let ended := kEvent playerId (.turnEnded turnEnd.newActivePlayer turnEnd.newRound rounds.round)
  if turnEnd.newRound then do
    let roundEvents ← processRoundEnd
    modify (setExtras fun x => { x with tileLoyalty := recoverLoyalty x.tileLoyalty })
    return ended :: roundEvents
  else return [ended]

end Boardgame.Kingdoms
