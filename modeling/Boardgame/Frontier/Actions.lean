import Boardgame.Frontier.Defs

/-!
# Frontier.Actions

The validators and executors of the seven Frontier actions (`demo/actions.ts`), each under its
source name, on the fields of its own payload.
-/

namespace Boardgame.Frontier

/-! ## Helpers -/

def ownedTileCoords (s : FState) (playerId : PlayerId) : List AxialCoord :=
  s.pieces.values.filterMap fun piece =>
    if piece.owner = playerId then ((tileOf piece).bind s.map.tileById).map Tile.coord else none

def isTileOccupied (s : FState) (tileId : TileId) : Bool :=
  s.pieces.values.any fun p => tileOf p = some tileId

def tileOwner (s : FState) (tileId : TileId) : Option PlayerId :=
  (s.pieces.values.find? fun p => tileOf p = some tileId).map Piece.owner

/-- `state.inventories.get(playerId)!`, read in a validator. -/
def purseOf (s : FState) (playerId : PlayerId) : Except Refusal Inventory :=
  orThrow <| match s.inventories.get? playerId with
    | some inv => .ok inv
    | none => .error ⟨"Cannot read properties of undefined (reading 'get')"⟩

/-- The two checks every validator starts with, in its own words. -/
def guardTurn (s : FState) (playerId : Option PlayerId) (noPlayer notYourTurn : String) :
    Except Refusal Unit := do
  rejectIf (playerId = none ∨ playerId = some "") "no-player" noPlayer
  rejectIf (some s.rounds.turn.activePlayer ≠ playerId) "not-your-turn" notYourTurn

/-! ## claim-tile -/

def adjacentTo (ownedCoords : List AxialCoord) (c : AxialCoord) : Bool :=
  hexDirs.any fun d => ownedCoords.any fun o => o.q = c.q - d.q ∧ o.r = c.r - d.r

def claimTileValidator (s : FState) (playerId : Option PlayerId) (tileId : TileId) :
    Except Refusal Unit := do
  guardTurn s playerId "System actions cannot claim tiles" "It is not your turn"
  let turn := s.rounds.turn
  rejectIf (turn.currentPhaseId ≠ "turn")
    "wrong-phase" "Tiles can only be claimed during the turn phase"
  rejectIf (turn.flag "claimedThisTurn" = true) "already-claimed"
    "You already claimed a tile this turn — pass or trade"
  let tile ← orReject (s.map.tileById tileId) "invalid-tile"
    ("Tile \"" ++ tileId ++ "\" does not exist")
  rejectIf (isTileOccupied s tileId = true) "tile-occupied" "That tile is already claimed"
  if turn.flag "stoneLeap" = false then do
    let ownedCoords := ownedTileCoords s (actor playerId)
    rejectIf (ownedCoords.length = 0) "no-territory" "You have no territory to expand from"
    rejectIf (adjacentTo ownedCoords tile.coord = false) "not-adjacent"
      "You can only claim tiles adjacent to your territory (or spend 2 stone to leap)"
  else .ok ()

def rollDie : FExec Int := do
  let s ← get
  let (v, rng) ← Eff.liftExcept (s.rng.intInRange 1 6)
  set { s with rng }
  return v

def bonusFor (diceRoll : Int) : ℚ := if diceRoll ≥ 10 then 2 else if diceRoll ≥ 7 then 1 else 0

/-- `if (resource) inv.add(resource, 1)`. -/
def addResource (playerId : PlayerId) (resource : Option String) : FExec Unit :=
  match resource with
  | some resource => addTo playerId resource 1
  | none => pure ()

def flagId (playerId : PlayerId) (tileId : TileId) : PieceId := "flag-" ++ playerId ++ "-" ++ tileId

def plantFlag (playerId : PlayerId) (tileId : TileId) : FExec Unit :=
  modify fun s =>
    { s with
      pieces := s.pieces.set (flagId playerId tileId)
        (makeUnit (flagId playerId tileId) "flag" playerId tileId) }

def claimTileExecutor (playerId : PlayerId) (tileId : TileId) : FExec (List FEvent) := do
  match (← get).map.tileById tileId with
  | none => throw ⟨"Cannot read properties of undefined (reading 'terrain')"⟩
  | some tile => do
    let die1 ← rollDie
    let die2 ← rollDie
    let diceRoll := die1 + die2
    let vp := terrainVp tile.terrain + bonusFor diceRoll
    let resource := terrainResource tile.terrain
    addTo playerId "vp" vp
    addResource playerId resource
    plantFlag playerId tileId
    modify (setRounds (·.setFlag "claimedThisTurn" true))
    modify (setRounds (·.setFlag "stoneLeap" false))
    return [fEvent playerId
      (.tileClaimed tileId tile.terrain vp playerId diceRoll die1 die2
        (bonusFor diceRoll) resource)]

/-! ## end-turn -/

def endTurnValidator (s : FState) (playerId : Option PlayerId) : Except Refusal Unit :=
  guardTurn s playerId "System actions cannot end turns" "It is not your turn"

/-- Fort income: one VP for each fortified tile. -/
def fortIncome (forts : OrderedMap TileId PlayerId) : FExec (List FEvent) :=
  Eff.collect (fun (fort : TileId × PlayerId) => do
    match (← get).inventories.get? fort.2 with
    | none => return []
    | some _ => do
      addTo fort.2 "vp" 1
      return [fEvent fort.2 (.fortIncome fort.1 1)]) forts.entries

structure TileIncome where
  wood : ℚ
  stone : ℚ
  deriving DecidableEq

/-- One pass of the loop over the pieces. -/
def addPieceIncome (s : FState) (incomes : OrderedMap PlayerId TileIncome) (piece : Piece) :
    OrderedMap PlayerId TileIncome :=
  match ((tileOf piece).bind s.map.tileById).bind fun tile => terrainResource tile.terrain with
  | none => incomes
  | some resource =>
    let entry := (incomes.get? piece.owner).getD ⟨0, 0⟩
    incomes.set piece.owner
      ⟨entry.wood + if resource = "wood" then 1 else 0,
        entry.stone + if resource = "stone" then 1 else 0⟩

/-- What the pieces' tiles yield, by owner. -/
def tileIncomes (s : FState) : OrderedMap PlayerId TileIncome :=
  s.pieces.values.foldl (addPieceIncome s) ∅

def payTileIncome (incomes : OrderedMap PlayerId TileIncome) : FExec (List FEvent) :=
  Eff.collect (fun (income : PlayerId × TileIncome) => do
    match (← get).inventories.get? income.1 with
    | none => return []
    | some _ => do
      Eff.when (income.2.wood > 0) (addTo income.1 "wood" income.2.wood)
      Eff.when (income.2.stone > 0) (addTo income.1 "stone" income.2.stone)
      return [fEvent income.1 (.tileIncome income.2.wood income.2.stone)]) incomes.entries

def endRound (prevRound : Nat) : FExec (List FEvent) := do
  let forts ← fortIncome (← get).extras.fortifications
  let incomes ← payTileIncome (tileIncomes (← get))
  return { body := .scenario (.roundEnded prevRound) } :: (forts ++ incomes)

def endTurnExecutor (playerId : PlayerId) : FExec (List FEvent) := do
  let s ← get
  let prevRound := s.rounds.round
  let (turnEnd, rounds) ← Eff.liftExcept (s.rounds.endTurn s.players.all "turn")
  set { s with rounds }
  let ended := fEvent playerId (.turnEnded turnEnd.newActivePlayer)
  if turnEnd.newRound then do
    let incomes ← endRound prevRound
    return ended :: incomes
  else return [ended]

/-! ## trade -/

def tradeValidator (s : FState) (playerId : Option PlayerId) (resource : String) :
    Except Refusal Unit := do
  guardTurn s playerId "No player" "Not your turn"
  rejectIf (resource ≠ "wood" ∧ resource ≠ "stone") "invalid-resource" "Trade wood or stone"
  let inv ← purseOf s (actor playerId)
  rejectIf (inv.get resource < 2) "insufficient"
    ("Need 2 " ++ resource ++ " to trade (have " ++ numberText (inv.get resource) ++ ")")
  rejectIf (resource = "stone" ∧ s.rounds.turn.flag "stoneLeap" = true) "already-leaping"
    "Stone leap is already active this turn"

def tradeExecutor (playerId : PlayerId) (resource : String) : FExec (List FEvent) := do
  removeFrom playerId resource 2
  if resource = "wood" then do
    addTo playerId "vp" 1
    return [fEvent playerId (.trade resource "vp" (some 1))]
  else do
    modify (setRounds (·.setFlag "stoneLeap" true))
    return [fEvent playerId (.trade resource "stone-leap" none)]

/-! ## fortify -/

def fortifyValidator (s : FState) (playerId : Option PlayerId) (tileId : TileId) :
    Except Refusal Unit := do
  guardTurn s playerId "No player" "Not your turn"
  let inv ← purseOf s (actor playerId)
  rejectIf (inv.get "wood" < 2) "insufficient"
    ("Need 2 wood to fortify (have " ++ numberText (inv.get "wood") ++ ")")
  rejectIf (inv.get "stone" < 1) "insufficient"
    ("Need 1 stone to fortify (have " ++ numberText (inv.get "stone") ++ ")")
  let _ ← orReject (s.map.tileById tileId) "invalid-tile" "Tile does not exist"
  rejectIf (tileOwner s tileId ≠ playerId) "not-yours" "You can only fortify tiles you own"
  rejectIf ((s.extras.fortifications.get? tileId).getD "" ≠ "") "already-fortified"
    "That tile is already fortified"

def fortifyExecutor (playerId : PlayerId) (tileId : TileId) : FExec (List FEvent) := do
  removeFrom playerId "wood" 2
  removeFrom playerId "stone" 1
  modify (setExtras fun x => { x with fortifications := x.fortifications.set tileId playerId })
  return [fEvent playerId (.fortify tileId 2 1)]

/-! ## post-offer -/

def postOfferValidator (s : FState) (playerId : Option PlayerId)
    (giveWood giveStone wantWood wantStone : ℚ) : Except Refusal Unit := do
  guardTurn s playerId "No player" "Not your turn"
  rejectIf (giveWood < 0 ∨ giveStone < 0 ∨ wantWood < 0 ∨ wantStone < 0) "invalid"
    "Quantities cannot be negative"
  rejectIf (giveWood + giveStone = 0) "invalid" "Must offer at least one resource"
  rejectIf (wantWood + wantStone = 0) "invalid" "Must request at least one resource"
  let inv ← purseOf s (actor playerId)
  rejectIf (inv.get "wood" < giveWood) "insufficient"
    ("Need " ++ numberText giveWood ++ " wood (have " ++ numberText (inv.get "wood") ++ ")")
  rejectIf (inv.get "stone" < giveStone) "insufficient"
    ("Need " ++ numberText giveStone ++ " stone (have " ++ numberText (inv.get "stone") ++ ")")
  rejectIf ((s.extras.tradeOffers.filter fun o => some o.fromPlayerId = playerId).length ≥ 3)
    "too-many-offers" "You already have 3 active offers"

def postOfferExecutor (playerId : PlayerId) (giveWood giveStone wantWood wantStone : ℚ) :
    FExec (List FEvent) := do
  Eff.when (giveWood > 0) (removeFrom playerId "wood" giveWood)
  Eff.when (giveStone > 0) (removeFrom playerId "stone" giveStone)
  let nextId := (← get).extras.nextOfferId + 1
  let offer : TradeOffer := ⟨toString nextId, playerId, giveWood, giveStone, wantWood, wantStone⟩
  modify (setExtras fun x =>
    { x with nextOfferId := nextId, tradeOffers := x.tradeOffers ++ [offer] })
  return [fEvent playerId (.postOffer offer)]

/-! ## accept-offer -/

def findOffer (s : FState) (offerId : String) : Option TradeOffer :=
  s.extras.tradeOffers.find? (·.id = offerId)

/-- `offers.find(…)!` followed by a property read. -/
def offerAt (offerId : String) : FExec TradeOffer := do
  match findOffer (← get) offerId with
  | some offer => return offer
  | none => throw ⟨"Cannot read properties of undefined"⟩

/-- `state.extras['tradeOffers'] = offers.filter((o) => o.id !== offer.id)`. -/
def dropOffer (offer : TradeOffer) : FExec Unit :=
  modify (setExtras fun x =>
    { x with tradeOffers := x.tradeOffers.filter fun o => o.id ≠ offer.id })

def acceptOfferValidator (s : FState) (playerId : Option PlayerId) (offerId : String) :
    Except Refusal Unit := do
  guardTurn s playerId "No player" "Not your turn"
  let offer ← orReject (findOffer s offerId) "no-offer" "Offer not found"
  rejectIf (some offer.fromPlayerId = playerId) "own-offer" "Cannot accept your own offer"
  let inv ← purseOf s (actor playerId)
  rejectIf (inv.get "wood" < offer.wantWood) "insufficient"
    ("Need " ++ numberText offer.wantWood ++ " wood")
  rejectIf (inv.get "stone" < offer.wantStone) "insufficient"
    ("Need " ++ numberText offer.wantStone ++ " stone")

def acceptOfferExecutor (accepterId : PlayerId) (offerId : String) : FExec (List FEvent) := do
  let offer ← offerAt offerId
  Eff.when (offer.wantWood > 0) (removeFrom accepterId "wood" offer.wantWood)
  Eff.when (offer.wantStone > 0) (removeFrom accepterId "stone" offer.wantStone)
  Eff.when (offer.giveWood > 0) (addTo accepterId "wood" offer.giveWood)
  Eff.when (offer.giveStone > 0) (addTo accepterId "stone" offer.giveStone)
  Eff.when (offer.wantWood > 0) (addTo offer.fromPlayerId "wood" offer.wantWood)
  Eff.when (offer.wantStone > 0) (addTo offer.fromPlayerId "stone" offer.wantStone)
  dropOffer offer
  return [fEvent accepterId (.acceptOffer offer.id offer accepterId)]

/-! ## cancel-offer -/

def cancelOfferValidator (s : FState) (playerId : Option PlayerId) (offerId : String) :
    Except Refusal Unit := do
  guardTurn s playerId "No player" "Not your turn"
  let offer ← orReject (findOffer s offerId) "no-offer" "Offer not found"
  rejectIf (some offer.fromPlayerId ≠ playerId) "not-yours" "Cannot cancel someone else's offer"

def cancelOfferExecutor (playerId : PlayerId) (offerId : String) : FExec (List FEvent) := do
  let offer ← offerAt offerId
  Eff.when (offer.giveWood > 0) (addTo playerId "wood" offer.giveWood)
  Eff.when (offer.giveStone > 0) (addTo playerId "stone" offer.giveStone)
  dropOffer offer
  return [fEvent playerId (.cancelOffer offer.id offer)]

end Boardgame.Frontier
