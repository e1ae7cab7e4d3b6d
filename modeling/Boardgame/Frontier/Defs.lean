import Boardgame.Core.Game

/-!
# Frontier.Defs

The data of the demo scenario, Frontier: tables and map (`demo/map.ts`), what it keeps in
`state.extras`, the payloads of its actions and events. Quantities are exact numbers.
-/

namespace Boardgame.Frontier

/-! ## Tables -/

/-- `TERRAIN_VP[terrain] ?? 1`. -/
def terrainVp (terrain : String) : ℚ :=
  match terrain with
  | "grass" => 1
  | "forest" => 2
  | "mountain" => 3
  | _ => 1

/-- `TERRAIN_RESOURCE[terrain]`, with `null` and `undefined` alike. -/
def terrainResource (terrain : String) : Option String :=
  match terrain with
  | "forest" => some "wood"
  | "mountain" => some "stone"
  | _ => none

def hexDirs : List AxialCoord := [⟨1, 0⟩, ⟨-1, 0⟩, ⟨0, 1⟩, ⟨0, -1⟩, ⟨1, -1⟩, ⟨-1, 1⟩]

def coords : List AxialCoord :=
  [ ⟨0, 0⟩,
    ⟨1, 0⟩, ⟨1, -1⟩, ⟨0, -1⟩, ⟨-1, 0⟩, ⟨-1, 1⟩, ⟨0, 1⟩,
    ⟨2, 0⟩, ⟨2, -1⟩, ⟨2, -2⟩, ⟨1, -2⟩, ⟨0, -2⟩, ⟨-1, -1⟩,
    ⟨-2, 0⟩, ⟨-2, 1⟩, ⟨-2, 2⟩, ⟨-1, 2⟩, ⟨0, 2⟩, ⟨1, 1⟩,
    ⟨3, 0⟩, ⟨3, -1⟩, ⟨3, -2⟩, ⟨3, -3⟩, ⟨2, -3⟩, ⟨1, -3⟩, ⟨0, -3⟩,
    ⟨-1, -2⟩, ⟨-2, -1⟩, ⟨-3, 0⟩, ⟨-3, 1⟩, ⟨-3, 2⟩, ⟨-3, 3⟩,
    ⟨-2, 3⟩, ⟨-1, 3⟩, ⟨0, 3⟩, ⟨1, 2⟩, ⟨2, 1⟩ ]

def terrainBag : List String :=
  List.replicate 12 "grass" ++ List.replicate 14 "forest" ++ List.replicate 11 "mountain"

/-- The shuffle of `buildDemoMap`, with `i` counting down to 1. The draw from `0..i` never
throws. -/
def shuffleTerrains : Nat → SeededRandom → List String → List String
  | 0, _, terrains => terrains
  | i + 1, rng, terrains =>
    match rng.intInRange 0 ((i + 1 : Nat) : Int) with
    | .ok (j, rng) => shuffleTerrains i rng (swapAt terrains (i + 1) j.toNat)
    | .error _ => terrains

def buildDemoMap (_playerCount : Nat) (seed : String) : GameMap :=
  let terrains := shuffleTerrains (terrainBag.length - 1)
    (SeededRandom.new (seedFromString seed).toNat) terrainBag
  .build (coords.mapIdx fun i c => { id := tileId c, coord := c, terrain := terrains[i]?.getD "" })

/-- `STARTING_COORDS[players.length] ?? STARTING_COORDS[2]`. -/
def startingCoords (playerCount : Nat) : List AxialCoord :=
  match playerCount with
  | 3 => [⟨3, 0⟩, ⟨-1, -2⟩, ⟨-2, 3⟩]
  | 4 => [⟨3, 0⟩, ⟨-3, 0⟩, ⟨0, -3⟩, ⟨0, 3⟩]
  | _ => [⟨3, -2⟩, ⟨-3, 2⟩]

/-! ## State -/

structure TradeOffer where
  id : String
  fromPlayerId : PlayerId
  giveWood : ℚ
  giveStone : ℚ
  wantWood : ℚ
  wantStone : ℚ
  deriving DecidableEq

structure FrontierExtras where
  homeTiles : OrderedMap PlayerId TileId := ∅
  fortifications : OrderedMap TileId PlayerId := ∅
  tradeOffers : List TradeOffer := []
  nextOfferId : Nat := 0
  deriving DecidableEq

def frontierActionTypes : List String :=
  ["claim-tile", "end-turn", "trade", "fortify", "post-offer", "accept-offer", "cancel-offer"]

inductive FrontierPayload where
  | claimTile (tileId : TileId)
  | endTurn
  | trade (resource : String)
  | fortify (tileId : TileId)
  | postOffer (giveWood giveStone wantWood wantStone : ℚ)
  | acceptOffer (offerId : String)
  | cancelOffer (offerId : String)
  | unregistered (type : { t : String // t ∉ frontierActionTypes })
  deriving DecidableEq

instance : HasType FrontierPayload where
  type
    | .claimTile .. => "claim-tile"
    | .endTurn => "end-turn"
    | .trade .. => "trade"
    | .fortify .. => "fortify"
    | .postOffer .. => "post-offer"
    | .acceptOffer .. => "accept-offer"
    | .cancelOffer .. => "cancel-offer"
    | .unregistered t => t.val

inductive FrontierEvent where
  | tileClaimed (tileId : TileId) (terrain : String) (vp : ℚ) (claimedBy : PlayerId)
      (diceRoll die1 die2 : Int) (bonusVp : ℚ) (resource : Option String)
  | turnEnded (newActivePlayer : PlayerId)
  | roundEnded (round : Nat)
  | fortIncome (tileId : TileId) (vp : ℚ)
  | tileIncome (wood stone : ℚ)
  | trade (resource effect : String) (amount : Option ℚ)
  | fortify (tileId : TileId) (woodSpent stoneSpent : ℚ)
  | postOffer (offer : TradeOffer)
  | acceptOffer (offerId : String) (offer : TradeOffer) (acceptedBy : PlayerId)
  | cancelOffer (offerId : String) (offer : TradeOffer)
  deriving DecidableEq

instance : HasType FrontierEvent where
  type
    | .tileClaimed .. => "tile-claimed"
    | .turnEnded .. => "turn-ended"
    | .roundEnded .. => "round-ended"
    | .fortIncome .. => "fort-income"
    | .tileIncome .. => "tile-income"
    | .trade .. => "trade"
    | .fortify .. => "fortify"
    | .postOffer .. => "post-offer"
    | .acceptOffer .. => "accept-offer"
    | .cancelOffer .. => "cancel-offer"

abbrev FState := GameState FrontierExtras FrontierPayload FrontierEvent

abbrev FExec (α : Type) := Exec FrontierExtras FrontierPayload FrontierEvent α

abbrev FAction := Action FrontierPayload

abbrev FEvent := GameEvent FrontierEvent

abbrev FGame := Game FrontierExtras FrontierPayload FrontierEvent

abbrev FCall := Game.Call FrontierPayload FrontierEvent

/-- `action.playerId!`. -/
def actor (playerId : Option PlayerId) : PlayerId := playerId.getD ""

theorem actor_some (p : PlayerId) : actor (some p) = p := rfl

def fEvent (playerId : PlayerId) (payload : FrontierEvent) : FEvent :=
  { body := .scenario payload, playerId := some playerId }

def setExtras (f : FrontierExtras → FrontierExtras) (s : FState) : FState :=
  { s with extras := f s.extras }

def setRounds (f : RoundManager → RoundManager) (s : FState) : FState :=
  { s with rounds := f s.rounds }

/-- The tile a piece stands on. -/
def tileOf (p : Piece) : Option TileId :=
  match p.location with
  | .tile t => some t
  | _ => none

end Boardgame.Frontier
