import Boardgame.Core.Connectivity
import Boardgame.Kingdoms.Defs

/-!
# Kingdoms.State

What the Kingdoms scenario keeps in `state.extras`, the payloads of its actions and events, and the
helpers of `actions/helpers.ts` and `connectivity.ts`. The type `R` is the number type of the
combat strengths an event reports.

* `guard_ok`: who may act.
* `mem_unitsOnTile`, `structureOnTile_some`, `structureOnTile_none`: what the piece queries answer.
-/

namespace Boardgame.Kingdoms

structure TileLoyalty where
  loyalty : Int
  lastAttackerId : PlayerId
  deriving DecidableEq

/-- The `k:` keys. A key that is not set reads as its default. The records are plain objects; their
keys are tile ids (two coordinates and a comma) and player ids (uuids), none of which is `__proto__`
or looks like an array index. -/
structure KingdomsExtras where
  ownership : OrderedMap TileId PlayerId := ∅
  capitals : OrderedMap PlayerId TileId := ∅
  nextPieceId : Nat := 0
  movedThisTurn : List PieceId := []
  attackedFrom : List TileId := []
  tileLoyalty : OrderedMap TileId TileLoyalty := ∅
  mortgagedCities : List PieceId := []
  developed : List TileId := []

def kingdomsActionTypes : List String :=
  ["recruit-unit", "move-unit", "attack-tile", "build-structure", "demolish-structure",
   "develop-tile", "end-turn"]

/-- The payload of an action, under the type that declares its shape. -/
inductive KingdomsPayload where
  | recruitUnit (tileId : TileId) (unitKind : String)
  | moveUnit (pieceId : PieceId) (targetTileId : TileId)
  | attackTile (fromTileId toTileId : TileId) (unitIds : Option (List PieceId))
  | buildStructure (tileId : TileId) (structureKind : String)
  | demolishStructure (tileId : TileId)
  | developTile (tileId : TileId)
  | endTurn
  | unregistered (type : { t : String // t ∉ kingdomsActionTypes })
  deriving DecidableEq

instance : HasType KingdomsPayload where
  type
    | .recruitUnit .. => "recruit-unit"
    | .moveUnit .. => "move-unit"
    | .attackTile .. => "attack-tile"
    | .buildStructure .. => "build-structure"
    | .demolishStructure .. => "demolish-structure"
    | .developTile .. => "develop-tile"
    | .endTurn => "end-turn"
    | .unregistered t => t.val

structure IncomeResult where
  wood : ℚ
  food : ℚ
  iron : ℚ
  gold : ℚ
  deriving DecidableEq

inductive KingdomsEvent (R : Type) where
  | unitRecruited (pieceId : PieceId) (unitKind : String) (tileId : TileId)
  | unitMoved (pieceId : PieceId) (fromTileId : Option TileId) (toTileId : TileId)
  | battleResolved (fromTileId toTileId : TileId) (defenderOwner : Option PlayerId)
      (attackerWins : Bool) (attackerStrength defenderStrength : R)
      (attackerCasualties defenderCasualties : Nat)
  | tileCaptured (tileId : TileId) (previousOwner : Option PlayerId)
  | playerEliminated (eliminatedPlayerId byPlayerId : PlayerId)
  | tileLoyaltyReduced (tileId : TileId) (loyalty : Int)
  | structureBuilt (pieceId : PieceId) (structureKind : String) (tileId : TileId)
  | structureDemolished (structureKind : String) (tileId : TileId)
      (refund : OrderedMap ResourceType ℚ)
  | tileDeveloped (tileId : TileId) (goldSpent : ℚ) (resourceUnlocked : Option String)
  | turnEnded (newActivePlayer : PlayerId) (newRound : Bool) (round : Nat)
  | incomeCollected (income : IncomeResult)
  | foodConsumed (foodConsumed foodCost : ℚ)
  | foodPurchased (purchased goldSpent : ℚ)
  | cityMortgaged (pieceId : PieceId)
  | territoryDisconnected (tileIds : List TileId)
  | roundEnded (round : Nat)
  deriving DecidableEq

instance {R : Type} : HasType (KingdomsEvent R) where
  type
    | .unitRecruited .. => "unit-recruited"
    | .unitMoved .. => "unit-moved"
    | .battleResolved .. => "battle-resolved"
    | .tileCaptured .. => "tile-captured"
    | .playerEliminated .. => "player-eliminated"
    | .tileLoyaltyReduced .. => "tile-loyalty-reduced"
    | .structureBuilt .. => "structure-built"
    | .structureDemolished .. => "structure-demolished"
    | .tileDeveloped .. => "tile-developed"
    | .turnEnded .. => "turn-ended"
    | .incomeCollected .. => "income-collected"
    | .foodConsumed .. => "food-consumed"
    | .foodPurchased .. => "food-purchased"
    | .cityMortgaged .. => "city-mortgaged"
    | .territoryDisconnected .. => "territory-disconnected"
    | .roundEnded .. => "round-ended"

abbrev KState (R : Type) := GameState KingdomsExtras KingdomsPayload (KingdomsEvent R)

abbrev KExec (R α : Type) := Exec KingdomsExtras KingdomsPayload (KingdomsEvent R) α

abbrev KAction := Action KingdomsPayload

abbrev KEvent (R : Type) := GameEvent (KingdomsEvent R)

/-- `action.playerId!`. -/
def actor (playerId : Option PlayerId) : PlayerId := playerId.getD ""

theorem actor_some (p : PlayerId) : actor (some p) = p := rfl

def kEvent {R : Type} (playerId : PlayerId) (payload : KingdomsEvent R) : KEvent R :=
  { body := .scenario payload, playerId := some playerId }

variable {R : Type}

/-! ## Extras -/

def setExtras (f : KingdomsExtras → KingdomsExtras) (s : KState R) : KState R :=
  { s with extras := f s.extras }

/-- `kp-${n}` with the next number. -/
def nextId (s : KState R) : PieceId := "kp-" ++ toString (s.extras.nextPieceId + 1)

/-! ## Piece queries -/

/-- `(piece.location as { kind: 'tile'; tileId }).tileId`. -/
def tileOf (p : Piece) : Option TileId :=
  match p.location with
  | .tile t => some t
  | _ => none

def unitsOnTile (s : KState R) (tileId : TileId) (ownerFilter : Option PlayerId)
    (unitKindSet : List String) : List PieceId :=
  (s.pieces.entries.filter fun e =>
    e.2.kind ∈ unitKindSet ∧ tileOf e.2 = some tileId ∧
    (ownerFilter = none ∨ ownerFilter = some e.2.owner)).map
    Prod.fst

/-- The first structure on the tile, with its id. -/
def structureOnTile (s : KState R) (tileId : TileId) (structureKindSet : List String) :
    Option (PieceId × Piece) :=
  s.pieces.entries.find? fun e => e.2.kind ∈ structureKindSet ∧ tileOf e.2 = some tileId

def countPlayerPiecesOfKind (s : KState R) (playerId : PlayerId) (kind : String) : Nat :=
  (s.pieces.entries.filter fun e => e.2.owner = playerId ∧ e.2.kind = kind).length

def isAdjacent (map : GameMap) (tileIdA tileIdB : TileId) : Bool :=
  match map.tileById tileIdA with
  | none => false
  | some tileA => (map.neighboursOf tileA.coord).any (·.id = tileIdB)

theorem mem_unitsOnTile {s : KState R} {t : TileId} {o : Option PlayerId} {ks : List String}
    {id : PieceId} :
    id ∈ unitsOnTile s t o ks ↔ ∃ p, s.pieces.get? id = some p ∧ p.kind ∈ ks ∧
      tileOf p = some t ∧ (o = none ∨ o = some p.owner) := by
  simp only [unitsOnTile, List.mem_map, List.mem_filter, Prod.exists, exists_and_right,
    exists_eq_right, OrderedMap.mem_entries, decide_eq_true_eq]

theorem structureOnTile_some {s : KState R} {t : TileId} {ks : List String}
    {id : PieceId} {p : Piece} (h : structureOnTile s t ks = some (id, p)) :
    s.pieces.get? id = some p ∧ p.kind ∈ ks ∧ tileOf p = some t := by
  have hm := List.mem_of_find?_eq_some h
  have hp := List.find?_some h
  simp only [decide_eq_true_eq] at hp
  exact ⟨OrderedMap.mem_entries.mp hm, hp⟩

theorem structureOnTile_none {s : KState R} {t : TileId} {ks : List String}
    (h : structureOnTile s t ks = none) {id : PieceId} {p : Piece} (hp : s.pieces.get? id = some p)
    (hk : p.kind ∈ ks) : tileOf p ≠ some t := by
  intro ht
  have := List.find?_eq_none.mp h (id, p) (OrderedMap.mem_entries.mpr hp)
  simp [hk, ht] at this

/-! ## Connectivity -/

def playerOwnedTiles (ownership : OrderedMap TileId PlayerId) (playerId : PlayerId) : List TileId :=
  (ownership.entries.filter fun e => e.2 = playerId).map Prod.fst

def playerGateTileIds (s : KState R) (playerId : PlayerId) : List TileId :=
  s.pieces.values.filterMap fun p =>
    if p.kind = "gate" ∧ p.owner = playerId then tileOf p else none

def playerConnectedTiles (s : KState R) (playerId : PlayerId) : List TileId :=
  match s.extras.capitals.get? playerId with
  | none => []
  | some capitalId =>
    if capitalId = "" then []
    else getConnectedTiles s.map capitalId (playerOwnedTiles s.extras.ownership playerId)
      (playerGateTileIds s playerId)

/-! ## The common guard -/

def guardActivePlayer (s : KState R) (playerId : Option PlayerId) : Except Refusal Unit := do
  rejectIf (playerId = none ∨ playerId = some "") "no-player" "No player ID on action"
  rejectIf (some s.rounds.turn.activePlayer ≠ playerId) "not-your-turn" "It is not your turn"
  rejectIf (s.players.isEliminated (actor playerId)) "eliminated" "You have been eliminated"

theorem guard_ok {s : KState R} {playerId : Option PlayerId} :
    guardActivePlayer s playerId = .ok () ↔
      playerId = some s.rounds.turn.activePlayer ∧ s.rounds.turn.activePlayer ≠ "" ∧
        s.players.isEliminated s.rounds.turn.activePlayer = false := by
  simp only [guardActivePlayer, Eff.except_bind_eq_ok, rejectIf_eq_ok]
  constructor
  · rintro ⟨-, h₁, -, h₂, h₃⟩
    have hp : playerId = some s.rounds.turn.activePlayer := by simpa using Eq.symm (not_not.mp h₂)
    subst hp
    simp_all [actor]
  · rintro ⟨rfl, h₁, h₂⟩
    simp [actor, h₁, h₂]

end Boardgame.Kingdoms
