import Boardgame.Kingdoms.Economy

/-!
# Kingdoms.View

The snapshot the frontend renders (`view-builder.ts`): `buildKingdomsView`.

* `view_tile`: the view of a tile, looked up by its id.
-/

namespace Boardgame.Kingdoms

/-- A unit or structure on a tile; what the other kind has is null. -/
structure KingdomsTilepiece where
  id : PieceId
  kind : String
  owner : PlayerId
  hp : Option ℚ
  attack : Option ℚ
  defense : Option ℚ
  movement : Option ℚ
  foodPerRound : Option ℚ
  defenseMultiplier : Option ℚ
  deriving DecidableEq

structure KingdomsTileView where
  id : TileId
  q : Int
  r : Int
  terrain : String
  resourceType : Option String
  economicValue : ℚ
  combatValue : ℚ
  owner : Option PlayerId
  developed : Bool
  pieces : List KingdomsTilepiece
  incomePreview : Option TileIncome
  deriving DecidableEq

structure KingdomsPlayerView where
  id : PlayerId
  displayName : String
  color : String
  seat : Int
  isActive : Bool
  isEliminated : Bool
  capitalTileId : Option TileId
  wood : ℚ
  food : ℚ
  iron : ℚ
  gold : ℚ
  incomePreview : IncomeResult
  foodBalance : ℚ
  connectedTileCount : Nat
  deriving DecidableEq

structure KingdomsTurnState where
  movedThisTurn : List PieceId
  attackedFrom : List TileId
  tileLoyalty : OrderedMap TileId TileLoyalty
  deriving DecidableEq

structure KingdomsView where
  scenarioId : String := "kingdoms-v1"
  status : GamePhaseStatus
  round : Nat
  currentActivePlayer : PlayerId
  winner : Option PlayerId
  winReason : Option String
  tiles : List KingdomsTileView
  players : List KingdomsPlayerView
  turnState : KingdomsTurnState
  deriving DecidableEq

variable {R : Type}

def tilepiece (piece : Piece) : KingdomsTilepiece :=
  let unitStats := if piece.kind ∈ unitKinds then unitStats piece.kind else none
  let structStats := if piece.kind ∈ structureKinds then structureStats piece.kind else none
  { id := piece.id
    kind := piece.kind
    owner := piece.owner
    hp := piece.state.bind (·.get? "hp")
    attack := unitStats.map UnitDef.attack
    defense := unitStats.map UnitDef.defense
    movement := unitStats.map UnitDef.movement
    foodPerRound := unitStats.map UnitDef.foodPerRound
    defenseMultiplier := structStats.map StructureDef.defenseMultiplier }

/-- `piecesByTileId.get(tid) ?? []`; a piece on a tile with an empty id is skipped. -/
def piecesByTileId (s : KState R) (tid : TileId) : List KingdomsTilepiece :=
  if tid = "" then [] else (s.pieces.values.filter fun piece =>
    tileOf piece = some tid).map tilepiece

/-- `structuresByTileId.get(tid) ?? []`. -/
def structuresByTileId (s : KState R) (tid : TileId) : List String :=
  if tid = "" then []
  else (s.pieces.values.filter fun piece => tileOf piece = some tid ∧
    piece.kind ∈ structureKinds).map Piece.kind

/-- `connectedByPlayer`. -/
def connectedByPlayer (s : KState R) (players : List Player) : OrderedMap PlayerId (List TileId) :=
  .ofEntries (players.map fun player =>
    (player.id, if s.players.isEliminated player.id then [] else playerConnectedTiles s player.id))

def buildTileView (s : KState R) (players : List Player) (t : Tile) : KingdomsTileView :=
  let tileOwner := s.extras.ownership.get? t.id
  { id := t.id
    q := t.coord.q
    r := t.coord.r
    terrain := t.terrain
    resourceType := t.properties.bind TileProps.resourceType
    economicValue := (t.properties.bind TileProps.economicValue).getD 1
    combatValue := (t.properties.bind TileProps.combatValue).getD 1
    owner := tileOwner
    developed := t.id ∈ s.extras.developed
    pieces := piecesByTileId s t.id
    incomePreview :=
      -- an owner with an empty id counts as none
      match tileOwner.filter (· ≠ "") with
      | none => none
      | some owner =>
        if ((connectedByPlayer s players).get? owner).any (t.id ∈ ·) then
          some (calculateTileIncome t (structuresByTileId s t.id))
        else none }

def buildPlayerView (s : KState R) (players : List Player) (p : Player) : KingdomsPlayerView :=
  let inv := s.inventories.get? p.id
  let dead := s.players.isEliminated p.id
  let connected := ((connectedByPlayer s players).get? p.id).getD []
  let incomePreview := if dead then ⟨0, 0, 0, 0⟩ else computeIncome s p.id
  let foodCost := if dead then 0 else computeFoodCost s p.id
  { id := p.id
    displayName := p.displayName
    color := p.color
    seat := p.seat
    isActive := p.id = s.rounds.turn.activePlayer
    isEliminated := dead
    capitalTileId := s.extras.capitals.get? p.id
    wood := (inv.map (·.get "wood")).getD 0
    food := (inv.map (·.get "food")).getD 0
    iron := (inv.map (·.get "iron")).getD 0
    gold := (inv.map (·.get "gold")).getD 0
    incomePreview
    foodBalance := incomePreview.food - foodCost
    connectedTileCount := connected.length }

def buildKingdomsView (s : KState R) (players : List Player) (victory : Option VictoryResult) :
    KingdomsView :=
  { status := s.status
    round := s.rounds.round
    currentActivePlayer := s.rounds.turn.activePlayer
    winner := victory.bind VictoryResult.winner
    winReason := victory.map VictoryResult.reason
    tiles := s.map.tiles.map (buildTileView s players)
    players := players.map (buildPlayerView s players)
    turnState :=
      { movedThisTurn := s.extras.movedThisTurn
        attackedFrom := s.extras.attackedFrom
        tileLoyalty := s.extras.tileLoyalty } }

/-! ## Reading the view -/

/-- The view asks the roster of the state, not the list it is given, whether a player is still
in. -/
theorem buildKingdomsView_status (s : KState R) (players : List Player)
    (status : Option PlayerStatus) (victory : Option VictoryResult) :
    buildKingdomsView s (players.map fun p => { p with status }) victory =
      buildKingdomsView s players victory := by
  have hconnected : connectedByPlayer s (players.map fun p => { p with status }) =
      connectedByPlayer s players := by
    simp only [connectedByPlayer, List.map_map]
    rfl
  have htile : buildTileView s (players.map fun p => { p with status }) =
      buildTileView s players := by
    funext t
    simp only [buildTileView, hconnected]
  simp only [buildKingdomsView, htile, List.map_map]
  congr 1
  refine List.map_congr_left fun p _ => ?_
  simp only [Function.comp_apply, buildPlayerView, hconnected]

/-- The view of a tile, in a map whose tiles are kept under their own ids. -/
theorem view_tile {s : KState R} (hkeyed : ∀ id tile, s.map.tileById id = some tile → tile.id = id)
    (players : List Player) (victory : Option VictoryResult) {t : TileId} {tile : Tile}
    (ht : s.map.tileById t = some tile) :
    (buildKingdomsView s players victory).tiles.find? (·.id = t) =
      some (buildTileView s players tile) := by
  have hmem : tile ∈ s.map.tiles := GameMap.mem_tiles.mpr ⟨t, ht⟩
  have hid : ∀ x ∈ s.map.tiles, x.id = t → x = tile := by
    intro x hx hxt
    obtain ⟨id, hget⟩ := GameMap.mem_tiles.mp hx
    rw [hkeyed id x hget] at hxt
    rw [hxt, ht, Option.some.injEq] at hget
    exact hget.symm
  have hfind : s.map.tiles.find? (·.id = t) = some tile := by
    cases h : s.map.tiles.find? (·.id = t) with
    | none => exact absurd (hkeyed t tile ht) (by simpa using List.find?_eq_none.mp h tile hmem)
    | some x => rw [hid x (List.mem_of_find?_eq_some h) (by simpa using List.find?_some h)]
  rw [buildKingdomsView, List.find?_map, Function.comp_def]
  exact congrArg (Option.map (buildTileView s players)) hfind

theorem buildTileView_of {s : KState R} (players : List Player) {t : TileId} {tile : Tile}
    (h : tile.id = t) :
    (buildTileView s players tile).owner = s.extras.ownership.get? t ∧
      (buildTileView s players tile).pieces = piecesByTileId s t := by
  subst h
  exact ⟨rfl, rfl⟩

/-- The pieces of a tile, from the board. -/
theorem piecesByTileId_eq (s : KState R) {t : TileId} (ht : t ≠ "") :
    piecesByTileId s t = (s.pieces.entries.filter fun e => tileOf e.2 = some t).map fun e =>
      tilepiece e.2 := by
  rw [piecesByTileId, if_neg ht, OrderedMap.values, List.filter_map, List.map_map]
  rfl

end Boardgame.Kingdoms
