import Boardgame.Frontier.Actions

/-!
# Frontier.View

The snapshot the engine makes of a Frontier game: the fallback of `EngineService.buildView`, for a
scenario without a view of its own.
-/

namespace Boardgame.Frontier

structure FrontierTileView where
  id : TileId
  q : Int
  r : Int
  terrain : String
  claimedBy : Option PlayerId
  deriving DecidableEq

structure FrontierPlayerView where
  id : PlayerId
  displayName : String
  color : String
  seat : Int
  vp : ℚ
  wood : ℚ
  stone : ℚ
  isActive : Bool
  deriving DecidableEq

structure FrontierView where
  status : GamePhaseStatus
  tiles : List FrontierTileView
  players : List FrontierPlayerView
  currentActivePlayer : PlayerId
  winner : Option PlayerId
  winReason : Option String
  homeTiles : OrderedMap PlayerId TileId
  fortifications : OrderedMap TileId PlayerId
  tradeOffers : List TradeOffer
  round : Nat
  deriving DecidableEq

/-- `claimMap`: the owner of the last piece on each tile. -/
def claimMap (s : FState) : OrderedMap TileId PlayerId :=
  s.pieces.values.foldl
    (fun claims piece =>
      match piece.location with
      | .tile t => claims.set t piece.owner
      | _ => claims)
    ∅

def buildTileView (s : FState) (t : Tile) : FrontierTileView :=
  { id := t.id
    q := t.coord.q
    r := t.coord.r
    terrain := t.terrain
    claimedBy := (claimMap s).get? t.id }

def buildPlayerView (s : FState) (p : Player) : FrontierPlayerView :=
  let inv := s.inventories.get? p.id
  { id := p.id
    displayName := p.displayName
    color := p.color
    seat := p.seat
    vp := (inv.map (·.get "vp")).getD 0
    wood := (inv.map (·.get "wood")).getD 0
    stone := (inv.map (·.get "stone")).getD 0
    isActive := p.id = s.rounds.turn.activePlayer }

def buildView (s : FState) (players : List Player) (victory : Option VictoryResult) :
    FrontierView :=
  { status := s.status
    tiles := s.map.tiles.map (buildTileView s)
    players := players.map (buildPlayerView s)
    currentActivePlayer := s.rounds.turn.activePlayer
    winner := victory.bind VictoryResult.winner
    winReason := victory.map VictoryResult.reason
    homeTiles := s.extras.homeTiles
    fortifications := s.extras.fortifications
    tradeOffers := s.extras.tradeOffers
    round := s.rounds.round }

/-- A new flag is the last piece on its tile. -/
theorem claimMap_plant (s : FState) (p : PlayerId) (t : TileId)
    (h : s.pieces.get? (flagId p t) = none) :
    (s.pieces.set (flagId p t) (makeUnit (flagId p t) "flag" p t)).values.foldl
      (fun claims piece =>
        match piece.location with
        | .tile t => claims.set t piece.owner
        | _ => claims) ∅ = (claimMap s).set t p := by
  have hvalues : (s.pieces.set (flagId p t) (makeUnit (flagId p t) "flag" p t)).values =
      s.pieces.values ++ [makeUnit (flagId p t) "flag" p t] := by
    rw [OrderedMap.values, OrderedMap.entries_set_of_not_mem (OrderedMap.get?_eq_none.mp h),
      List.map_append]
    rfl
  rw [hvalues, List.foldl_append]
  rfl

/-- The view does not show whether a player is still in. -/
theorem buildView_status (s : FState) (players : List Player) (status : Option PlayerStatus)
    (victory : Option VictoryResult) :
    buildView s (players.map fun p => { p with status }) victory = buildView s players victory := by
  simp only [buildView, List.map_map]
  rfl

end Boardgame.Frontier
