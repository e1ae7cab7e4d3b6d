import Boardgame.Engine.Service
import Boardgame.Frontier.View

/-!
# Web.Game

The store of the Frontier page (`store/game.ts`): `applyEvent`, the reducer of bus events. A view is
the one the engine builds; of `claimedBy`, `winner` and `winReason`, null and absent are the same.
-/

namespace Boardgame.Web

open Frontier Engine

abbrev DemoView := FrontierView

abbrev GameMessage := GameBusEvent DemoView FrontierEvent

/-- The players of a view, those with a given id changed. -/
def mapPlayer (id : Option PlayerId) (f : FrontierPlayerView → FrontierPlayerView)
    (view : DemoView) :
    List FrontierPlayerView :=
  view.players.map fun pl => if some pl.id ≠ id then pl else f pl

/-- `[resource]: Math.max(0, pl[resource] - 2)` over `paid`; no other key is a quantity of a
view. -/
def spendTwo (resource : String) (pl paid : FrontierPlayerView) : FrontierPlayerView :=
  match resource with
  | "vp" => { paid with vp := max 0 (pl.vp - 2) }
  | "wood" => { paid with wood := max 0 (pl.wood - 2) }
  | "stone" => { paid with stone := max 0 (pl.stone - 2) }
  | _ => paid

def applyPayload (view : DemoView) (playerId : Option PlayerId) : FrontierEvent → DemoView
  | .tileClaimed tileId _ vp claimedBy _ _ _ _ resource =>
    { view with
      tiles := view.tiles.map fun t =>
        if t.id = tileId then { t with claimedBy := some claimedBy } else t
      players := mapPlayer (some claimedBy) (fun pl =>
        { pl with
          vp := pl.vp + vp
          wood := pl.wood + if resource = some "wood" then 1 else 0
          stone := pl.stone + if resource = some "stone" then 1 else 0 }) view }
  | .tileIncome wood stone =>
    { view with
      players := mapPlayer playerId (fun pl =>
        { pl with wood := pl.wood + wood, stone := pl.stone + stone }) view }
  | .trade resource effect amount =>
    { view with
      players := mapPlayer playerId (fun pl =>
        if effect = "vp" then spendTwo resource pl { pl with vp := pl.vp + amount.getD 1 }
        else if effect = "stone-leap" then { pl with stone := max 0 (pl.stone - 2) }
        else pl) view }
  | .fortify tileId woodSpent stoneSpent =>
    { view with
      fortifications := view.fortifications.set tileId (playerId.getD "")
      players := mapPlayer playerId (fun pl =>
        { pl with wood := max 0 (pl.wood - woodSpent), stone := max 0 (pl.stone - stoneSpent) })
        view }
  | .fortIncome _ vp =>
    { view with players := mapPlayer playerId (fun pl => { pl with vp := pl.vp + vp }) view }
  | .postOffer offer =>
    { view with
      tradeOffers := view.tradeOffers ++ [offer]
      players := mapPlayer playerId (fun pl =>
        { pl with
          wood := max 0 (pl.wood - offer.giveWood)
          stone := max 0 (pl.stone - offer.giveStone) }) view }
  | .acceptOffer offerId offer acceptedBy =>
    { view with
      tradeOffers := view.tradeOffers.filter fun o => o.id ≠ offerId
      players := view.players.map fun pl =>
        if pl.id = acceptedBy then
          { pl with
            wood := pl.wood - offer.wantWood + offer.giveWood
            stone := pl.stone - offer.wantStone + offer.giveStone }
        else if pl.id = offer.fromPlayerId then
          { pl with wood := pl.wood + offer.wantWood, stone := pl.stone + offer.wantStone }
        else pl }
  | .cancelOffer offerId offer =>
    { view with
      tradeOffers := view.tradeOffers.filter fun o => o.id ≠ offerId
      players := mapPlayer playerId (fun pl =>
        { pl with wood := pl.wood + offer.giveWood, stone := pl.stone + offer.giveStone }) view }
  | .turnEnded newActivePlayer =>
    { view with
      currentActivePlayer := newActivePlayer
      players := view.players.map fun pl => { pl with isActive := pl.id = newActivePlayer } }
  | .roundEnded _ => view

/-- Without a view every message but `game-started` is dropped. -/
def applyEvent (view : Option DemoView) (event : GameMessage) : Option DemoView :=
  match event.payload with
  | .started snap => some snap
  | .error _ => view
  | .event body => view.map fun view =>
    match body with
    | .gameEnded victory =>
      { view with status := .ended, winner := victory.winner, winReason := some victory.reason }
    | .scenario payload => applyPayload view event.playerId payload

end Boardgame.Web
