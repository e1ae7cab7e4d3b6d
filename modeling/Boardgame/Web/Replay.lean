import Boardgame.Frontier.Turns
import Boardgame.Frontier.Victory
import Boardgame.Web.Game

/-!
# Web.Replay

The reducer of the Frontier page against the engine: a view folded over the published messages shows
what the engine's own view of its state shows, the round number apart.

* `Picture`: what a view is made of; every event of an accepted action changes the picture as it
  changes the state.
-/

namespace Boardgame.Web

open Frontier Engine

open Ledger (entry)

/-! ## Pictures -/

/-- What a view shows. -/
@[ext] structure Picture where
  status : GamePhaseStatus
  tiles : List Tile
  claims : TileId → Option PlayerId
  roster : List Player
  stocks : Stocks
  active : PlayerId
  victory : Option VictoryResult
  homeTiles : OrderedMap PlayerId TileId
  fortifications : OrderedMap TileId PlayerId
  tradeOffers : List TradeOffer
  round : Nat

namespace Picture

def tileView (P : Picture) (t : Tile) : FrontierTileView :=
  { id := t.id, q := t.coord.q, r := t.coord.r, terrain := t.terrain, claimedBy := P.claims t.id }

def playerView (P : Picture) (p : Player) : FrontierPlayerView :=
  { id := p.id
    displayName := p.displayName
    color := p.color
    seat := p.seat
    vp := P.stocks p.id "vp"
    wood := P.stocks p.id "wood"
    stone := P.stocks p.id "stone"
    isActive := p.id = P.active }

def view (P : Picture) : DemoView :=
  { status := P.status
    tiles := P.tiles.map P.tileView
    players := P.roster.map P.playerView
    currentActivePlayer := P.active
    winner := P.victory.bind VictoryResult.winner
    winReason := P.victory.map VictoryResult.reason
    homeTiles := P.homeTiles
    fortifications := P.fortifications
    tradeOffers := P.tradeOffers
    round := P.round }

/-- The picture of a state. -/
def of (s : FState) (victory : Option VictoryResult) : Picture :=
  { status := s.status
    tiles := s.map.tiles
    claims := (claimMap s).get?
    roster := s.players.all
    stocks := stock s
    active := s.rounds.turn.activePlayer
    victory
    homeTiles := s.extras.homeTiles
    fortifications := s.extras.fortifications
    tradeOffers := s.extras.tradeOffers
    round := s.rounds.round }

theorem view_of (s : FState) (victory : Option VictoryResult) :
    (of s victory).view = buildView s s.players.all victory := rfl

variable (P : Picture)

/-- The stocks of a picture, changed by a ledger. -/
def paid (d : Stocks) : Picture := { P with stocks := P.stocks + d }

theorem playerView_unpaid {d : Stocks} {p : Player} (h : ∀ r, d p.id r = 0) :
    (P.paid d).playerView p = P.playerView p := by
  have hstocks : (P.paid d).stocks p.id = P.stocks p.id := funext fun r => by simp [paid, h r]
  rw [playerView, hstocks]
  rfl

/-- The players of a view, when `f` pays those with the id what `d` says. -/
theorem mapPlayer_view {id : PlayerId} {f : FrontierPlayerView → FrontierPlayerView} {d : Stocks}
    (hother : ∀ id', id' ≠ id → ∀ r, d id' r = 0)
    (hpaid : ∀ p, p.id = id → f (P.playerView p) = (P.paid d).playerView p) :
    mapPlayer (some id) f P.view = P.roster.map (P.paid d).playerView := by
  rw [mapPlayer, view, List.map_map]
  refine List.map_congr_left fun p _ => ?_
  by_cases hid : p.id = id
  · have hsome : some (P.playerView p).id = some id := congrArg some hid
    rw [Function.comp_apply, if_neg (not_not.mpr hsome), hpaid p hid]
  · have hsome : some (P.playerView p).id ≠ some id := fun h => hid (Option.some.inj h)
    rw [Function.comp_apply, if_pos hsome, P.playerView_unpaid (hother p.id hid)]

/-! ## Events -/

variable {q : PlayerId}

theorem applyPayload_tileClaimed (t : TileId) (terrain : String) (vp : ℚ) (roll die1 die2 : Int)
    (bonus : ℚ) {resource : Option String} (hresource : resource ≠ some "vp")
    (playerId : Option PlayerId) :
    applyPayload P.view playerId (.tileClaimed t terrain vp q roll die1 die2 bonus resource) =
      view { P with
        claims := fun t' => if t' = t then some q else P.claims t'
        stocks := P.stocks + (entry q "vp" vp + yields q resource) } := by
  have hplayers := @P.mapPlayer_view q
    (fun pl =>
      { pl with
        vp := pl.vp + vp
        wood := pl.wood + if resource = some "wood" then 1 else 0
        stone := pl.stone + if resource = some "stone" then 1 else 0 })
    (entry q "vp" vp + yields q resource)
    (fun id' hid r => by cases resource <;> simp [yields, Ledger.entry_apply, hid])
    (fun p hp => by
      cases resource with
      | none => simp [playerView, paid, yields, Ledger.entry_apply, hp]
      | some r =>
        have hvp : ¬ r = "vp" := fun hr => hresource (congrArg some hr)
        simp [playerView, paid, yields, Ledger.entry_apply, hp, hvp, eq_comm])
  have htiles : P.view.tiles.map (fun t' =>
      if t'.id = t then { t' with claimedBy := some q } else t') =
      P.tiles.map (tileView
        { P with claims := fun t' => if t' = t then some q else P.claims t' }) := by
    rw [view, List.map_map]
    refine List.map_congr_left fun tile _ => ?_
    by_cases ht : tile.id = t
    · simp [tileView, ht]
    · simp [tileView, ht]
  rw [applyPayload, hplayers, htiles]
  rfl

theorem applyPayload_fortIncome (t : TileId) (vp : ℚ) :
    applyPayload P.view (some q) (.fortIncome t vp) = (P.paid (entry q "vp" vp)).view := by
  rw [applyPayload, P.mapPlayer_view (d := entry q "vp" vp)
    (fun id' hid r => by simp [Ledger.entry_apply, hid])
    (fun p hp => by simp [playerView, paid, Ledger.entry_apply, hp])]
  rfl

theorem applyPayload_tileIncome (wood stone : ℚ) :
    applyPayload P.view (some q) (.tileIncome wood stone) =
      (P.paid (entry q "wood" wood + entry q "stone" stone)).view := by
  rw [applyPayload, P.mapPlayer_view (d := entry q "wood" wood + entry q "stone" stone)
    (fun id' hid r => by simp [Ledger.entry_apply, hid])
    (fun p hp => by simp [playerView, paid, Ledger.entry_apply, hp])]
  rfl

theorem applyPayload_sold (h : 2 ≤ P.stocks q "wood") :
    applyPayload P.view (some q) (.trade "wood" "vp" (some 1)) =
      (P.paid (entry q "wood" (-2) + entry q "vp" 1)).view := by
  rw [applyPayload, P.mapPlayer_view (d := entry q "wood" (-2) + entry q "vp" 1)
    (fun id' hid r => by simp [Ledger.entry_apply, hid])
    (fun p hp => by
      have hmax : max 0 (P.stocks q "wood" - 2) = P.stocks q "wood" + -2 := by
        rw [max_eq_right (by linarith), sub_eq_add_neg]
      simp [playerView, paid, spendTwo, Ledger.entry_apply, hp, hmax])]
  rfl

theorem applyPayload_leapt (h : 2 ≤ P.stocks q "stone") :
    applyPayload P.view (some q) (.trade "stone" "stone-leap" none) =
      (P.paid (entry q "stone" (-2))).view := by
  rw [applyPayload, P.mapPlayer_view (d := entry q "stone" (-2))
    (fun id' hid r => by simp [Ledger.entry_apply, hid])
    (fun p hp => by
      have hmax : max 0 (P.stocks q "stone" - 2) = P.stocks q "stone" + -2 := by
        rw [max_eq_right (by linarith), sub_eq_add_neg]
      simp [playerView, paid, Ledger.entry_apply, hp, hmax])]
  rfl

/-- What is taken from a stock that covers it is not clamped. -/
theorem mapPlayer_spend {wood stone : ℚ} (hwood : wood ≤ P.stocks q "wood")
    (hstone : stone ≤ P.stocks q "stone") :
    mapPlayer (some q)
      (fun pl => { pl with wood := max 0 (pl.wood - wood), stone := max 0 (pl.stone - stone) })
        P.view =
      P.roster.map (P.paid (entry q "wood" (-wood) + entry q "stone" (-stone))).playerView := by
  refine P.mapPlayer_view (fun id' hid r => by simp [Ledger.entry_apply, hid]) fun p hp => ?_
  have hmaxw : max 0 (P.stocks q "wood" - wood) = P.stocks q "wood" + -wood := by
    rw [max_eq_right (by linarith), sub_eq_add_neg]
  have hmaxs : max 0 (P.stocks q "stone" - stone) = P.stocks q "stone" + -stone := by
    rw [max_eq_right (by linarith), sub_eq_add_neg]
  simp [playerView, paid, Ledger.entry_apply, hp, hmaxw, hmaxs]

theorem applyPayload_fortify (t : TileId) {wood stone : ℚ} (hwood : wood ≤ P.stocks q "wood")
    (hstone : stone ≤ P.stocks q "stone") :
    applyPayload P.view (some q) (.fortify t wood stone) =
      view { P.paid (entry q "wood" (-wood) + entry q "stone" (-stone)) with
        fortifications := P.fortifications.set t q } := by
  rw [applyPayload, P.mapPlayer_spend hwood hstone]
  rfl

theorem applyPayload_postOffer {o : TradeOffer} (hwood : o.giveWood ≤ P.stocks q "wood")
    (hstone : o.giveStone ≤ P.stocks q "stone") :
    applyPayload P.view (some q) (.postOffer o) =
      view { P.paid (entry q "wood" (-o.giveWood) + entry q "stone" (-o.giveStone)) with
        tradeOffers := P.tradeOffers ++ [o] } := by
  rw [applyPayload, P.mapPlayer_spend hwood hstone]
  rfl

theorem applyPayload_acceptOffer {o : TradeOffer} (hother : o.fromPlayerId ≠ q)
    (playerId : Option PlayerId) :
    applyPayload P.view playerId (.acceptOffer o.id o q) =
      view { P.paid (entry q "wood" (-o.wantWood) + entry q "stone" (-o.wantStone) +
          (entry q "wood" o.giveWood + entry q "stone" o.giveStone) +
          (entry o.fromPlayerId "wood" o.wantWood + entry o.fromPlayerId "stone" o.wantStone)) with
        tradeOffers := P.tradeOffers.filter fun o' => o'.id ≠ o.id } := by
  have hplayers : P.view.players.map (fun pl =>
      if pl.id = q then
        { pl with
          wood := pl.wood - o.wantWood + o.giveWood
          stone := pl.stone - o.wantStone + o.giveStone }
      else if pl.id = o.fromPlayerId then
        { pl with wood := pl.wood + o.wantWood, stone := pl.stone + o.wantStone }
      else pl) =
      P.roster.map (P.paid (entry q "wood" (-o.wantWood) + entry q "stone" (-o.wantStone) +
        (entry q "wood" o.giveWood + entry q "stone" o.giveStone) +
        (entry o.fromPlayerId "wood" o.wantWood + entry o.fromPlayerId "stone"
          o.wantStone))).playerView := by
    rw [view, List.map_map]
    refine List.map_congr_left fun p _ => ?_
    by_cases hq : p.id = q
    · have hne : ¬ q = o.fromPlayerId := fun h => hother h.symm
      simp [playerView, paid, Ledger.entry_apply, hq, hne, sub_eq_add_neg, add_assoc]
    · by_cases hfrom : p.id = o.fromPlayerId
      · simp [playerView, paid, Ledger.entry_apply, hfrom, hother]
      · have hq' : ¬ (P.playerView p).id = q := hq
        have hfrom' : ¬ (P.playerView p).id = o.fromPlayerId := hfrom
        rw [Function.comp_apply, if_neg hq', if_neg hfrom']
        exact (P.playerView_unpaid fun r => by simp [Ledger.entry_apply, hq, hfrom]).symm
  rw [applyPayload, hplayers]
  rfl

theorem applyPayload_cancelOffer (o : TradeOffer) :
    applyPayload P.view (some q) (.cancelOffer o.id o) =
      view { P.paid (entry q "wood" o.giveWood + entry q "stone" o.giveStone) with
        tradeOffers := P.tradeOffers.filter fun o' => o'.id ≠ o.id } := by
  rw [applyPayload, P.mapPlayer_view (d := entry q "wood" o.giveWood + entry q "stone" o.giveStone)
    (fun id' hid r => by simp [Ledger.entry_apply, hid])
    (fun p hp => by simp [playerView, paid, Ledger.entry_apply, hp])]
  rfl

theorem applyPayload_turnEnded (next : PlayerId) (playerId : Option PlayerId) :
    applyPayload P.view playerId (.turnEnded next) = view { P with active := next } := by
  have hplayers : P.view.players.map (fun pl => { pl with isActive := pl.id = next }) =
      P.roster.map (playerView { P with active := next }) := by
    rw [view, List.map_map]
    rfl
  rw [applyPayload, hplayers]
  rfl

end Picture

/-! ## The events of an action -/

theorem apply_scenario {v : DemoView} {e : FEvent} {x : FrontierEvent} (h : e.body = .scenario x) :
    applyEvent (some v) (busEvent e) = some (applyPayload v (e.playerId.filter (· ≠ "")) x) := by
  simp only [applyEvent, busEvent, h, Option.map_some]

theorem apply_fEvent (v : DemoView) {p : PlayerId} (hp : p ≠ "") (x : FrontierEvent) :
    applyEvent (some v) (busEvent (fEvent p x)) = some (applyPayload v (some p) x) := by
  rw [apply_scenario (show (fEvent p x).body = .scenario x from rfl)]
  have hid : (fEvent p x).playerId.filter (· ≠ "") = some p := by simp [fEvent, Option.filter, hp]
  rw [hid]

theorem foldl_fEvent (v : DemoView) {p : PlayerId} (hp : p ≠ "") (x : FrontierEvent) :
    ([fEvent p x].map busEvent).foldl applyEvent (some v) = some (applyPayload v (some p) x) :=
  apply_fEvent v hp x

/-- The reducer does not look at sequence numbers. -/
theorem foldl_stamp (evs : List FEvent) : ∀ (n : Nat) (v : Option DemoView),
    ((Game.stamp n evs).map busEvent).foldl applyEvent v =
      (evs.map busEvent).foldl applyEvent v := by
  induction evs with
  | nil => intro n v; rfl
  | cons e es ih => intro n v; exact ih (n + 1) (applyEvent v (busEvent e))

/-- An income is shown, unless it is that of an empty name. -/
theorem apply_income (P : Picture) (hblank : "" ∉ P.roster.map Player.id) {e : FEvent}
    (h : Income e) :
    applyEvent (some P.view) (busEvent e) = some (P.paid (charge e)).view := by
  obtain ⟨id, hplayer, hbody⟩ := h
  by_cases hid : id = ""
  · -- the message names nobody, and nobody at the table is paid
    have hunpaid : P.roster.map (P.paid (charge e)).playerView = P.roster.map P.playerView := by
      refine List.map_congr_left fun p hp => P.playerView_unpaid fun r => ?_
      have hne : p.id ≠ "" := fun hpid => hblank (hpid ▸ List.mem_map_of_mem hp)
      rcases hbody with ⟨t, hb⟩ | ⟨wood, stone, _, _, hb⟩
      · simp [charge, hb, hplayer, byPlayer, Ledger.entry_apply, hid, hne]
      · simp [charge, hb, hplayer, byPlayer, Ledger.entry_apply, hid, hne]
    have hview : (P.paid (charge e)).view = P.view := by
      show { P.view with players := P.roster.map (P.paid (charge e)).playerView } = P.view
      rw [hunpaid]
      rfl
    have hnobody : ∀ f : FrontierPlayerView → FrontierPlayerView, mapPlayer none f P.view =
        P.view.players :=
      fun f => by simp [mapPlayer]
    rw [hview]
    rcases hbody with ⟨t, hb⟩ | ⟨wood, stone, _, _, hb⟩
    · rw [apply_scenario hb, hplayer, hid]
      simp [Option.filter, applyPayload, hnobody]
    · rw [apply_scenario hb, hplayer, hid]
      simp [Option.filter, applyPayload, hnobody]
  · have hname : e.playerId.filter (· ≠ "") = some id := by simp [hplayer, Option.filter, hid]
    rcases hbody with ⟨t, hb⟩ | ⟨wood, stone, _, _, hb⟩
    · have hcharge : charge e = entry id "vp" 1 := by simp [charge, hb, hplayer, byPlayer]
      rw [apply_scenario hb, hname, P.applyPayload_fortIncome, hcharge]
    · have hcharge : charge e = entry id "wood" wood + entry id "stone" stone := by
        simp [charge, hb, hplayer, byPlayer]
      rw [apply_scenario hb, hname, P.applyPayload_tileIncome, hcharge]

theorem apply_incomes {evs : List FEvent} (h : ∀ e ∈ evs, Income e) : ∀ P : Picture,
    "" ∉ P.roster.map Player.id →
    (evs.map busEvent).foldl applyEvent (some P.view) = some (P.paid (charges evs)).view := by
  induction evs with
  | nil =>
    intro P _
    have hsame : P.paid (charges []) = P := by simp [Picture.paid]
    rw [hsame]
    rfl
  | cons e es ih =>
    intro P hblank
    have hsum : (P.paid (charge e)).paid (charges es) = P.paid (charges (e :: es)) := by
      simp [Picture.paid, add_assoc]
    rw [List.map_cons, List.foldl_cons, apply_income P hblank (h e List.mem_cons_self),
      ih (fun e' he' => h e' (List.mem_cons_of_mem _ he')) (P.paid (charge e)) hblank, hsum]

theorem terrainResource_ne_vp (terrain : String) : terrainResource terrain ≠ some "vp" := by
  unfold terrainResource
  split <;> simp

/-- **Replaying an action**: its events change the picture of the state before into that of the
state after, if a claim plants a flag of a new name and no empty name is at the table when a round
ends. -/
theorem effect_replays {s s' : FState} {p : PlayerId} {payload : FrontierPayload}
    {evs : List FEvent} (h : Effect s p payload evs s') (hp : p ≠ "")
    (hflag : ∀ t, payload = .claimTile t → s.pieces.get? (flagId p t) = none)
    (hblank : ∀ q rounds, s.rounds.endTurn s.players.all "turn" = .ok (⟨q, true⟩, rounds) →
      "" ∉ s.players.bySeat.map Player.id)
    (victory : Option VictoryResult) (round : Nat) :
    (evs.map busEvent).foldl applyEvent (some (Picture.view { Picture.of s victory with round })) =
      some (Picture.view { Picture.of s' victory with round }) := by
  have hstocks : stock s' = stock s + charges evs := by
    funext id r
    exact h.stocks id r
  cases h with
  | @claimed t tile die1 die2 rng invs _ _ _ =>
    rw [List.map_cons, List.map_nil, List.foldl_cons, List.foldl_nil, claimedEvent,
      apply_fEvent _ hp, Picture.applyPayload_tileClaimed _ _ _ _ _ _ _ _ (terrainResource_ne_vp _)]
    have hclaims : (fun t' => if t' = t then some p else (claimMap s).get? t') =
        ((claimMap s).set t p).get? := funext fun t' => (OrderedMap.get?_set _ _ _ _).symm
    rw [← claimMap_plant s p t (hflag t rfl)] at hclaims
    have hcharges : charges [claimedEvent p t tile die1 die2] =
        entry p "vp" (terrainVp tile.terrain + bonusFor (die1 + die2)) + yields p
        (terrainResource tile.terrain) := by
      simp [charge, claimedEvent, fEvent]
    rw [hcharges] at hstocks
    simp only [Picture.of, hclaims, hstocks]
    rfl
  | turned hend =>
    rw [List.map_cons, List.map_nil, List.foldl_cons, List.foldl_nil, apply_fEvent _ hp,
      Picture.applyPayload_turnEnded]
    simp only [Picture.of, RoundManager.endTurn_turn hend]
    rfl
  | @wrapped q rounds incomes invs hend hincomes _ =>
    have hignored : ∀ v : DemoView, applyEvent (some v)
        (busEvent { body := .scenario (.roundEnded s.rounds.round) : FEvent }) = some v :=
        fun v => rfl
    have hcharges :
        charges (fEvent p (.turnEnded q) :: { body := .scenario (.roundEnded s.rounds.round) } ::
          incomes) =
        charges incomes := by
      simp [charge, fEvent]
    rw [hcharges] at hstocks
    rw [List.map_cons, List.map_cons, List.foldl_cons, List.foldl_cons, apply_fEvent _ hp,
      Picture.applyPayload_turnEnded, hignored, apply_incomes hincomes _ (hblank _ _ hend)]
    simp only [Picture.of, Picture.paid, hstocks, RoundManager.endTurn_turn hend]
    rfl
  | sold hwood =>
    have hcharges : charges [fEvent p (.trade "wood" "vp" (some 1))] =
        entry p "wood" (-2) + entry p "vp" 1 := by
      simp [charge, fEvent, byPlayer]
    rw [hcharges] at hstocks
    refine (foldl_fEvent _ hp _).trans ?_
    rw [Picture.applyPayload_sold { Picture.of s victory with round } hwood]
    exact congrArg (fun P : Picture => some P.view) (by ext1 <;> first | rfl | exact hstocks.symm)
  | leapt hstone =>
    have hcharges : charges [fEvent p (.trade "stone" "stone-leap" none)] =
        entry p "stone" (-2) := by
      simp [charge, fEvent, byPlayer]
    rw [hcharges] at hstocks
    refine (foldl_fEvent _ hp _).trans ?_
    rw [Picture.applyPayload_leapt { Picture.of s victory with round } hstone]
    exact congrArg (fun P : Picture => some P.view) (by ext1 <;> first | rfl | exact hstocks.symm)
  | @fortified t _ hwood hstone =>
    have hcharges : charges [fEvent p (.fortify t 2 1)] =
        entry p "wood" (-2) + entry p "stone" (-1) := by
      simp [charge, fEvent, byPlayer]
    rw [hcharges] at hstocks
    refine (foldl_fEvent _ hp _).trans ?_
    rw [Picture.applyPayload_fortify { Picture.of s victory with round } t hwood hstone]
    exact congrArg (fun P : Picture => some P.view) (by ext1 <;> first | rfl | exact hstocks.symm)
  | @posted o _ _ _ _ _ _ _ hwood hstone =>
    have hcharges : charges [fEvent p (.postOffer o)] =
        entry p "wood" (-o.giveWood) + entry p "stone" (-o.giveStone) := by
      simp [charge, fEvent, byPlayer]
    rw [hcharges] at hstocks
    refine (foldl_fEvent _ hp _).trans ?_
    rw [Picture.applyPayload_postOffer { Picture.of s victory with round } hwood hstone]
    exact congrArg (fun P : Picture => some P.view) (by ext1 <;> first | rfl | exact hstocks.symm)
  | @accepted o _ _ hother =>
    have hcharges : charges [fEvent p (.acceptOffer o.id o p)] =
        entry p "wood" (-o.wantWood) + entry p "stone" (-o.wantStone) +
          (entry p "wood" o.giveWood + entry p "stone" o.giveStone) +
          (entry o.fromPlayerId "wood" o.wantWood + entry o.fromPlayerId "stone" o.wantStone) := by
      simp [charge, fEvent]
    rw [hcharges] at hstocks
    refine (foldl_fEvent _ hp _).trans ?_
    rw [Picture.applyPayload_acceptOffer { Picture.of s victory with round } hother]
    exact congrArg (fun P : Picture => some P.view) (by ext1 <;> first | rfl | exact hstocks.symm)
  | @cancelled o =>
    have hcharges : charges [fEvent p (.cancelOffer o.id o)] =
        entry p "wood" o.giveWood + entry p "stone" o.giveStone := by
      simp [charge, fEvent, byPlayer]
    rw [hcharges] at hstocks
    refine (foldl_fEvent _ hp _).trans ?_
    rw [Picture.applyPayload_cancelOffer]
    exact congrArg (fun P : Picture => some P.view) (by ext1 <;> first | rfl | exact hstocks.symm)

end Boardgame.Web
