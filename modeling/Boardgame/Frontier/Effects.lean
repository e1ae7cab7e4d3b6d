import Boardgame.Frontier.Ledger
import Boardgame.Lib.Keeps

/-!
# Frontier.Effects

What an accepted Frontier action does, said once. `Effect s p payload events s'` lists, for each of
the seven actions, the guards that held and the state it leaves; whatever changes hands is the
ledger of the events. `accepted_effect` shows that on a `Sound` state every accepted action runs to
its end with such an effect.
-/

namespace Boardgame.Frontier

open Ledger (entry)

/-- What the executors rely on without checking it, and what keeps the open offers honest. -/
structure Sound (s : FState) : Prop where
  purses : ∀ pl ∈ s.players.bySeat, pl.id ∈ s.inventories.keys
  active : ∀ pl ∈ s.players.bySeat, pl.isActive = true
  turn : s.rounds.turn.activePlayer ∈ s.players.bySeat.map Player.id
  clockwise : s.rounds.turnOrder = .clockwise
  nonneg : ∀ id r, 0 ≤ stock s id r
  traders : ∀ o ∈ s.extras.tradeOffers, o.fromPlayerId ∈ s.players.bySeat.map Player.id
  amounts : ∀ o ∈ s.extras.tradeOffers,
    0 ≤ o.giveWood ∧ 0 ≤ o.giveStone ∧ 0 ≤ o.wantWood ∧ 0 ≤ o.wantStone

theorem Sound.key {s : FState} (hs : Sound s) {id : PlayerId}
    (h : id ∈ s.players.bySeat.map Player.id) :
    id ∈ s.inventories.keys := by
  obtain ⟨pl, hpl, rfl⟩ := List.mem_map.mp h
  exact hs.purses pl hpl

/-- An event that pays somebody at the end of a round. -/
def Income (e : FEvent) : Prop :=
  ∃ id, e.playerId = some id ∧
    ((∃ t, e.body = .scenario (.fortIncome t 1)) ∨
      ∃ wood stone, 0 ≤ wood ∧ 0 ≤ stone ∧ e.body = .scenario (.tileIncome wood stone))

def claimedEvent (p : PlayerId) (t : TileId) (tile : Tile) (die1 die2 : Int) : FEvent :=
  fEvent p (.tileClaimed t tile.terrain (terrainVp tile.terrain + bonusFor (die1 + die2)) p
    (die1 + die2)
    die1 die2 (bonusFor (die1 + die2)) (terrainResource tile.terrain))

/-- The effect of an accepted action of the active player `p`. -/
inductive Effect (s : FState) (p : PlayerId) : FrontierPayload → List FEvent → FState → Prop where
  | claimed {t : TileId} {tile : Tile} {die1 die2 : Int} {rng : SeededRandom}
      {invs : OrderedMap PlayerId Inventory} :
      s.map.tileById t = some tile → isTileOccupied s t = false →
      Books s.inventories invs (charge (claimedEvent p t tile die1 die2)) →
      Effect s p (.claimTile t) [claimedEvent p t tile die1 die2]
        { s with
          rng
          inventories := invs
          pieces := s.pieces.set (flagId p t) (makeUnit (flagId p t) "flag" p t)
          rounds := (s.rounds.setFlag "claimedThisTurn" true).setFlag "stoneLeap" false }
  | turned {q : PlayerId} {rounds : RoundManager} :
      s.rounds.endTurn s.players.all "turn" = .ok (⟨q, false⟩, rounds) →
      Effect s p .endTurn [fEvent p (.turnEnded q)] { s with rounds }
  | wrapped {q : PlayerId} {rounds : RoundManager} {incomes : List FEvent}
      {invs : OrderedMap PlayerId Inventory} :
      s.rounds.endTurn s.players.all "turn" = .ok (⟨q, true⟩, rounds) →
      (∀ e ∈ incomes, Income e) → Books s.inventories invs (charges incomes) →
      Effect s p .endTurn
        (fEvent p (.turnEnded q) :: { body := .scenario (.roundEnded s.rounds.round) } :: incomes)
        { s with rounds, inventories := invs }
  | sold {invs : OrderedMap PlayerId Inventory} :
      2 ≤ stock s p "wood" →
      Books s.inventories invs (charge (fEvent p (.trade "wood" "vp" (some 1)))) →
      Effect s p (.trade "wood") [fEvent p (.trade "wood" "vp" (some 1))]
      { s with inventories := invs }
  | leapt {invs : OrderedMap PlayerId Inventory} :
      2 ≤ stock s p "stone" →
      Books s.inventories invs (charge (fEvent p (.trade "stone" "stone-leap" none))) →
      Effect s p (.trade "stone") [fEvent p (.trade "stone" "stone-leap" none)]
        { s with inventories := invs, rounds := s.rounds.setFlag "stoneLeap" true }
  | fortified {t : TileId} {invs : OrderedMap PlayerId Inventory} :
      2 ≤ stock s p "wood" → 1 ≤ stock s p "stone" →
      Books s.inventories invs (charge (fEvent p (.fortify t 2 1))) →
      Effect s p (.fortify t) [fEvent p (.fortify t 2 1)]
        (setExtras (fun x => { x with fortifications := x.fortifications.set t p })
          { s with inventories := invs })
  | posted {o : TradeOffer} {invs : OrderedMap PlayerId Inventory} :
      o.id = toString (s.extras.nextOfferId + 1) → o.fromPlayerId = p →
      0 ≤ o.giveWood → 0 ≤ o.giveStone → 0 ≤ o.wantWood → 0 ≤ o.wantStone →
      o.giveWood ≤ stock s p "wood" → o.giveStone ≤ stock s p "stone" →
      (s.extras.tradeOffers.filter fun o' => o'.fromPlayerId = p).length < 3 →
      Books s.inventories invs (charge (fEvent p (.postOffer o))) →
      Effect s p (.postOffer o.giveWood o.giveStone o.wantWood o.wantStone)
      [fEvent p (.postOffer o)]
        (setExtras (fun x =>
            { x with nextOfferId := s.extras.nextOfferId + 1, tradeOffers := x.tradeOffers ++ [o] })
          { s with inventories := invs })
  | accepted {o : TradeOffer} {invs : OrderedMap PlayerId Inventory} :
      o ∈ s.extras.tradeOffers → o.fromPlayerId ≠ p →
      o.wantWood ≤ stock s p "wood" → o.wantStone ≤ stock s p "stone" →
      Books s.inventories invs (charge (fEvent p (.acceptOffer o.id o p))) →
      Effect s p (.acceptOffer o.id) [fEvent p (.acceptOffer o.id o p)]
        (setExtras (fun x => { x with tradeOffers := x.tradeOffers.filter fun o' => o'.id ≠ o.id })
          { s with inventories := invs })
  | cancelled {o : TradeOffer} {invs : OrderedMap PlayerId Inventory} :
      o ∈ s.extras.tradeOffers → o.fromPlayerId = p →
      Books s.inventories invs (charge (fEvent p (.cancelOffer o.id o))) →
      Effect s p (.cancelOffer o.id) [fEvent p (.cancelOffer o.id o)]
        (setExtras (fun x => { x with tradeOffers := x.tradeOffers.filter fun o' => o'.id ≠ o.id })
          { s with inventories := invs })

theorem Effect.players {s s' : FState} {p : PlayerId} {payload : FrontierPayload}
    {evs : List FEvent} (h : Effect s p payload evs s') : s'.players = s.players := by
  cases h <;> rfl

theorem Effect.history {s s' : FState} {p : PlayerId} {payload : FrontierPayload}
    {evs : List FEvent} (h : Effect s p payload evs s') : s'.history = s.history := by
  cases h <;> rfl

/-! ## The effect of each executor -/

section Executors

variable {s : FState} {p : PlayerId}

theorem rollDie_run (s : FState) : ∃ v rng, rollDie.run s = .ok v { s with rng } := by
  obtain ⟨v, hv, -⟩ := s.rng.intInRange_ok (by decide : (1 : Int) ≤ 6)
  exact ⟨v,
    _, by simp only [rollDie, EStateM.run_bind, EStateM.run_get, hv, Eff.liftExcept_ok]; rfl⟩

theorem terrainVp_nonneg (terrain : String) : 0 ≤ terrainVp terrain := by
  unfold terrainVp
  split <;> norm_num

theorem bonusFor_nonneg (diceRoll : Int) : 0 ≤ bonusFor diceRoll := by
  unfold bonusFor
  split_ifs <;> norm_num

theorem addResource_pays (hp : p ∈ s.inventories.keys) (resource : Option String) :
    Pays (addResource p resource) s () (yields p resource) := by
  cases resource with
  | none => exact .pure ()
  | some r => exact addTo_pays hp zero_le_one

theorem claim_effect (hs : Sound s) (hp : p ∈ s.players.bySeat.map Player.id) {t : TileId}
    (hv : claimTileValidator s (some p) t = .ok ()) :
    ∃ evs s', (claimTileExecutor p t).run s = .ok evs s' ∧ Effect s p (.claimTile t) evs s' := by
  simp only [claimTileValidator, Eff.except_seq_eq_ok, rejectIf_eq_ok, orReject_bind_ok] at hv
  obtain ⟨_, _, _, tile, htile, hfree, _⟩ := hv
  obtain ⟨die1, rng₁, h₁⟩ := rollDie_run s
  obtain ⟨die2, rng₂, h₂⟩ := rollDie_run { s with rng := rng₁ }
  have hvp : 0 ≤ terrainVp tile.terrain + bonusFor (die1 + die2) :=
    add_nonneg (terrainVp_nonneg _) (bonusFor_nonneg _)
  obtain ⟨invs₁, h₃, hb₁⟩ := addTo_pays (s := { s with rng := rng₂ }) (r := "vp") (hs.key hp) hvp
  obtain ⟨invs₂, h₄, hb₂⟩ := addResource_pays (s := { s with rng := rng₂, inventories := invs₁ })
    (hb₁.keys ▸ hs.key hp) (terrainResource tile.terrain)
  have heff : Effect s p (.claimTile t) [claimedEvent p t tile die1 die2]
      { s with
        rng := rng₂
        inventories := invs₂
        pieces := s.pieces.set (flagId p t) (makeUnit (flagId p t) "flag" p t)
        rounds := (s.rounds.setFlag "claimedThisTurn" true).setFlag "stoneLeap" false } :=
    .claimed htile (by simpa using hfree) (hb₁.trans hb₂)
  refine ⟨_, _, ?_, heff⟩
  simp only [claimTileExecutor, EStateM.run_bind, EStateM.run_get, htile, h₁, h₂, h₃, h₄, plantFlag,
    EStateM.run_modify, EStateM.run_pure]
  rfl

theorem trade_effect (hs : Sound s) (hp : p ∈ s.players.bySeat.map Player.id) {r : String}
    (hv : tradeValidator s (some p) r = .ok ()) :
    ∃ evs s', (tradeExecutor p r).run s = .ok evs s' ∧ Effect s p (.trade r) evs s' := by
  have hkey := hs.key hp
  obtain ⟨inv, hinv⟩ := OrderedMap.mem_keys.mp hkey
  simp only [tradeValidator, Eff.except_seq_eq_ok, rejectIf_eq_ok, purseOf, orThrow_bind_ok,
    not_and_or, not_not, ne_eq] at hv
  simp only [actor_some, hinv] at hv
  obtain ⟨_, hr, i, hi, hstock, _⟩ := hv
  cases hi
  have hle : 2 ≤ stock s p r := by simpa [stock, stockOf, hinv] using hstock
  obtain ⟨invs₁, h₁, hb₁⟩ := removeFrom_pays hkey (by norm_num) hle
  rcases hr with rfl | rfl
  · obtain ⟨invs₂, h₂, hb₂⟩ := addTo_pays (s := { s with inventories := invs₁ })
      (r := "vp") (q := 1)
      (hb₁.keys ▸ hkey) zero_le_one
    refine ⟨_, _, ?_, .sold hle (hb₁.trans hb₂)⟩
    rw [tradeExecutor, Eff.bind_ok h₁, if_pos rfl, Eff.bind_ok h₂]
    rfl
  · refine ⟨_, _, ?_, .leapt hle hb₁⟩
    rw [tradeExecutor, Eff.bind_ok h₁, if_neg (by decide)]
    rfl

theorem fortify_effect (hs : Sound s) (hp : p ∈ s.players.bySeat.map Player.id) {t : TileId}
    (hv : fortifyValidator s (some p) t = .ok ()) :
    ∃ evs s', (fortifyExecutor p t).run s = .ok evs s' ∧ Effect s p (.fortify t) evs s' := by
  have hkey := hs.key hp
  obtain ⟨inv, hinv⟩ := OrderedMap.mem_keys.mp hkey
  simp only [fortifyValidator, Eff.except_seq_eq_ok, rejectIf_eq_ok, purseOf, orThrow_bind_ok] at hv
  simp only [actor_some, hinv] at hv
  obtain ⟨_, i, hi, hwood, hstone, _⟩ := hv
  cases hi
  have hw : 2 ≤ stock s p "wood" := by simpa [stock, stockOf, hinv] using hwood
  have hst : 1 ≤ stock s p "stone" := by simpa [stock, stockOf, hinv] using hstone
  obtain ⟨invs₁, h₁, hb₁⟩ := removeFrom_pays hkey (by norm_num) hw
  obtain ⟨invs₂, h₂, hb₂⟩ := removeFrom_pays (s := { s with inventories := invs₁ }) (r := "stone")
    (q := 1) (hb₁.keys ▸ hkey) (by norm_num) (by
      have := hb₁.stock p "stone"
      simp only [Ledger.entry_apply] at this
      simpa [stock, this] using hst)
  refine ⟨_, _, ?_, .fortified hw hst (hb₁.trans hb₂)⟩
  rw [fortifyExecutor, Eff.bind_ok h₁, Eff.bind_ok h₂]
  rfl

theorem post_effect (hs : Sound s) (hp : p ∈ s.players.bySeat.map Player.id) {gw gs ww ws : ℚ}
    (hv : postOfferValidator s (some p) gw gs ww ws = .ok ()) :
    ∃ evs s', (postOfferExecutor p gw gs ww ws).run s = .ok evs s' ∧
      Effect s p (.postOffer gw gs ww ws) evs s' := by
  have hkey := hs.key hp
  obtain ⟨inv, hinv⟩ := OrderedMap.mem_keys.mp hkey
  simp only [postOfferValidator, Eff.except_seq_eq_ok, rejectIf_eq_ok, purseOf, orThrow_bind_ok,
    not_or, not_lt] at hv
  simp only [actor_some, hinv, Option.some.injEq] at hv
  obtain ⟨_, ⟨hgw, hgs, hww, hws⟩, _, _, i, hi, hwood, hstone, hfew⟩ := hv
  cases hi
  have hw : gw ≤ stock s p "wood" := by simpa [stock, stockOf, hinv] using hwood
  have hst : gs ≤ stock s p "stone" := by simpa [stock, stockOf, hinv] using hstone
  obtain ⟨invs₁, h₁, hb₁⟩ := removeSome_pays hkey hgw hw
  obtain ⟨invs₂, h₂, hb₂⟩ := removeSome_pays (s := { s with inventories := invs₁ }) (r := "stone")
    (q := gs) (hb₁.keys ▸ hkey) hgs (by
      have := hb₁.stock p "stone"
      simp only [Ledger.entry_apply] at this
      simpa [stock, this] using hst)
  have heff := Effect.posted (s := s) (p := p)
    (o := ⟨toString (s.extras.nextOfferId + 1), p, gw, gs, ww, ws⟩) rfl rfl hgw hgs hww hws hw hst
    (by simpa using hfew) (hb₁.trans hb₂)
  refine ⟨_, _, ?_, heff⟩
  rw [postOfferExecutor, Eff.bind_ok h₁, Eff.bind_ok h₂]
  rfl

theorem findOffer_some {offerId : String} {o : TradeOffer} (h : findOffer s offerId = some o) :
    o ∈ s.extras.tradeOffers ∧ o.id = offerId :=
  ⟨List.mem_of_find?_eq_some h, by simpa using List.find?_some h⟩

theorem offerAt_run {offerId : String} {o : TradeOffer} (h : findOffer s offerId = some o) :
    (offerAt offerId).run s = .ok o s := by
  simp [offerAt, h]

theorem cancel_effect (hs : Sound s) (hp : p ∈ s.players.bySeat.map Player.id) {offerId : String}
    (hv : cancelOfferValidator s (some p) offerId = .ok ()) :
    ∃ evs s', (cancelOfferExecutor p offerId).run s = .ok evs s' ∧
      Effect s p (.cancelOffer offerId) evs s' := by
  have hkey := hs.key hp
  simp only [cancelOfferValidator, Eff.except_seq_eq_ok, rejectIf_eq_ok, orReject_bind_ok, not_not,
    ne_eq, Option.some.injEq] at hv
  obtain ⟨_, o, ho, hown⟩ := hv
  obtain ⟨hmem, rfl⟩ := findOffer_some ho
  obtain ⟨hgw, hgs, _, _⟩ := hs.amounts o hmem
  obtain ⟨invs₁, h₁, hb₁⟩ := addSome_pays (r := "wood") hkey hgw
  obtain ⟨invs₂, h₂, hb₂⟩ := addSome_pays (s := { s with inventories := invs₁ }) (r := "stone")
    (hb₁.keys ▸ hkey) hgs
  refine ⟨_, _, ?_, .cancelled hmem hown (hb₁.trans hb₂)⟩
  rw [cancelOfferExecutor, Eff.bind_ok (offerAt_run ho), Eff.bind_ok h₁, Eff.bind_ok h₂]
  rfl

theorem accept_effect (hs : Sound s) (hp : p ∈ s.players.bySeat.map Player.id) {offerId : String}
    (hv : acceptOfferValidator s (some p) offerId = .ok ()) :
    ∃ evs s', (acceptOfferExecutor p offerId).run s = .ok evs s' ∧
      Effect s p (.acceptOffer offerId) evs s' := by
  have hkey := hs.key hp
  obtain ⟨inv, hinv⟩ := OrderedMap.mem_keys.mp hkey
  simp only [acceptOfferValidator, Eff.except_seq_eq_ok, rejectIf_eq_ok, orReject_bind_ok, purseOf,
    orThrow_bind_ok, not_lt, Option.some.injEq] at hv
  simp only [actor_some, hinv] at hv
  obtain ⟨_, o, ho, hown, i, hi, hwood, hstone⟩ := hv
  cases hi
  obtain ⟨hmem, rfl⟩ := findOffer_some ho
  obtain ⟨hgw, hgs, hww, hws⟩ := hs.amounts o hmem
  have hfrom := hs.key (hs.traders o hmem)
  have hw : o.wantWood ≤ stock s p "wood" := by simpa [stock, stockOf, hinv] using hwood
  have hst : o.wantStone ≤ stock s p "stone" := by simpa [stock, stockOf, hinv] using hstone
  -- the accepter pays and is paid, then the offerer
  obtain ⟨invs₁, h₁, hb₁⟩ := removeSome_pays hkey hww hw
  obtain ⟨invs₂, h₂, hb₂⟩ := removeSome_pays (s := { s with inventories := invs₁ }) (r := "stone")
    (q := o.wantStone) (hb₁.keys ▸ hkey) hws (by
      have := hb₁.stock p "stone"
      simp only [Ledger.entry_apply] at this
      simpa [stock, this] using hst)
  have hb₁₂ := hb₁.trans hb₂
  obtain ⟨invs₃, h₃, hb₃⟩ := addSome_pays (s := { s with inventories := invs₂ }) (r := "wood")
    (hb₁₂.keys ▸ hkey) hgw
  obtain ⟨invs₄, h₄, hb₄⟩ := addSome_pays (s := { s with inventories := invs₃ }) (r := "stone")
    ((hb₁₂.trans hb₃).keys ▸ hkey) hgs
  have hb₃₄ := hb₁₂.trans (hb₃.trans hb₄)
  obtain ⟨invs₅, h₅, hb₅⟩ := addSome_pays (s := { s with inventories := invs₄ }) (r := "wood")
    (hb₃₄.keys ▸ hfrom) hww
  obtain ⟨invs₆, h₆, hb₆⟩ := addSome_pays (s := { s with inventories := invs₅ }) (r := "stone")
    ((hb₃₄.trans hb₅).keys ▸ hfrom) hws
  refine ⟨_, _, ?_, .accepted hmem hown hw hst (hb₃₄.trans (hb₅.trans hb₆))⟩
  rw [acceptOfferExecutor, Eff.bind_ok (offerAt_run ho), Eff.bind_ok h₁, Eff.bind_ok h₂,
    Eff.bind_ok h₃, Eff.bind_ok h₄, Eff.bind_ok h₅, Eff.bind_ok h₆]
  rfl

/-! ## The end of a round -/

/-- A loop whose passes each pay what their events say. -/
theorem collect_pays {α : Type} {f : α → FExec (List FEvent)} {P : FEvent → Prop} (as : List α) :
    ∀ s : FState, (∀ a ∈ as, ∀ invs, invs.keys = s.inventories.keys →
      ∃ evs, Pays (f a) { s with inventories := invs } evs (charges evs) ∧ ∀ e ∈ evs, P e) →
    ∃ evs, Pays (Eff.collect f as) s evs (charges evs) ∧ ∀ e ∈ evs, P e := by
  induction as with
  | nil => intro s _; exact ⟨[], .pure [], by simp⟩
  | cons a as ih =>
    intro s h
    obtain ⟨evs₁, ⟨invs₁, h₁, hb₁⟩, hP₁⟩ := h a List.mem_cons_self s.inventories rfl
    obtain ⟨evs₂, ⟨invs₂, h₂, hb₂⟩, hP₂⟩ := ih { s with inventories := invs₁ } fun a' ha' invs hk =>
      h a' (List.mem_cons_of_mem _ ha') invs (hk.trans hb₁.keys)
    have hrun : (f a).run s = .ok evs₁ { s with inventories := invs₁ } := h₁
    refine ⟨evs₁ ++ evs₂, ⟨invs₂, ?_, ?_⟩, fun e he => ?_⟩
    · rw [Eff.collect, Eff.bind_ok hrun, Eff.bind_ok h₂]
      rfl
    · rw [charges_append]
      exact hb₁.trans hb₂
    · rcases List.mem_append.mp he with he | he
      · exact hP₁ e he
      · exact hP₂ e he

theorem fortIncome_pays (s : FState) (forts : OrderedMap TileId PlayerId) :
    ∃ evs, Pays (fortIncome forts) s evs (charges evs) ∧ ∀ e ∈ evs, Income e := by
  refine collect_pays _ s fun fort _ invs _ => ?_
  cases hinv : invs.get? fort.2 with
  | none =>
    exact ⟨[], ⟨invs, by simp [hinv], .refl _⟩, by simp⟩
  | some inv =>
    obtain ⟨invs', h, hb⟩ := addTo_pays (s := { s with inventories := invs }) (r := "vp")
      (OrderedMap.mem_keys.mpr ⟨inv, hinv⟩) zero_le_one
    refine ⟨[fEvent fort.2 (.fortIncome fort.1 1)], ⟨invs', ?_, ?_⟩, fun e he => ?_⟩
    · simp only [EStateM.run_bind, EStateM.run_get, hinv, h, EStateM.run_pure]
    · simpa [charges, charge, byPlayer, fEvent] using hb
    · rw [List.mem_singleton.mp he]
      exact ⟨fort.2, rfl, .inl ⟨fort.1, rfl⟩⟩

/-- What holds of nothing and of one more holds of every tile income. -/
theorem tileIncomes_of {P : ℚ → Prop} (h₀ : P 0) (h₁ : ∀ q, P q → P (q + 1)) (s : FState) :
    ∀ e ∈ (tileIncomes s).entries, P e.2.wood ∧ P e.2.stone := by
  have hstep : ∀ (m : OrderedMap PlayerId TileIncome) (piece : Piece),
      (∀ id i, m.get? id = some i → P i.wood ∧ P i.stone) →
      ∀ id i, (addPieceIncome s m piece).get? id = some i → P i.wood ∧ P i.stone := by
    intro m piece hm id i hi
    unfold addPieceIncome at hi
    split at hi
    · exact hm id i hi
    · simp only [OrderedMap.get?_set] at hi
      split at hi
      · have hold : P ((m.get? piece.owner).getD ⟨0, 0⟩).wood ∧
            P ((m.get? piece.owner).getD ⟨0, 0⟩).stone := by
          cases hg : m.get? piece.owner with
          | none => exact ⟨h₀, h₀⟩
          | some j => exact hm _ j hg
        have hone : ∀ (c : Prop) [Decidable c] q, P q → P (q + if c then 1 else 0) := by
          intro c _ q hq
          split
          · exact h₁ q hq
          · rwa [add_zero]
        cases hi
        exact ⟨hone _ _ hold.1, hone _ _ hold.2⟩
      · exact hm id i hi
  suffices h : ∀ (ps : List Piece) (m : OrderedMap PlayerId TileIncome),
      (∀ id i, m.get? id = some i → P i.wood ∧ P i.stone) →
      ∀ id i, (ps.foldl (addPieceIncome s) m).get? id = some i → P i.wood ∧ P i.stone from
    fun e he => h s.pieces.values ∅ (by simp) e.1 e.2 (OrderedMap.mem_entries.mp he)
  intro ps
  induction ps with
  | nil => exact fun m hm => hm
  | cons piece ps ih => exact fun m hm => ih _ (hstep m piece hm)

theorem tileIncomes_nonneg (s : FState) :
    ∀ e ∈ (tileIncomes s).entries, 0 ≤ e.2.wood ∧ 0 ≤ e.2.stone :=
  tileIncomes_of le_rfl (fun _ hq => add_nonneg hq zero_le_one) s

theorem payTileIncome_pays (s : FState) {incomes : OrderedMap PlayerId TileIncome}
    (hpos : ∀ e ∈ incomes.entries, 0 ≤ e.2.wood ∧ 0 ≤ e.2.stone) :
    ∃ evs, Pays (payTileIncome incomes) s evs (charges evs) ∧ ∀ e ∈ evs, Income e := by
  refine collect_pays _ s fun income hmem invs _ => ?_
  obtain ⟨hw, hst⟩ := hpos income hmem
  cases hinv : invs.get? income.1 with
  | none =>
    exact ⟨[], ⟨invs, by simp [hinv], .refl _⟩, by simp⟩
  | some inv =>
    have hkey : income.1 ∈ invs.keys := OrderedMap.mem_keys.mpr ⟨inv, hinv⟩
    obtain ⟨invs₁, h₁, hb₁⟩ := addSome_pays (s := { s with inventories := invs })
      (r := "wood") hkey hw
    obtain ⟨invs₂, h₂, hb₂⟩ := addSome_pays (s := { s with inventories := invs₁ }) (r := "stone")
      (hb₁.keys ▸ hkey) hst
    refine ⟨[fEvent income.1 (.tileIncome income.2.wood income.2.stone)], ⟨invs₂, ?_, ?_⟩,
      fun e he => ?_⟩
    · simp only [EStateM.run_bind, EStateM.run_get, hinv, h₁, h₂, EStateM.run_pure]
    · simpa [charges, charge, byPlayer, fEvent] using hb₁.trans hb₂
    · rw [List.mem_singleton.mp he]
      exact ⟨income.1, rfl, .inr ⟨_, _, hw, hst, rfl⟩⟩

theorem endRound_pays (s : FState) (n : Nat) :
    ∃ incomes, Pays (endRound n) s ({ body := .scenario (.roundEnded n) } :: incomes)
      (charges incomes) ∧
      ∀ e ∈ incomes, Income e := by
  obtain ⟨evs₁, ⟨invs₁, h₁, hb₁⟩, hP₁⟩ := fortIncome_pays s s.extras.fortifications
  obtain ⟨evs₂, ⟨invs₂, h₂, hb₂⟩, hP₂⟩ := payTileIncome_pays { s with inventories := invs₁ }
    (tileIncomes_nonneg { s with inventories := invs₁ })
  refine ⟨evs₁ ++ evs₂, ⟨invs₂, ?_, ?_⟩, fun e he => ?_⟩
  · simp only [endRound, EStateM.run_bind, EStateM.run_get, h₁, h₂, EStateM.run_pure]
  · rw [charges_append]
    exact hb₁.trans hb₂
  · rcases List.mem_append.mp he with he | he
    · exact hP₁ e he
    · exact hP₂ e he

theorem endTurn_effect (hs : Sound s) :
    ∃ evs s', (endTurnExecutor p).run s = .ok evs s' ∧ Effect s p .endTurn evs s' := by
  obtain ⟨pl, hpl, _⟩ := List.mem_map.mp hs.turn
  obtain ⟨q, _, b, hend⟩ := RoundManager.endTurn_total hs.clockwise
    ⟨pl, hpl, hs.active pl hpl⟩ "turn"
  have hend' : s.rounds.endTurn s.players.all "turn" = _ := hend
  cases b with
  | false =>
    refine ⟨_, _, ?_, .turned hend⟩
    simp only [endTurnExecutor, EStateM.run_bind, EStateM.run_get, hend', Eff.liftExcept_ok,
      EStateM.run_set]
    rfl
  | true =>
    obtain ⟨incomes, ⟨invs, hrun, hb⟩, hP⟩ := endRound_pays
      { s with rounds := { s.rounds with
          currentRound := s.rounds.currentRound + 1
          currentTurn := ⟨s.rounds.currentTurn.turnNumber + 1, q.id, "turn", ∅⟩ } } s.rounds.round
    refine ⟨_, _, ?_, .wrapped hend hP hb⟩
    simp only [endTurnExecutor, EStateM.run_bind, EStateM.run_get, hend', Eff.liftExcept_ok,
      EStateM.run_set, if_true, hrun]
    rfl

end Executors

/-- **What an accepted action does.** On a sound state every action its validator lets pass runs to
its end, with the effect its type has. -/
theorem accepted_effect {s : FState} (hs : Sound s) {a : FAction}
    (hv : frontierScenario.validate s a = .ok ()) :
    a.playerId = some s.rounds.turn.activePlayer ∧ s.rounds.turn.activePlayer ≠ "" ∧
      ∃ evs s', (frontierScenario.execute a).run s = .ok evs s' ∧
        Effect s s.rounds.turn.activePlayer a.payload evs s' := by
  obtain ⟨hact, hne⟩ := validate_guard hv
  refine ⟨hact, hne, ?_⟩
  rw [validate_eq, hact] at hv
  rw [execute_eq, hact, actor_some]
  cases hp : a.payload <;> rw [hp] at hv
  case claimTile t => exact claim_effect hs hs.turn hv
  case endTurn => exact endTurn_effect hs
  case trade r => exact trade_effect hs hs.turn hv
  case fortify t => exact fortify_effect hs hs.turn hv
  case postOffer gw gs ww ws => exact post_effect hs hs.turn hv
  case acceptOffer o => exact accept_effect hs hs.turn hv
  case cancelOffer o => exact cancel_effect hs hs.turn hv
  case unregistered t => simp [validatePayload] at hv

/-! ## Who is told -/

section Told

open Eff (Keeps)

/-- What the program returns are events for everybody. -/
abbrev Told (x : FExec (List FEvent)) : Prop :=
  Keeps (fun _ => True) (fun evs => ∀ e ∈ evs, e.privateTo = none) x

theorem told_one (p : PlayerId) (payload : FrontierEvent) : Told (pure [fEvent p payload]) :=
  .pure fun e he => by rw [List.mem_singleton.mp he]; rfl

theorem fortIncome_told (forts : OrderedMap TileId PlayerId) : Told (fortIncome forts) := by
  refine .collect_all _ fun fort _ => .get fun s _ => ?_
  cases s.inventories.get? fort.2 with
  | none => exact .pure (by simp)
  | some _ => exact .seq (.any _) (told_one _ _)

theorem payTileIncome_told (incomes : OrderedMap PlayerId TileIncome) :
    Told (payTileIncome incomes) := by
  refine .collect_all _ fun income _ => .get fun s _ => ?_
  cases s.inventories.get? income.1 with
  | none => exact .pure (by simp)
  | some _ => exact .seq (.any _) (.seq (.any _) (told_one _ _))

theorem endTurn_told (p : PlayerId) : Told (endTurnExecutor p) := by
  have hround : ∀ n, Told (endRound n) := by
    refine fun n => .get fun s _ => .bind (fortIncome_told _) fun forts hforts =>
      .get fun s' _ => ?_
    refine .bind (payTileIncome_told _) fun incomes hincomes => .pure fun e he => ?_
    rcases List.mem_cons.mp he with rfl | he
    · rfl
    · exact (List.mem_append.mp he).elim (hforts e) (hincomes e)
  refine .get fun s _ => .bind (.any _) fun turn _ => .seq (.any _) ?_
  split
  · refine .bind (hround _) fun incomes hincomes => .pure fun e he => ?_
    rcases List.mem_cons.mp he with rfl | he
    · rfl
    · exact hincomes e he
  · exact told_one _ _

/-- No event of Frontier is private. -/
theorem executePayload_told (p : PlayerId) (payload : FrontierPayload) :
    Told (executePayload p payload) := by
  cases payload with
  | claimTile t =>
    refine .get fun s _ => ?_
    cases s.map.tileById t with
    | none => exact .throw _
    | some tile =>
      refine .bind (.any rollDie) fun die1 _ => .bind (.any rollDie) fun die2 _ => ?_
      exact .seq (.any _)
        (.seq (.any _) (.seq (.any _) (.seq (.any _) (.seq (.any _) (told_one _ _)))))
  | endTurn => exact endTurn_told p
  | trade r =>
    refine .seq (.any _) ?_
    split
    · exact .seq (.any _) (told_one _ _)
    · exact .seq (.any _) (told_one _ _)
  | fortify t => exact .seq (.any _) (.seq (.any _) (.seq (.any _) (told_one _ _)))
  | postOffer gw gs ww ws =>
    exact .seq (.any _) (.seq (.any _) (.get fun s _ => .seq (.any _) (told_one _ _)))
  | acceptOffer o =>
    refine .bind (.any _) fun o _ => .seq (.any _)
      (.seq (.any _) (.seq (.any _) (.seq (.any _) ?_)))
    exact .seq (.any _) (.seq (.any _) (.seq (.any _) (told_one _ _)))
  | cancelOffer o =>
    exact .bind (.any _) fun o _ => .seq (.any _) (.seq (.any _) (.seq (.any _) (told_one _ _)))
  | unregistered t => exact .throw _

end Told

end Boardgame.Frontier
