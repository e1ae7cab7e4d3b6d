import Boardgame.Frontier.Setup

/-!
# Frontier.Permitted

What the rules of Frontier let the player on turn do. No rule asks for the status of the game.

* `validatePayload_ok`: the validators let pass just that.
* `validate_answers`: on the state of a game no validator throws.
-/

namespace Boardgame.Frontier

/-- The player is on turn, and is not the empty string. -/
def OnTurn (s : FState) (p : Option PlayerId) : Prop :=
  p = some s.rounds.turn.activePlayer ∧ s.rounds.turn.activePlayer ≠ ""

/-- What a player may do in their turn. -/
def Permitted (s : FState) (p : PlayerId) : FrontierPayload → Prop
  | .claimTile t =>
    s.rounds.turn.currentPhaseId = "turn" ∧ s.rounds.turn.flag "claimedThisTurn" = false ∧
      ∃ tile, s.map.tileById t = some tile ∧ isTileOccupied s t = false ∧
        (s.rounds.turn.flag "stoneLeap" = true ∨ adjacentTo (ownedTileCoords s p) tile.coord = true)
  | .endTurn => True
  | .trade resource =>
    (resource = "wood" ∨ resource = "stone") ∧ 2 ≤ stock s p resource ∧
      ¬ (resource = "stone" ∧ s.rounds.turn.flag "stoneLeap" = true)
  | .fortify t =>
    2 ≤ stock s p "wood" ∧ 1 ≤ stock s p "stone" ∧ (∃ tile, s.map.tileById t = some tile) ∧
      tileOwner s t = some p ∧ (s.extras.fortifications.get? t).getD "" = ""
  | .postOffer giveWood giveStone wantWood wantStone =>
    (0 ≤ giveWood ∧ 0 ≤ giveStone ∧ 0 ≤ wantWood ∧ 0 ≤ wantStone) ∧
      giveWood + giveStone ≠ 0 ∧ wantWood + wantStone ≠ 0 ∧
      giveWood ≤ stock s p "wood" ∧ giveStone ≤ stock s p "stone" ∧
      (s.extras.tradeOffers.filter fun o => o.fromPlayerId = p).length < 3
  | .acceptOffer offerId =>
    ∃ offer, findOffer s offerId = some offer ∧ offer.fromPlayerId ≠ p ∧
      offer.wantWood ≤ stock s p "wood" ∧ offer.wantStone ≤ stock s p "stone"
  | .cancelOffer offerId => ∃ offer, findOffer s offerId = some offer ∧ offer.fromPlayerId = p
  | .unregistered _ => False

section Validators

variable {s : FState} {p : Option PlayerId} {inv : Inventory}

theorem guardTurn_onTurn {m m' : String} : guardTurn s p m m' = .ok () ↔ OnTurn s p := guardTurn_ok

theorem guardTurn_answers (s : FState) (p : Option PlayerId) (m m' : String) :
    Answers (guardTurn s p m m') :=
  .bind (.rejectIf _ _ _) fun _ _ => .rejectIf _ _ _

theorem purseOf_of_key {u : PlayerId} (h : s.inventories.get? u = some inv) :
    purseOf s u = .ok inv := by
  rw [purseOf, h]
  rfl

theorem purseOf_bind {α : Type} {u : PlayerId} (h : s.inventories.get? u = some inv)
    (f : Inventory → Except Refusal α) : purseOf s u >>= f = f inv := by
  rw [purseOf_of_key h]
  rfl

theorem stock_of_key {u : PlayerId} (h : s.inventories.get? u = some inv) (r : ResourceType) :
    inv.get r = stock s u r := by
  rw [stock, stockOf, h]
  rfl

theorem claimTile_ok {t : TileId} : claimTileValidator s p t = .ok () ↔
    OnTurn s p ∧ Permitted s s.rounds.turn.activePlayer (.claimTile t) := by
  simp only [claimTileValidator, Eff.except_seq_eq_ok, guardTurn_onTurn, rejectIf_eq_ok,
    orReject_bind_ok, not_not, ne_eq, Permitted, Bool.not_eq_true]
  refine and_congr_right fun hturn => and_congr_right fun _ => and_congr_right fun _ =>
    exists_congr fun tile => and_congr_right fun _ => and_congr_right fun _ => ?_
  rw [hturn.1, actor_some]
  cases s.rounds.turn.flag "stoneLeap" with
  | true => simp
  | false =>
    simp only [if_true, Eff.except_seq_eq_ok, rejectIf_eq_ok, Bool.false_eq_true, false_or,
      Bool.not_eq_false]
    refine and_iff_right_of_imp fun hadj hnone => ?_
    rw [List.length_eq_zero_iff.mp hnone] at hadj
    simp [adjacentTo] at hadj

theorem trade_ok {r : String} (hinv : s.inventories.get? s.rounds.turn.activePlayer = some inv) :
    tradeValidator s p r = .ok () ↔
    OnTurn s p ∧ Permitted s s.rounds.turn.activePlayer (.trade r) := by
  simp only [tradeValidator, Eff.except_seq_eq_ok, guardTurn_onTurn, rejectIf_eq_ok, Permitted]
  refine and_congr_right fun hturn => and_congr (by tauto) ?_
  rw [hturn.1, actor_some, purseOf_bind hinv]
  simp only [Eff.except_seq_eq_ok, rejectIf_eq_ok, stock_of_key hinv, not_lt]

theorem fortify_ok {t : TileId} (hinv : s.inventories.get? s.rounds.turn.activePlayer = some inv) :
    fortifyValidator s p t = .ok () ↔
    OnTurn s p ∧ Permitted s s.rounds.turn.activePlayer (.fortify t) := by
  simp only [fortifyValidator, Eff.except_seq_eq_ok, guardTurn_onTurn, Permitted]
  refine and_congr_right fun hturn => ?_
  rw [hturn.1, actor_some, purseOf_bind hinv]
  simp only [Eff.except_seq_eq_ok, rejectIf_eq_ok, orReject_bind_ok, stock_of_key hinv, not_lt,
    not_not, ne_eq, exists_and_right]

theorem postOffer_ok {gw gs ww ws : ℚ}
    (hinv : s.inventories.get? s.rounds.turn.activePlayer = some inv) :
    postOfferValidator s p gw gs ww ws = .ok () ↔
      OnTurn s p ∧ Permitted s s.rounds.turn.activePlayer (.postOffer gw gs ww ws) := by
  simp only [postOfferValidator, Eff.except_seq_eq_ok, guardTurn_onTurn, rejectIf_eq_ok, Permitted]
  refine and_congr_right fun hturn => ?_
  rw [hturn.1, actor_some, purseOf_bind hinv]
  simp only [Eff.except_seq_eq_ok, rejectIf_eq_ok, stock_of_key hinv, not_or, not_lt, ge_iff_le,
    not_le, ne_eq, Option.some.injEq]

theorem acceptOffer_ok {o : String}
    (hinv : s.inventories.get? s.rounds.turn.activePlayer = some inv) :
    acceptOfferValidator s p o = .ok () ↔
      OnTurn s p ∧ Permitted s s.rounds.turn.activePlayer (.acceptOffer o) := by
  simp only [acceptOfferValidator, Eff.except_seq_eq_ok, guardTurn_onTurn, orReject_bind_ok,
    rejectIf_eq_ok, Permitted]
  refine and_congr_right fun hturn => exists_congr fun offer => and_congr_right fun _ => ?_
  rw [hturn.1, actor_some, purseOf_bind hinv]
  simp only [Eff.except_seq_eq_ok, rejectIf_eq_ok, stock_of_key hinv, not_lt, ne_eq,
    Option.some.injEq]

theorem cancelOffer_ok {o : String} : cancelOfferValidator s p o = .ok () ↔
    OnTurn s p ∧ Permitted s s.rounds.turn.activePlayer (.cancelOffer o) := by
  simp only [cancelOfferValidator, Eff.except_seq_eq_ok, guardTurn_onTurn, orReject_bind_ok,
    rejectIf_eq_ok, Permitted]
  refine and_congr_right fun hturn => exists_congr fun offer => and_congr_right fun _ => ?_
  rw [hturn.1, not_not, Option.some.injEq]

/-- The player on turn of a game has a purse. -/
theorem Sound.purse (hs : Sound s) :
    ∃ inv, s.inventories.get? s.rounds.turn.activePlayer = some inv :=
  OrderedMap.mem_keys.mp (hs.key hs.turn)

/-- The validators let pass what the rules let the player on turn do. -/
theorem validatePayload_ok (hs : Sound s) (payload : FrontierPayload) :
    validatePayload s p payload = .ok () ↔
    OnTurn s p ∧ Permitted s s.rounds.turn.activePlayer payload := by
  obtain ⟨inv, hinv⟩ := hs.purse
  cases payload with
  | claimTile t => exact claimTile_ok
  | endTurn => exact guardTurn_onTurn.trans (and_iff_left trivial).symm
  | trade r => exact trade_ok hinv
  | fortify t => exact fortify_ok hinv
  | postOffer gw gs ww ws => exact postOffer_ok hinv
  | acceptOffer o => exact acceptOffer_ok hinv
  | cancelOffer o => exact cancelOffer_ok
  | unregistered t => exact iff_of_false (fun h => by cases h) fun h => h.2.elim

/-- Past the guard, the player's purse is there. -/
theorem purse_answers (hs : Sound s) {m m' : String} {u : Unit}
    (hguard : guardTurn s p m m' = .ok u) :
    Answers (purseOf s (actor p)) := by
  obtain ⟨inv, hinv⟩ := hs.purse
  rw [(guardTurn_onTurn.mp hguard).1, actor_some, purseOf_of_key hinv]
  exact .ok inv

theorem validate_answers (hs : Sound s) (a : FAction) :
    Answers (frontierScenario.validate s a) := by
  rw [validate_eq]
  cases a.payload with
  | claimTile t =>
    refine .bind (guardTurn_answers s _ _ _) fun _ _ => .bind (.rejectIf _ _ _) fun _ _ => ?_
    refine .bind (.rejectIf _ _ _) fun _ _ => .bind (.orReject _ _ _) fun _ _ => ?_
    refine .bind (.rejectIf _ _ _) fun _ _ => ?_
    split
    · exact .bind (.rejectIf _ _ _) fun _ _ => .rejectIf _ _ _
    · exact .ok ()
  | endTurn => exact guardTurn_answers s _ _ _
  | trade r =>
    exact .bind (guardTurn_answers s _ _ _) fun _ hguard => .bind (.rejectIf _ _ _) fun _ _ =>
      .bind (purse_answers hs hguard) fun _ _ => .bind (.rejectIf _ _ _) fun _ _ => .rejectIf _ _ _
  | fortify t =>
    refine .bind (guardTurn_answers s _ _ _) fun _ hguard =>
      .bind (purse_answers hs hguard) fun _ _ => ?_
    refine .bind (.rejectIf _ _ _) fun _ _ => .bind (.rejectIf _ _ _) fun _ _ => ?_
    exact .bind (.orReject _ _ _) fun _ _ => .bind (.rejectIf _ _ _) fun _ _ => .rejectIf _ _ _
  | postOffer gw gs ww ws =>
    refine .bind (guardTurn_answers s _ _ _) fun _ hguard => .bind (.rejectIf _ _ _) fun _ _ => ?_
    refine .bind (.rejectIf _ _ _) fun _ _ => .bind (.rejectIf _ _ _) fun _ _ => ?_
    refine .bind (purse_answers hs hguard) fun _ _ => .bind (.rejectIf _ _ _) fun _ _ => ?_
    exact .bind (.rejectIf _ _ _) fun _ _ => .rejectIf _ _ _
  | acceptOffer o =>
    refine .bind (guardTurn_answers s _ _ _) fun _ hguard => .bind (.orReject _ _ _) fun _ _ => ?_
    refine .bind (.rejectIf _ _ _) fun _ _ => .bind (purse_answers hs hguard) fun _ _ => ?_
    exact .bind (.rejectIf _ _ _) fun _ _ => .rejectIf _ _ _
  | cancelOffer o =>
    exact .bind (guardTurn_answers s _ _ _) fun _ _ => .bind (.orReject _ _ _) fun _ _ =>
      .rejectIf _ _ _
  | unregistered t =>
    intro e h
    cases h

end Validators

end Boardgame.Frontier
