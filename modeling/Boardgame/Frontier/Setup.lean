import Boardgame.Core.Moves
import Boardgame.Frontier.Effects

/-!
# Frontier.Setup

The state `createGameState(demoScenario)` returns, and Frontier runs from it.

* `fresh_state`, `fresh_sound`: what the state is, and that it is `Sound`.
* `Effect.sound`: every accepted action keeps it so.
* `sound_reachable`, `move_of_step`: what every call on a Frontier game does.
-/

namespace Boardgame.Frontier

open Ledger (entry)

/-- The piece stands on a tile of the map. -/
def Landed (m : GameMap) (piece : Piece) : Prop :=
  ∃ t tile, tileOf piece = some t ∧ m.tileById t = some tile

/-! ## Placing the players -/

theorem entry_nonneg {id id' : PlayerId} {r r' : ResourceType} {q : ℚ} (h : 0 ≤ q) :
    0 ≤ entry id r q id' r' := by
  rw [Ledger.entry_apply]
  split
  · exact h
  · exact le_rfl

/-- What `onSetup` keeps of the state `s₀` it starts from. -/
structure Placing (s₀ s : FState) : Prop where
  map : s.map = s₀.map
  players : s.players = s₀.players
  rounds : s.rounds = s₀.rounds
  status : s.status = s₀.status
  history : s.history = s₀.history
  forts : s.extras.fortifications = s₀.extras.fortifications
  offers : s.extras.tradeOffers = s₀.extras.tradeOffers
  nextOfferId : s.extras.nextOfferId = s₀.extras.nextOfferId
  keys : s.inventories.keys = s₀.inventories.keys
  nonneg : ∀ id r, 0 ≤ stock s id r
  landed : ∀ id piece, s.pieces.get? id = some piece → Landed s.map piece

theorem landed_set {m : GameMap} {ps : OrderedMap PieceId Piece} {id : PieceId} {piece : Piece}
    (h : ∀ id piece, ps.get? id = some piece → Landed m piece) (hp : Landed m piece) :
    ∀ id' piece', (ps.set id piece).get? id' = some piece' → Landed m piece' := by
  intro id' piece' hget
  rw [OrderedMap.get?_set] at hget
  split at hget
  · cases hget
    exact hp
  · exact h id' piece' hget

theorem placeHome_off {s : FState} {player : Player} {coord : AxialCoord}
    (htile : s.map.tileById (tileId coord) = none) : (placeHome player coord).run s = .ok () s := by
  simp only [placeHome, EStateM.run_bind, EStateM.run_get, htile, EStateM.run_pure]

/-- A home is a flag, an entry of `homeTiles` and, for a player with an inventory, the points of the
tile. -/
theorem placeHome_on {s : FState} (player : Player) {coord : AxialCoord} {tile : Tile}
    (htile : s.map.tileById (tileId coord) = some tile) :
    ∃ invs q, (q = 0 ∨ q = terrainVp tile.terrain) ∧
      Books s.inventories invs (entry player.id "vp" q) ∧
      (placeHome player coord).run s =
        .ok ()
          (setExtras (fun x => { x with homeTiles := x.homeTiles.set player.id (tileId coord) })
          { s with
            pieces := s.pieces.set (flagId player.id (tileId coord))
              (makeUnit (flagId player.id (tileId coord)) "flag" player.id (tileId coord))
            inventories := invs }) := by
  cases hinv : s.inventories.get? player.id with
  | none =>
    refine ⟨s.inventories, 0, .inl rfl, ?_, ?_⟩
    · rw [Ledger.entry_zero]
      exact .refl _
    · simp only [placeHome, plantFlag, EStateM.run_bind, EStateM.run_get, htile,
        EStateM.run_modify, hinv]
  | some inv =>
    obtain ⟨invs, hrun, hb⟩ := addTo_pays (s := { s with
      pieces := s.pieces.set (flagId player.id (tileId coord))
        (makeUnit (flagId player.id (tileId coord)) "flag" player.id (tileId coord)) }) (r := "vp")
      (OrderedMap.mem_keys.mpr ⟨inv, hinv⟩) (terrainVp_nonneg tile.terrain)
    refine ⟨invs, _, .inr rfl, hb, ?_⟩
    simp only [placeHome, plantFlag, EStateM.run_bind, EStateM.run_get, htile, EStateM.run_modify,
      hinv, hrun]

theorem placeHome_placing {s₀ s : FState} (h : Placing s₀ s) (player : Player)
    (coord : AxialCoord) :
    ∃ s', (placeHome player coord).run s = .ok () s' ∧ Placing s₀ s' := by
  cases htile : s.map.tileById (tileId coord) with
  | none => exact ⟨s, placeHome_off htile, h⟩
  | some tile =>
    obtain ⟨invs, q, hq, hb, hrun⟩ := placeHome_on player htile
    have hpos : 0 ≤ q := by
      rcases hq with rfl | rfl
      · exact le_rfl
      · exact terrainVp_nonneg _
    refine ⟨_, hrun, { h with
      landed := landed_set h.landed ⟨_, tile, rfl, htile⟩
      keys := hb.keys.trans h.keys
      nonneg := fun id r => ?_ }⟩
    have hstock : stockOf (invs.get? id) r = _ := hb.stock id r
    show 0 ≤ stockOf (invs.get? id) r
    rw [hstock]
    exact add_nonneg (h.nonneg id r) (entry_nonneg hpos)

/-! ## The fresh state -/

/-- The state of a game nobody has acted in. -/
structure Fresh (opts : GameSetupOptions) (s : FState) : Prop where
  size : 2 ≤ opts.players.length
  players : s.players = .new opts.players
  clockwise : s.rounds.turnOrder = .clockwise
  turn : s.rounds.turn.activePlayer ∈ opts.players.map Player.id
  purses : ∀ p ∈ opts.players, p.id ∈ s.inventories.keys
  nonneg : ∀ id r, 0 ≤ stock s id r
  landed : ∀ id piece, s.pieces.get? id = some piece → Landed s.map piece
  forts : s.extras.fortifications = ∅
  offers : s.extras.tradeOffers = []
  nextOfferId : s.extras.nextOfferId = 0
  history : s.history = []
  status : s.status = .setup

/-- `onSetup` on the state it gets. -/
theorem onSetup_placing (opts : GameSetupOptions) (rounds : RoundManager) :
    ∃ s, (onSetup opts.players).run (freshState frontierScenario opts rounds) = .ok () s ∧
      Placing (freshState frontierScenario opts rounds) s := by
  have hempty := (starting_inventories opts.players).2
  set s₀ := freshState frontierScenario opts rounds
  have hstart : Placing s₀ s₀ :=
    { map := rfl, players := rfl, rounds := rfl, status := rfl, history := rfl, forts := rfl
      offers := rfl, nextOfferId := rfl, keys := rfl
      nonneg := fun id r => by
        show 0 ≤ stockOf (s₀.inventories.get? id) r
        cases hi : s₀.inventories.get? id with
        | none => exact le_rfl
        | some inv => rw [hempty id inv hi]; exact le_rfl
      landed := by simp [s₀, freshState] }
  exact Eff.each_inv (f := fun e : Player × AxialCoord => placeHome e.1 e.2)
    (fun _ s => Placing s₀ s) (fun e _ s hs => placeHome_placing hs e.1 e.2) _ s₀ hstart

theorem fresh_state {opts : GameSetupOptions} {s : FState}
    (h : createGameState frontierScenario opts = .ok s) : Fresh opts s := by
  obtain ⟨hsize, rounds, hrm, hset⟩ := createGameState_ok h
  obtain ⟨hord, _, hturn⟩ := RoundManager.new_clockwise hrm
  obtain ⟨s', hrun, hp⟩ := onSetup_placing opts rounds
  have hset' : (onSetup opts.players).run (freshState frontierScenario opts rounds) =
      .ok () s := hset
  rw [hrun] at hset'
  cases hset'
  exact
    { size := hsize.1
      players := hp.players
      clockwise := by rw [hp.rounds]; exact hord
      turn := by rw [hp.rounds]; exact hturn
      purses := fun p hmem => by
        rw [hp.keys]
        exact OrderedMap.mem_keys.mpr ⟨_, (starting_inventories opts.players).1 p hmem⟩
      nonneg := hp.nonneg
      landed := hp.landed
      forts := hp.forts
      offers := hp.offers
      nextOfferId := hp.nextOfferId
      history := hp.history
      status := hp.status }

/-- Two to four players, one of them active, make a game. -/
theorem createGameState_returns {opts : GameSetupOptions} {p : Player} (hp : p ∈ opts.players)
    (hactive : p.isActive = true) (hsize : 2 ≤ opts.players.length ∧ opts.players.length ≤ 4) :
    ∃ s, createGameState frontierScenario opts = .ok s := by
  have hphase : frontierScenario.initialPhaseId ∈ frontierScenario.phases.map Phase.id := by decide
  obtain ⟨rounds, hrounds⟩ := RoundManager.new_returns hphase hp hactive
  obtain ⟨_, hrun, -⟩ := onSetup_placing opts rounds
  exact ⟨_, Boardgame.createGameState_returns hsize hrounds hrun⟩

theorem fresh_sound {opts : GameSetupOptions} {s : FState} (hf : Fresh opts s) : Sound s where
  purses pl hpl := by
    have hmem : pl.id ∈ opts.players.map Player.id := by
      rw [← (PlayerManager.new_ids opts.players).mem_iff, ← hf.players]
      exact List.mem_map_of_mem hpl
    obtain ⟨p, hp, hid⟩ := List.mem_map.mp hmem
    exact hid ▸ hf.purses p hp
  active pl hpl := PlayerManager.new_active (hf.players ▸ hpl)
  turn := by
    rw [hf.players, (PlayerManager.new_ids opts.players).mem_iff]
    exact hf.turn
  clockwise := hf.clockwise
  nonneg := hf.nonneg
  traders := by simp [hf.offers]
  amounts := by simp [hf.offers]

/-! ## What accepted actions keep -/

theorem Income.charge_nonneg {e : FEvent} (h : Income e) (id : PlayerId) (r : ResourceType) :
    0 ≤ charge e id r := by
  obtain ⟨body, playerId, _, _⟩ := e
  obtain ⟨payee, hp, ⟨t, hb⟩ | ⟨wood, stone, hw, hs, hb⟩⟩ := h <;>
    dsimp only at hp hb <;> subst hp hb
  · exact entry_nonneg zero_le_one
  · exact add_nonneg (entry_nonneg hw) (entry_nonneg hs)

theorem charges_nonneg {evs : List FEvent} (h : ∀ e ∈ evs, Income e) (id : PlayerId)
    (r : ResourceType) :
    0 ≤ charges evs id r := by
  induction evs with
  | nil => exact le_rfl
  | cons e evs ih =>
    rw [charges_cons, Pi.add_apply, Pi.add_apply]
    exact add_nonneg ((h e List.mem_cons_self).charge_nonneg id r)
      (ih fun e he => h e (List.mem_cons_of_mem _ he))

section Kept

variable {s s' : FState} {p : PlayerId} {payload : FrontierPayload} {evs : List FEvent}

theorem Effect.books (h : Effect s p payload evs s') :
    Books s.inventories s'.inventories (charges evs) := by
  cases h with
  | @turned q =>
    have hzero : charges [fEvent p (.turnEnded q)] = 0 := by simp [charge, fEvent]
    exact hzero ▸ .refl _
  | @wrapped q _ incomes _ _ _ hb =>
    have hsum : charges (fEvent p (.turnEnded q) ::
        { body := .scenario (.roundEnded s.rounds.round) } :: incomes) = charges incomes := by
      simp [charge, fEvent]
    exact hsum ▸ hb
  | claimed _ _ hb | sold _ hb | leapt _ hb | fortified _ _ hb | posted _ _ _ _ _ _ _ _ _ hb
  | accepted _ _ _ _ hb | cancelled _ _ hb =>
    rw [charges_cons, charges_nil, add_zero]
    exact hb

theorem Effect.frame (h : Effect s p payload evs s') :
    s'.map = s.map ∧ s'.players = s.players ∧ s'.status = s.status ∧ s'.history = s.history := by
  cases h <;> exact ⟨rfl, rfl, rfl, rfl⟩

theorem Effect.stocks (h : Effect s p payload evs s') (id : PlayerId) (r : ResourceType) :
    stock s' id r = stock s id r + charges evs id r := h.books.stock id r

/-- What changes hands: the player on turn spends wood and stone they have, the rest are gains. -/
theorem Effect.affordable (hs : Sound s) (h : Effect s p payload evs s') :
    ∃ (wood stone : ℚ) (gains : Stocks), wood ≤ stock s p "wood" ∧
      stone ≤ stock s p "stone" ∧ (∀ id r, 0 ≤ gains id r) ∧
      charges evs = entry p "wood" (-wood) + entry p "stone" (-stone) + gains := by
  have hw₀ := hs.nonneg p "wood"
  have hs₀ := hs.nonneg p "stone"
  cases h with
  | @claimed t tile die1 die2 =>
    refine ⟨0, 0, charge (claimedEvent p t tile die1 die2), hw₀, hs₀, fun id r => ?_, by simp⟩
    refine add_nonneg (entry_nonneg (add_nonneg (terrainVp_nonneg _) (bonusFor_nonneg _))) ?_
    cases terrainResource tile.terrain with
    | none => exact le_rfl
    | some r' => exact entry_nonneg zero_le_one
  | turned => exact ⟨0, 0, 0, hw₀, hs₀, fun _ _ => le_rfl, by simp [charge, fEvent]⟩
  | @wrapped q _ incomes _ _ hP =>
    exact ⟨0, 0, charges incomes, hw₀, hs₀, charges_nonneg hP, by simp [charge, fEvent]⟩
  | sold hw =>
    exact ⟨2, 0, entry p "vp" 1, hw, hs₀, fun _ _ => entry_nonneg zero_le_one,
      by simp [charge, fEvent, byPlayer]⟩
  | leapt hst =>
    exact ⟨0, 2, 0, hw₀, hst, fun _ _ => le_rfl, by simp [charge, fEvent, byPlayer]⟩
  | fortified hw hst =>
    exact ⟨2, 1, 0, hw, hst, fun _ _ => le_rfl, by simp [charge, fEvent, byPlayer]⟩
  | @posted o _ _ _ _ _ _ _ hw hst =>
    exact ⟨o.giveWood, o.giveStone, 0, hw, hst, fun _ _ => le_rfl,
      by simp [charge, fEvent, byPlayer]⟩
  | @accepted o _ hmem _ hw hst =>
    obtain ⟨hgw, hgs, hww, hws⟩ := hs.amounts o hmem
    exact ⟨o.wantWood, o.wantStone, (entry p "wood" o.giveWood + entry p "stone" o.giveStone) +
      (entry o.fromPlayerId "wood" o.wantWood + entry o.fromPlayerId "stone" o.wantStone), hw, hst,
      fun _ _ => add_nonneg (add_nonneg (entry_nonneg hgw) (entry_nonneg hgs))
        (add_nonneg (entry_nonneg hww) (entry_nonneg hws)),
      by simp [charge, fEvent, add_assoc]⟩
  | @cancelled o _ hmem =>
    obtain ⟨hgw, hgs, _, _⟩ := hs.amounts o hmem
    exact ⟨0, 0, entry p "wood" o.giveWood + entry p "stone" o.giveStone, hw₀, hs₀,
      fun _ _ => add_nonneg (entry_nonneg hgw) (entry_nonneg hgs), by
        simp [charge, fEvent, byPlayer]⟩

theorem Effect.nonneg (hs : Sound s) (h : Effect s p payload evs s') (id : PlayerId)
    (r : ResourceType) : 0 ≤ stock s' id r := by
  obtain ⟨wood, stone, gains, hw, hst, hgains, heq⟩ := h.affordable hs
  have h₀ := hs.nonneg id r
  have hg := hgains id r
  rw [h.stocks, heq]
  simp only [Pi.add_apply, Ledger.entry_apply]
  by_cases hid : id = p
  · subst hid
    by_cases hr : r = "wood"
    · subst hr
      simp
      linarith
    · by_cases hr' : r = "stone"
      · subst hr'
        simp
        linarith
      · simp only [hr, hr', and_false, if_false]
        linarith
  · simp only [hid, false_and, if_false]
    linarith

/-- Victory points are never spent. -/
theorem Effect.vp (hs : Sound s) (h : Effect s p payload evs s') (id : PlayerId) :
    stock s id "vp" ≤ stock s' id "vp" := by
  obtain ⟨wood, stone, gains, _, _, hgains, heq⟩ := h.affordable hs
  have hg := hgains id "vp"
  rw [h.stocks, heq]
  simpa [Ledger.entry_apply] using hg

theorem Effect.turn (hs : Sound s) (h : Effect s p payload evs s') :
    s'.rounds.turnOrder = .clockwise ∧
      s'.rounds.turn.activePlayer ∈ s'.players.bySeat.map Player.id := by
  have hend : ∀ {e : RoundManager.TurnEnd} {rounds : RoundManager},
      s.rounds.endTurn s.players.all "turn" = .ok (e, rounds) →
      rounds.turnOrder = .clockwise ∧
      rounds.turn.activePlayer ∈ s.players.bySeat.map Player.id := by
    intro e rounds he
    obtain ⟨pl, hpl, _⟩ := List.mem_map.mp hs.turn
    obtain ⟨q, hq, b, he'⟩ := RoundManager.endTurn_total hs.clockwise
      ⟨pl, hpl, hs.active pl hpl⟩ "turn"
    have he'' : s.rounds.endTurn s.players.all "turn" = _ := he'
    rw [he] at he''
    cases he''
    exact ⟨hs.clockwise, List.mem_map_of_mem hq⟩
  cases h with
  | turned he => exact hend he
  | wrapped he => exact hend he
  | _ => exact ⟨hs.clockwise, hs.turn⟩

theorem Effect.offers (h : Effect s p payload evs s') :
    s'.extras.tradeOffers = s.extras.tradeOffers ∨
      (∃ o, o.fromPlayerId = p ∧ (0 ≤ o.giveWood ∧ 0 ≤ o.giveStone ∧ 0 ≤ o.wantWood ∧
        0 ≤ o.wantStone) ∧
        s'.extras.tradeOffers = s.extras.tradeOffers ++ [o]) ∨
      ∃ o : TradeOffer, s'.extras.tradeOffers = s.extras.tradeOffers.filter fun o' =>
        o'.id ≠ o.id := by
  cases h with
  | @posted o _ _ hfrom hgw hgs hww hws => exact .inr (.inl ⟨o, hfrom, ⟨hgw, hgs, hww, hws⟩, rfl⟩)
  | @accepted o => exact .inr (.inr ⟨o, rfl⟩)
  | @cancelled o => exact .inr (.inr ⟨o, rfl⟩)
  | _ => exact .inl rfl

/-- Accepted actions keep what the executors rely on. -/
theorem Effect.sound (hs : Sound s) (hp : p ∈ s.players.bySeat.map Player.id)
    (h : Effect s p payload evs s') : Sound s' := by
  obtain ⟨_, hplayers, _, _⟩ := h.frame
  obtain ⟨hord, hturn⟩ := h.turn hs
  have hkeep : ∀ o ∈ s'.extras.tradeOffers, o.fromPlayerId ∈ s.players.bySeat.map Player.id ∧
      0 ≤ o.giveWood ∧ 0 ≤ o.giveStone ∧ 0 ≤ o.wantWood ∧ 0 ≤ o.wantStone := by
    intro o ho
    have hold : o ∈ s.extras.tradeOffers → o.fromPlayerId ∈ s.players.bySeat.map Player.id ∧ _ :=
      fun ho => ⟨hs.traders o ho, hs.amounts o ho⟩
    rcases h.offers with heq | ⟨o', hfrom, hpos, heq⟩ | ⟨o', heq⟩ <;> rw [heq] at ho
    · exact hold ho
    · rcases List.mem_append.mp ho with ho | ho
      · exact hold ho
      · rw [List.mem_singleton.mp ho, hfrom]
        exact ⟨hp, hpos⟩
    · exact hold (List.mem_of_mem_filter ho)
  exact
    { purses := fun pl hpl => by rw [h.books.keys]; exact hs.purses pl (hplayers ▸ hpl)
      active := fun pl hpl => hs.active pl (hplayers ▸ hpl)
      turn := hturn
      clockwise := hord
      nonneg := h.nonneg hs
      traders := fun o ho => hplayers ▸ (hkeep o ho).1
      amounts := fun o ho => (hkeep o ho).2 }

end Kept

/-! ## Runs -/

theorem sound_frame {s : FState} (hs : Sound s) (status : GamePhaseStatus)
    (history : List (ActionHistoryEntry FrontierPayload FrontierEvent)) :
    Sound { s with status, history } := { hs with }

/-- An accepted action is the active player's, and has its effect. -/
def ActedOn (s : FState) (a : FAction) (evs : List FEvent) (s' : FState) : Prop :=
  a.playerId = some s.rounds.turn.activePlayer ∧ s.rounds.turn.activePlayer ≠ "" ∧
    Effect s s.rounds.turn.activePlayer a.payload evs s'

theorem acted_on {s : FState} (hs : Sound s) {a : FAction}
    (hv : frontierScenario.validate s a = .ok ()) :
    ∃ evs s', (frontierScenario.execute a).run s = .ok evs s' ∧ ActedOn s a evs s' := by
  obtain ⟨hact, hne, evs, s', hx, heff⟩ := accepted_effect hs hv
  exact ⟨evs, s', hx, hact, hne, heff⟩

/-- The rule for invariants of Frontier runs: they hold at the start and every effect keeps them. -/
theorem frontier_inv {I : FState → Prop}
    (frame : ∀ s status history, I s → I { s with status, history })
    (keep : ∀ s payload evs s', Sound s → I s →
      Effect s s.rounds.turn.activePlayer payload evs s' → I s')
    {opts : GameSetupOptions} (init : ∀ s, Fresh opts s → I s) {calls : List FCall} {g : FGame}
    (h : Game.RunFrom frontierScenario opts calls g) : Sound g.state ∧ I g.state := by
  obtain ⟨s, hs, htr⟩ := h
  have hf := fresh_state hs
  refine Game.state_inv no_rules (I := fun s => Sound s ∧ I s)
    (fun s st hi hI => ⟨sound_frame hI.1 st hi, frame s st hi hI.2⟩) ?_ htr
    ⟨fresh_sound hf, init s hf⟩
  rintro s a ⟨hs, hI⟩ hv
  obtain ⟨evs, s', hx, _, _, heff⟩ := acted_on hs hv
  exact ⟨evs, s', hx, heff.sound hs hs.turn, keep s a.payload evs s' hs hI heff⟩

theorem sound_reachable {opts : GameSetupOptions} {calls : List FCall} {g : FGame}
    (h : Game.RunFrom frontierScenario opts calls g) : Sound g.state :=
  (frontier_inv (I := fun _ => True) (fun _ _ _ _ => trivial) (fun _ _ _ _ _ _ _ => trivial)
    (fun _ _ => trivial) h).1

theorem move_of_step {g g' : FGame} {c : FCall} (hs : Sound g.state)
    (h : Game.Step frontierScenario g c g') : Game.Move frontierScenario ActedOn g c g' :=
  h.move no_rules fun _ hv => acted_on hs hv

end Boardgame.Frontier
