import Mathlib.Algebra.Ring.Subring.Basic
import Boardgame.Frontier.Escrow
import Boardgame.Lib.Keeps

/-!
# Frontier.Whole

Whole amounts. Every amount of a Frontier game is a whole unit, but for the quantities of an offer,
which the client sends and `postOfferValidator` only compares.

* `execute_integral`: an executor keeps the amounts integers, unless it posts others.
* `stays_whole_iff`: all amounts of a run stay natural numbers exactly if those of every accepted
  offer are.
-/

namespace Boardgame.Frontier

/-! ## Whole states -/

/-- The quantities of the offer are natural numbers. -/
def TradeOffer.Whole (o : TradeOffer) : Prop :=
  (∃ n : ℕ, o.giveWood = n) ∧ (∃ n : ℕ, o.giveStone = n) ∧ (∃ n : ℕ, o.wantWood = n) ∧
  ∃ n : ℕ, o.wantStone = n

structure Whole (s : FState) : Prop where
  inventories : ∀ id inv, s.inventories.get? id = some inv → inv.Whole
  offers : ∀ o ∈ s.extras.tradeOffers, o.Whole

/-- An action that posts an offer posts one with integers. -/
def PostsIntegers : FrontierPayload → Prop
  | .postOffer giveWood giveStone wantWood wantStone =>
    giveWood.isInt = true ∧ giveStone.isInt = true ∧ wantWood.isInt = true ∧ wantStone.isInt = true
  | _ => True

/-! ## Integers -/

/-- The integers among the numbers. -/
def integers : Subring ℚ := (Int.castRingHom ℚ).range

theorem isInt_iff {q : ℚ} : q.isInt = true ↔ q ∈ integers := by
  rw [Rat.isInt, beq_iff_eq]
  constructor
  · exact fun h => ⟨q.num, Rat.den_eq_one_iff q |>.mp h⟩
  · rintro ⟨n, rfl⟩
    exact Rat.den_intCast n

theorem whole_of_integer {q : ℚ} (h : q ∈ integers) (hq : 0 ≤ q) : ∃ n : ℕ, q = n := by
  obtain ⟨n, rfl⟩ := h
  have hn : (0 : ℤ) ≤ n := by simpa using hq
  obtain ⟨k, rfl⟩ := Int.eq_ofNat_of_zero_le hn
  exact ⟨k, by simp⟩

theorem integer_of_whole {q : ℚ} (h : ∃ n : ℕ, q = n) : q ∈ integers := by
  obtain ⟨n, rfl⟩ := h
  exact natCast_mem integers n

def TradeOffer.Integral (o : TradeOffer) : Prop :=
  o.giveWood ∈ integers ∧ o.giveStone ∈ integers ∧ o.wantWood ∈ integers ∧ o.wantStone ∈ integers

/-- `Whole`, but for the signs. -/
structure Integral (s : FState) : Prop where
  inventories : ∀ id inv, s.inventories.get? id = some inv → ∀ r, inv.get r ∈ integers
  offers : ∀ o ∈ s.extras.tradeOffers, o.Integral

theorem Integral.congr {s s' : FState} (hs : Integral s) (hinv : s'.inventories = s.inventories)
    (hoffers : s'.extras.tradeOffers = s.extras.tradeOffers) : Integral s' :=
  ⟨by rw [hinv]; exact hs.inventories, by rw [hoffers]; exact hs.offers⟩

theorem Integral.setInventory {s : FState} (hs : Integral s) {inv : Inventory}
    (hinv : ∀ r, inv.get r ∈ integers) (id : PlayerId) : Integral (s.setInventory id inv) := by
  refine ⟨fun id' inv' h => ?_, hs.offers⟩
  rw [GameState.setInventory_get?] at h
  split at h
  · cases h
    exact hinv
  · exact hs.inventories id' inv' h

/-! ## Executors -/

section Executors

open Eff (Keeps)

variable {id p : PlayerId} {r : ResourceType} {q : ℚ}

theorem inventoryOf_keeps :
    Keeps Integral (fun inv => ∀ r, inv.get r ∈ integers) (inventoryOf id : FExec Inventory) := by
  refine .get fun s hs => ?_
  cases h : s.inventories.get? id with
  | none => exact .throw _
  | some inv => exact .pure (hs.inventories id inv h)

theorem put_integral {inv : Inventory} (hinv : ∀ r, inv.get r ∈ integers) (hq : q ∈ integers) :
    ∀ r', (inv.put r q).get r' ∈ integers := by
  intro r'
  rw [Inventory.get_put]
  split
  · exact hq
  · exact hinv r'

theorem addTo_keeps (hq : q ∈ integers) :
    Keeps Integral (fun _ => True) (addTo id r q : FExec Unit) := by
  refine .bind inventoryOf_keeps fun inv hinv => ?_
  refine .bind (Q := fun inv => ∀ r, inv.get r ∈ integers) (.liftExcept fun inv' h => ?_)
    fun inv' hinv' =>
    .modify fun s hs => hs.setInventory hinv' id
  unfold Inventory.add at h
  split at h
  · cases h
  · cases h
    exact put_integral hinv (add_mem (hinv r) hq)

theorem removeFrom_keeps (hq : q ∈ integers) :
    Keeps Integral (fun _ => True) (removeFrom id r q : FExec Unit) := by
  refine .bind inventoryOf_keeps fun inv hinv => ?_
  refine .bind (Q := fun inv => ∀ r, inv.get r ∈ integers) (.liftExcept fun inv' h => ?_)
    fun inv' hinv' =>
    .modify fun s hs => hs.setInventory hinv' id
  unfold Inventory.remove at h
  split_ifs at h
  cases h
  exact put_integral hinv (sub_mem (hinv r) hq)

theorem rollDie_keeps : Keeps Integral (fun _ => True) rollDie := by
  refine .get fun s hs => .bind (.liftExcept fun _ _ => trivial) fun e _ => ?_
  exact .seq (.set (hs.congr rfl rfl)) (.pure trivial)

theorem addResource_keeps (resource : Option String) :
    Keeps Integral (fun _ => True) (addResource p resource) := by
  cases resource with
  | none => exact .pure trivial
  | some r => exact addTo_keeps (one_mem integers)

theorem terrainVp_integer (terrain : String) : terrainVp terrain ∈ integers := by
  unfold terrainVp
  split
  · exact one_mem integers
  · exact ofNat_mem integers 2
  · exact ofNat_mem integers 3
  · exact one_mem integers

theorem bonusFor_integer (diceRoll : Int) : bonusFor diceRoll ∈ integers := by
  unfold bonusFor
  split_ifs
  · exact ofNat_mem integers 2
  · exact one_mem integers
  · exact zero_mem integers

theorem claim_keeps {t : TileId} : Keeps Integral (fun _ => True) (claimTileExecutor p t) := by
  refine .get fun s _ => ?_
  cases s.map.tileById t with
  | none => exact .throw _
  | some tile =>
    refine .bind rollDie_keeps fun die1 _ => .bind rollDie_keeps fun die2 _ => ?_
    refine .seq (addTo_keeps (add_mem (terrainVp_integer _) (bonusFor_integer _))) ?_
    refine .seq (addResource_keeps _) ?_
    refine .seq (.modify fun s hs => hs.congr rfl rfl) ?_
    refine .seq (.modify fun s hs => hs.congr rfl rfl) ?_
    exact .seq (.modify fun s hs => hs.congr rfl rfl) (.pure trivial)

theorem fortIncome_keeps (forts : OrderedMap TileId PlayerId) :
    Keeps Integral (fun _ => True) (fortIncome forts) := by
  refine .collect _ fun fort _ => .get fun s _ => ?_
  cases s.inventories.get? fort.2 with
  | none => exact .pure trivial
  | some _ => exact .seq (addTo_keeps (one_mem integers)) (.pure trivial)

theorem payTileIncome_keeps {incomes : OrderedMap PlayerId TileIncome}
    (h : ∀ e ∈ incomes.entries, e.2.wood ∈ integers ∧ e.2.stone ∈ integers) :
    Keeps Integral (fun _ => True) (payTileIncome incomes) := by
  refine .collect _ fun income hmem => .get fun s _ => ?_
  obtain ⟨hwood, hstone⟩ := h income hmem
  cases s.inventories.get? income.1 with
  | none => exact .pure trivial
  | some _ =>
    exact .seq (.when (addTo_keeps hwood)) (.seq (.when (addTo_keeps hstone)) (.pure trivial))

theorem endRound_keeps (n : Nat) : Keeps Integral (fun _ => True) (endRound n) := by
  refine .get fun s _ => .bind (fortIncome_keeps _) fun forts _ => .get fun s' _ => ?_
  refine .bind (payTileIncome_keeps ?_) fun incomes _ => .pure trivial
  exact tileIncomes_of (P := (· ∈ integers)) (zero_mem integers)
    (fun q hq => add_mem hq (one_mem integers)) s'

theorem endTurn_keeps : Keeps Integral (fun _ => True) (endTurnExecutor p) := by
  refine .get fun s hs => .bind (.liftExcept fun _ _ => trivial) fun turn _ => ?_
  refine .seq (.set (hs.congr rfl rfl)) ?_
  split
  · exact .bind (endRound_keeps _) fun incomes _ => .pure trivial
  · exact .pure trivial

theorem trade_keeps : Keeps Integral (fun _ => True) (tradeExecutor p r) := by
  refine .seq (removeFrom_keeps (ofNat_mem integers 2)) ?_
  split
  · exact .seq (addTo_keeps (one_mem integers)) (.pure trivial)
  · exact .seq (.modify fun s hs => hs.congr rfl rfl) (.pure trivial)

theorem fortify_keeps {t : TileId} : Keeps Integral (fun _ => True) (fortifyExecutor p t) := by
  refine .seq (removeFrom_keeps (ofNat_mem integers 2)) ?_
  refine .seq (removeFrom_keeps (one_mem integers)) ?_
  exact .seq (.modify fun s hs => hs.congr rfl rfl) (.pure trivial)

theorem post_keeps {gw gs ww ws : ℚ}
    (h : gw ∈ integers ∧ gs ∈ integers ∧ ww ∈ integers ∧ ws ∈ integers) :
    Keeps Integral (fun _ => True) (postOfferExecutor p gw gs ww ws) := by
  refine .seq (.when (removeFrom_keeps h.1)) (.seq (.when (removeFrom_keeps h.2.1)) ?_)
  refine .get fun s _ => .seq (.modify fun s hs => ⟨hs.inventories, fun o ho => ?_⟩) (.pure trivial)
  rcases List.mem_append.mp ho with ho | ho
  · exact hs.offers o ho
  · rw [List.mem_singleton.mp ho]
    exact h

theorem offerAt_keeps (offerId : String) :
    Keeps Integral TradeOffer.Integral (offerAt offerId) := by
  refine .get fun s hs => ?_
  cases h : findOffer s offerId with
  | none => exact .throw _
  | some o => exact .pure (hs.offers o (findOffer_some h).1)

theorem dropOffer_keeps (o : TradeOffer) : Keeps Integral (fun _ => True) (dropOffer o) :=
  .modify fun _ hs => ⟨hs.inventories, fun o' ho' => hs.offers o' (List.mem_of_mem_filter ho')⟩

theorem accept_keeps (offerId : String) :
    Keeps Integral (fun _ => True) (acceptOfferExecutor p offerId) := by
  refine .bind (offerAt_keeps offerId) fun o ho => ?_
  obtain ⟨hgw, hgs, hww, hws⟩ := ho
  refine .seq (.when (removeFrom_keeps hww)) (.seq (.when (removeFrom_keeps hws)) ?_)
  refine .seq (.when (addTo_keeps hgw)) (.seq (.when (addTo_keeps hgs)) ?_)
  refine .seq (.when (addTo_keeps hww)) (.seq (.when (addTo_keeps hws)) ?_)
  exact .seq (dropOffer_keeps o) (.pure trivial)

theorem cancel_keeps (offerId : String) :
    Keeps Integral (fun _ => True) (cancelOfferExecutor p offerId) := by
  refine .bind (offerAt_keeps offerId) fun o ho => ?_
  refine .seq (.when (addTo_keeps ho.1)) (.seq (.when (addTo_keeps ho.2.1)) ?_)
  exact .seq (dropOffer_keeps o) (.pure trivial)

/-- An executor keeps the amounts integers, unless it posts others. -/
theorem execute_integral {a : FAction} (h : PostsIntegers a.payload) :
    Keeps Integral (fun _ => True) (frontierScenario.execute a) := by
  rw [execute_eq]
  cases hp : a.payload with
  | claimTile t => exact claim_keeps
  | endTurn => exact endTurn_keeps
  | trade r => exact trade_keeps
  | fortify t => exact fortify_keeps
  | postOffer gw gs ww ws =>
    rw [hp] at h
    exact post_keeps ⟨isInt_iff.mp h.1, isInt_iff.mp h.2.1, isInt_iff.mp h.2.2.1,
      isInt_iff.mp h.2.2.2⟩
  | acceptOffer o => exact accept_keeps o
  | cancelOffer o => exact cancel_keeps o
  | unregistered t => exact .throw _

theorem placeHome_keeps (player : Player) (coord : AxialCoord) :
    Keeps Integral (fun _ => True) (placeHome player coord) := by
  refine .get fun s _ => ?_
  cases s.map.tileById (tileId coord) with
  | none => exact .pure trivial
  | some tile =>
    refine .seq (.modify fun s hs => hs.congr rfl rfl) (.get fun s' _ => ?_)
    have hhome : Keeps Integral (fun _ => True) (modify (setExtras fun x =>
        { x with homeTiles := x.homeTiles.set player.id (tileId coord) }) : FExec PUnit) :=
      .modify fun s hs => hs.congr rfl rfl
    cases s'.inventories.get? player.id with
    | none => exact hhome
    | some _ => exact .seq (addTo_keeps (terrainVp_integer _)) hhome

end Executors

/-! ## Runs -/

theorem fresh_integral {opts : GameSetupOptions} {s : FState}
    (h : createGameState frontierScenario opts = .ok s) :
    Integral s := by
  obtain ⟨-, rounds, -, hset⟩ := createGameState_ok h
  have hempty := (starting_inventories opts.players).2
  have hstart : Integral (freshState frontierScenario opts rounds) := by
    refine ⟨fun id inv hinv r => ?_, by simp [freshState, frontierScenario]⟩
    rw [hempty id inv hinv]
    exact zero_mem integers
  exact (Eff.Keeps.each _ (fun e _ => placeHome_keeps e.1 e.2) _ _ _ hstart hset).1

theorem whole_iff_integral {s : FState} (hs : Sound s) : Whole s ↔ Integral s := by
  constructor
  · intro hw
    refine ⟨fun id inv h r => integer_of_whole (hw.inventories id inv h r), fun o ho => ?_⟩
    obtain ⟨hgw, hgs, hww, hws⟩ := hw.offers o ho
    exact ⟨integer_of_whole hgw, integer_of_whole hgs, integer_of_whole hww, integer_of_whole hws⟩
  · intro hi
    refine ⟨fun id inv h r => whole_of_integer (hi.inventories id inv h r) ?_, fun o ho => ?_⟩
    · have hpos := hs.nonneg id r
      rwa [stock, h] at hpos
    · obtain ⟨hgw, hgs, hww, hws⟩ := hi.offers o ho
      obtain ⟨pgw, pgs, pww, pws⟩ := hs.amounts o ho
      exact ⟨whole_of_integer hgw pgw, whole_of_integer hgs pgs, whole_of_integer hww pww,
        whole_of_integer hws pws⟩

/-- A posted offer is open. -/
theorem Effect.posts {s s' : FState} {p : PlayerId} {evs : List FEvent} {gw gs ww ws : ℚ}
    (h : Effect s p (.postOffer gw gs ww ws) evs s') :
    ∃ o ∈ s'.extras.tradeOffers, o.giveWood = gw ∧ o.giveStone = gs ∧ o.wantWood = ww ∧
      o.wantStone = ws := by
  cases h with
  | @posted o => exact ⟨o, List.mem_append_right _ (List.mem_singleton_self o), rfl, rfl, rfl, rfl⟩

/-- The state before an accepted action, and what its executor makes of it. -/
def Ran (s : FState) (a : FAction) (evs : List FEvent) (s' : FState) : Prop :=
  (frontierScenario.execute a).run s = .ok evs s' ∧ ActedOn s a evs s'

theorem whole_step {g g' : FGame} {c : FCall} (hs : Sound g.state)
    (h : Game.Step frontierScenario g c g') (hw : Whole g.state) :
    Whole g'.state ↔ ∀ a, Accepted ⟨g, c, g'⟩ a → PostsIntegers a.payload := by
  have hmove : Game.Move frontierScenario Ran g c g' := h.move no_rules fun a hv => by
    obtain ⟨evs, s', hx, hacted⟩ := acted_on hs hv
    exact ⟨evs, s', hx, hx, hacted⟩
  cases hmove with
  | idle hno hstate =>
    refine iff_of_true ⟨by rw [hstate]; exact hw.inventories, by rw [hstate]; exact hw.offers⟩ ?_
    rintro a ⟨⟨result, hl⟩, hacc⟩
    cases hacc.symm.trans (hno a result hl)
  | @acted a r _ evs s' status history _ hacc hran hstate =>
    obtain ⟨hx, -, -, heff⟩ := hran
    have hafter : Whole g'.state ↔ Whole s' := by
      rw [hstate]
      exact ⟨fun h => ⟨h.inventories, h.offers⟩, fun h => ⟨h.inventories, h.offers⟩⟩
    rw [hafter]
    constructor
    · rintro hw' a' ⟨⟨result, hl⟩, -⟩
      cases hl
      cases hp : a.payload with
      | postOffer gw gs ww ws =>
        rw [hp] at heff
        obtain ⟨o, ho, rfl, rfl, rfl, rfl⟩ := heff.posts
        obtain ⟨hgw, hgs, hww, hws⟩ := hw'.offers o ho
        exact ⟨isInt_iff.mpr (integer_of_whole hgw), isInt_iff.mpr (integer_of_whole hgs),
          isInt_iff.mpr (integer_of_whole hww), isInt_iff.mpr (integer_of_whole hws)⟩
      | _ => trivial
    · intro hposts
      rw [whole_iff_integral (heff.sound hs hs.turn)]
      exact (execute_integral (hposts a ⟨⟨r, rfl⟩, hacc⟩) _ _ _ ((whole_iff_integral hs).mp hw)
        hx).1

/-- All amounts are whole in every state of a run exactly if every accepted offer has integers. -/
theorem stays_whole_iff {opts : GameSetupOptions} {s : FState}
    (hs : createGameState frontierScenario opts = .ok s) {rs : List FRecord} {g : FGame}
    (h : Trace (Recorded (Game.Step frontierScenario)) (Game.new s) rs g) :
    (Whole s ∧ ∀ r ∈ rs, Whole r.after.state) ↔ ∀ r ∈ rs, ∀ a, Accepted r a →
    PostsIntegers a.payload := by
  have hf := fresh_state hs
  have hw : Whole s := (whole_iff_integral (fresh_sound hf)).mpr (fresh_integral hs)
  have hrun := Recorded.forall_iff (I := fun g => Whole g.state) (J := Good)
    (fun _ _ _ hg hstep => good_step hg hstep) (fun r hg hstep hw => whole_step hg.sound hstep hw) h
    (good_fresh hf) hw
  exact ⟨fun hall => hrun.mp hall.2, fun hall => ⟨hw, hrun.mpr hall⟩⟩

/-! ## Half a log -/

/-- `p1` claims a forest and offers half of its wood. -/
def halfOffer : List (Game.Request FrontierPayload) :=
  [.start, request "p1" (.claimTile "2,-1"), request "p1" (.postOffer (1 / 2) 0 0 (1 / 2))]

theorem halfOffer_whole_iff : ∃ r, Game.play frontierScenario pair halfOffer = .ok r ∧
    ∃ s rs, createGameState frontierScenario pair = .ok s ∧
      Trace (Recorded (Game.Step frontierScenario)) (Game.new s) rs r.2 ∧ rs.length = 3 ∧
      ((Whole s ∧ ∀ r ∈ rs, Whole r.after.state) ↔ ∀ r ∈ rs, ∀ a, Accepted r a →
        PostsIntegers a.payload) := by
  have hobserved : (Game.play frontierScenario pair halfOffer).toOption.map (fun r => r.1.length) =
      some 3 := by
    decide +kernel
  obtain ⟨r, hr, ⟨s, hs, htr⟩, hlength⟩ := Game.play_observed hobserved
  obtain ⟨rs, hlabels, hrs⟩ := Recorded.of_trace htr
  exact ⟨r, hr, s, rs, hs, hrs, by rw [← hlength, ← hlabels, List.length_map],
    stays_whole_iff hs hrs⟩

/-- The wood of `p1` and the offer are halves. -/
theorem halfOffer_not_whole : ∃ r, Game.play frontierScenario pair halfOffer = .ok r ∧
    Game.RunFrom frontierScenario pair r.1 r.2 ∧ stock r.2.state "p1" "wood" = 1 / 2 ∧
    (∃ o ∈ r.2.state.extras.tradeOffers, o.giveWood = 1 / 2) ∧ ¬ Whole r.2.state := by
  have hobserved : (Game.play frontierScenario pair halfOffer).toOption.map (fun r =>
      (stock r.2.state "p1" "wood", r.2.state.extras.tradeOffers)) =
        some (1 / 2, [⟨"1", "p1", 1 / 2, 0, 0, 1 / 2⟩]) := by decide +kernel
  obtain ⟨r, hr, hrun, hx⟩ := Game.play_observed hobserved
  obtain ⟨hwood, hoffers⟩ := Prod.mk.inj hx
  have hopen : (⟨"1", "p1", 1 / 2, 0, 0, 1 / 2⟩ : TradeOffer) ∈ r.2.state.extras.tradeOffers := by
    rw [hoffers]
    exact List.mem_cons_self
  refine ⟨r, hr, hrun, hwood, ⟨_, hopen, rfl⟩, fun hw => ?_⟩
  have hint := isInt_iff.mpr (integer_of_whole (hw.offers _ hopen).1)
  exact absurd hint (by decide +kernel)

end Boardgame.Frontier
