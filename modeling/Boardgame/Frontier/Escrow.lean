import Boardgame.Frontier.Victory

/-!
# Frontier.Escrow

The trade offers of a Frontier run. What an offer gives is taken from the poster's stock when it is
posted, stays in reserve while the offer is open, and is paid out when the offer is closed.

* `Effect.conserved`: a post, an accept and a cancel keep the sum of stocks and reserves.
* `OfferBook`: every offer ever posted is open or closed, under an id of its own.
* `escrow_iff`: all of it over runs. The one thing that can go wrong is an accepted action that
  throws, and that happens exactly after the game has ended.
-/

namespace Boardgame.Frontier

open Ledger (entry)
open Game (newEvents)

/-! ## Reserves -/

namespace TradeOffer

def gives (o : TradeOffer) (r : ResourceType) : ℚ :=
  (if r = "wood" then o.giveWood else 0) + if r = "stone" then o.giveStone else 0

def wants (o : TradeOffer) (r : ResourceType) : ℚ :=
  (if r = "wood" then o.wantWood else 0) + if r = "stone" then o.wantStone else 0

end TradeOffer

/-- What the open offers hold back. -/
def reserved (s : FState) (r : ResourceType) : ℚ := (s.extras.tradeOffers.map (·.gives r)).sum

/-- Items under distinct keys: the one of them, and those under other keys. -/
theorem perm_cons_filter {α β : Type} [DecidableEq β] (f : α → β) {as : List α}
    (hnd : (as.map f).Nodup) {a : α} (ha : a ∈ as) :
    as.Perm (a :: as.filter fun b => f b ≠ f a) := by
  induction as with
  | nil => cases ha
  | cons b bs ih =>
    rw [List.map_cons, List.nodup_cons] at hnd
    rcases List.mem_cons.mp ha with rfl | ha
    · have hkeep : bs.filter (fun b => f b ≠ f a) = bs :=
        List.filter_eq_self.mpr fun b hb => by
          simpa using fun h : f b = f a => hnd.1 (h ▸ List.mem_map_of_mem hb)
      rw [List.filter_cons_of_neg (by simp), hkeep]
    · have hne : f b ≠ f a := fun h => hnd.1 (h ▸ List.mem_map_of_mem ha)
      rw [List.filter_cons_of_pos (by simpa using hne)]
      exact ((ih hnd.2 ha).cons b).trans (.swap a b _)

section Conservation

variable {s s' : FState} {p : PlayerId} {payload : FrontierPayload} {evs : List FEvent}

/-- The three actions on offers. -/
def OnOffers : FrontierPayload → Prop
  | .postOffer .. => True
  | .acceptOffer .. => True
  | .cancelOffer .. => True
  | _ => False

theorem total_pair {keys : List PlayerId} (hnd : keys.Nodup) {id : PlayerId} (hid : id ∈ keys)
    (wood stone : ℚ) (r : ResourceType) :
    Ledger.total keys (entry id "wood" wood + entry id "stone" stone) r =
      (if r = "wood" then wood else 0) + if r = "stone" then stone else 0 := by
  rw [Ledger.total_add, Ledger.total_entry hnd hid, Ledger.total_entry hnd hid]

theorem inStock_effect (h : Effect s p payload evs s') (r : ResourceType) :
    inStock s' r = inStock s r + Ledger.total s.inventories.keys (charges evs) r := h.books.total r

/-- What a closing offer gave leaves the reserve. -/
theorem reserved_close {o : TradeOffer} {os : List TradeOffer} (hnd : (os.map TradeOffer.id).Nodup)
    (ho : o ∈ os) (r : ResourceType) :
    (os.map (·.gives r)).sum = o.gives r +
      ((os.filter fun o' => o'.id ≠ o.id).map (·.gives r)).sum := by
  have := ((perm_cons_filter TradeOffer.id hnd ho).map (·.gives r)).sum_eq
  simpa using this

/-- Posting, accepting and cancelling keep the sum of stocks and reserves. -/
theorem Effect.conserved (hs : Sound s) (hp : p ∈ s.players.bySeat.map Player.id)
    (hnd : (s.extras.tradeOffers.map TradeOffer.id).Nodup) (h : Effect s p payload evs s')
    (ho : OnOffers payload) (r : ResourceType) :
    inStock s' r + reserved s' r = inStock s r + reserved s r := by
  have hkeys := s.inventories.nodup_keys
  have hkey := hs.key hp
  rw [inStock_effect h]
  cases h with
  | @posted o =>
    have hres : reserved s r + o.gives r =
        ((s.extras.tradeOffers ++ [o]).map (·.gives r)).sum := by simp [reserved]
    have htotal := total_pair hkeys hkey (-o.giveWood) (-o.giveStone) r
    have hcharge : charges [fEvent p (.postOffer o)] =
        entry p "wood" (-o.giveWood) + entry p "stone" (-o.giveStone) := by
      simp [charge, fEvent, byPlayer]
    rw [hcharge, htotal]
    show _ + ((s.extras.tradeOffers ++ [o]).map (·.gives r)).sum = _
    rw [← hres, TradeOffer.gives]
    split_ifs <;> ring
  | @accepted o _ hmem =>
    have hfrom := hs.key (hs.traders o hmem)
    have hcharge : charges [fEvent p (.acceptOffer o.id o p)] =
        (entry p "wood" (-o.wantWood) + entry p "stone" (-o.wantStone)) +
          (entry p "wood" o.giveWood + entry p "stone" o.giveStone) +
          (entry o.fromPlayerId "wood" o.wantWood + entry o.fromPlayerId "stone" o.wantStone) := by
      simp [charge, fEvent]
    rw [hcharge, Ledger.total_add, Ledger.total_add, total_pair hkeys hkey, total_pair hkeys hkey,
      total_pair hkeys hfrom, reserved, reserved, reserved_close hnd hmem]
    show _ + ((s.extras.tradeOffers.filter fun o' => o'.id ≠ o.id).map (·.gives r)).sum = _
    rw [TradeOffer.gives]
    split_ifs <;> ring
  | @cancelled o _ hmem =>
    have hcharge : charges [fEvent p (.cancelOffer o.id o)] =
        entry p "wood" o.giveWood + entry p "stone" o.giveStone := by
      simp [charge, fEvent, byPlayer]
    rw [hcharge, total_pair hkeys hkey, reserved, reserved, reserved_close hnd hmem]
    show _ + ((s.extras.tradeOffers.filter fun o' => o'.id ≠ o.id).map (·.gives r)).sum = _
    rw [TradeOffer.gives]
    split_ifs <;> ring
  | _ => exact ho.elim

end Conservation

/-! ## The book of offers -/

def posted? (e : FEvent) : Option TradeOffer :=
  match e.body with
  | .scenario (.postOffer o) => some o
  | _ => none

def closed? (e : FEvent) : Option TradeOffer :=
  match e.body with
  | .scenario (.acceptOffer _ o _) => some o
  | .scenario (.cancelOffer _ o) => some o
  | _ => none

/-- Every offer posted in a game, and every offer accepted or cancelled, in order. -/
def posted (g : FGame) : List TradeOffer := g.events.emitted.filterMap posted?

def closed (g : FGame) : List TradeOffer := g.events.emitted.filterMap closed?

/-- The offers `ps` have been posted, the offers `cs` closed, and the rest are open. -/
structure OfferBook (ps cs : List TradeOffer) (s : FState) : Prop where
  balanced : ps.Perm (s.extras.tradeOffers ++ cs)
  numbered : ∀ o ∈ ps, ∃ n ≤ s.extras.nextOfferId, o.id = toString n
  distinct : (ps.map TradeOffer.id).Nodup
  few : ∀ p, (s.extras.tradeOffers.filter fun o => o.fromPlayerId = p).length ≤ 3

theorem Income.no_offer {e : FEvent} (h : Income e) : posted? e = none ∧ closed? e = none := by
  obtain ⟨_, _, ⟨t, hb⟩ | ⟨wood, stone, _, _, hb⟩⟩ := h <;> simp [posted?, closed?, hb]

theorem incomes_no_offers {evs : List FEvent} (h : ∀ e ∈ evs, Income e) :
    evs.filterMap posted? = [] ∧ evs.filterMap closed? = [] :=
  ⟨List.filterMap_eq_nil_iff.mpr fun e he => (h e he).no_offer.1,
    List.filterMap_eq_nil_iff.mpr fun e he => (h e he).no_offer.2⟩

namespace OfferBook

variable {s s' : FState} {p : PlayerId} {payload : FrontierPayload} {evs : List FEvent}
  {ps cs : List TradeOffer}

theorem open_distinct (h : OfferBook ps cs s) : (s.extras.tradeOffers.map TradeOffer.id).Nodup := by
  have hnd := (h.balanced.map TradeOffer.id).nodup_iff.mp h.distinct
  rw [List.map_append] at hnd
  exact hnd.sublist (List.sublist_append_left _ _)

/-- The next number is not taken. -/
theorem post (h : OfferBook ps cs s) {o : TradeOffer}
    (hid : o.id = toString (s.extras.nextOfferId + 1))
    (hfew : (s.extras.tradeOffers.filter fun o' => o'.fromPlayerId = o.fromPlayerId).length < 3)
    (hoffers : s'.extras.tradeOffers = s.extras.tradeOffers ++ [o])
    (hnext : s'.extras.nextOfferId = s.extras.nextOfferId + 1) : OfferBook (ps ++ [o]) cs s' where
  balanced := by
    rw [hoffers]
    refine (h.balanced.append_right [o]).trans ?_
    rw [List.append_assoc, List.append_assoc]
    exact List.perm_append_comm.append_left _
  numbered o' ho' := by
    rw [hnext]
    rcases List.mem_append.mp ho' with ho' | ho'
    · obtain ⟨n, hn, hid'⟩ := h.numbered o' ho'
      exact ⟨n, by omega, hid'⟩
    · rw [List.mem_singleton.mp ho']
      exact ⟨_, le_rfl, hid⟩
  distinct := by
    rw [List.map_append, List.nodup_append]
    refine ⟨h.distinct, List.nodup_singleton _, fun a ha b hb => ?_⟩
    obtain ⟨o', ho', rfl⟩ := List.mem_map.mp ha
    obtain ⟨n, hn, hid'⟩ := h.numbered o' ho'
    rw [List.map_singleton, List.mem_singleton] at hb
    rw [hb, hid, hid']
    intro heq
    have := counter_inj heq
    omega
  few q := by
    rw [hoffers, List.filter_append, List.length_append]
    have hq := h.few q
    by_cases hfrom : o.fromPlayerId = q
    · subst hfrom
      simp
      omega
    · simpa [hfrom] using hq

theorem close (h : OfferBook ps cs s) {o : TradeOffer} (ho : o ∈ s.extras.tradeOffers)
    (hoffers : s'.extras.tradeOffers = s.extras.tradeOffers.filter fun o' => o'.id ≠ o.id)
    (hnext : s'.extras.nextOfferId = s.extras.nextOfferId) : OfferBook ps (cs ++ [o]) s' where
  balanced := by
    rw [hoffers]
    refine h.balanced.trans
      (((perm_cons_filter TradeOffer.id h.open_distinct ho).append_right cs).trans ?_)
    rw [← List.append_assoc]
    exact (List.perm_append_singleton o _).symm
  numbered := by rw [hnext]; exact h.numbered
  distinct := h.distinct
  few q := by
    rw [hoffers]
    exact (((List.filter_sublist).filter _).length_le).trans (h.few q)

theorem same (h : OfferBook ps cs s) (hoffers : s'.extras.tradeOffers = s.extras.tradeOffers)
    (hnext : s'.extras.nextOfferId = s.extras.nextOfferId) : OfferBook ps cs s' where
  balanced := hoffers ▸ h.balanced
  numbered := by rw [hnext]; exact h.numbered
  distinct := h.distinct
  few := hoffers ▸ h.few

/-- An accepted action keeps the book. -/
theorem effect (h : OfferBook ps cs s) (heff : Effect s p payload evs s') :
    OfferBook (ps ++ evs.filterMap posted?) (cs ++ evs.filterMap closed?) s' := by
  cases heff with
  | posted hid hfrom _ _ _ _ _ _ hfew =>
    show OfferBook (ps ++ [_]) (cs ++ []) _
    rw [List.append_nil]
    exact h.post hid (hfrom ▸ hfew) rfl rfl
  | accepted hmem =>
    show OfferBook (ps ++ []) (cs ++ [_]) _
    rw [List.append_nil]
    exact h.close hmem rfl rfl
  | cancelled hmem =>
    show OfferBook (ps ++ []) (cs ++ [_]) _
    rw [List.append_nil]
    exact h.close hmem rfl rfl
  | @wrapped q _ incomes _ _ hP =>
    obtain ⟨h₁, h₂⟩ := incomes_no_offers hP
    show OfferBook (ps ++ incomes.filterMap posted?) (cs ++ incomes.filterMap closed?) _
    rw [h₁, h₂, List.append_nil, List.append_nil]
    exact h.same rfl rfl
  | _ =>
    show OfferBook (ps ++ []) (cs ++ []) _
    rw [List.append_nil, List.append_nil]
    exact h.same rfl rfl

end OfferBook

/-! ## Paying out -/

/-- The reserve of `o` goes to `p`: to its poster when it is cancelled, else to who accepts it and
pays the poster what it wants. -/
def PaysOut (o : TradeOffer) (p : PlayerId) (s s' : FState) : Prop :=
  (o.fromPlayerId = p ∧
      ∀ id r, stock s' id r = stock s id r + if id = p then o.gives r else 0) ∨
    (o.fromPlayerId ≠ p ∧
      ∀ id r, stock s' id r = stock s id r + (if id = p then o.gives r - o.wants r else 0) +
        if id = o.fromPlayerId then o.wants r else 0)

theorem entry_pair (id : PlayerId) (wood stone : ℚ) (id' : PlayerId) (r : ResourceType) :
    (entry id "wood" wood + entry id "stone" stone) id' r =
      if id' = id then (if r = "wood" then wood else 0) +
        if r = "stone" then stone else 0 else 0 := by
  simp only [Pi.add_apply, Ledger.entry_apply]
  by_cases h : id' = id <;> simp [h]

/-- An offer that is open before an accepted action and not after it is paid out by the action. -/
theorem Effect.paysOut {s s' : FState} {p : PlayerId} {payload : FrontierPayload}
    {evs : List FEvent} (hnd : (s.extras.tradeOffers.map TradeOffer.id).Nodup)
    (h : Effect s p payload evs s') {o : TradeOffer} (ho : o ∈ s.extras.tradeOffers)
    (ho' : o ∉ s'.extras.tradeOffers) :
    PaysOut o p s s' := by
  have hsame : ∀ {o₁ : TradeOffer}, o₁ ∈ s.extras.tradeOffers →
      o ∉ s.extras.tradeOffers.filter (fun o' => o'.id ≠ o₁.id) → o = o₁ := by
    intro o₁ h₁ hout
    by_contra hne
    refine hout (List.mem_filter.mpr ⟨ho, ?_⟩)
    simpa using fun hid : o.id = o₁.id => hne (List.inj_on_of_nodup_map hnd ho h₁ hid)
  have hstock := h.stocks
  cases h with
  | posted => exact absurd (List.mem_append_left _ ho) ho'
  | @accepted o₁ _ h₁ hfrom =>
    obtain rfl := hsame h₁ ho'
    refine .inr ⟨hfrom, fun id r => ?_⟩
    have hsum : charge (fEvent p (.acceptOffer o.id o p)) id r =
        (entry p "wood" (-o.wantWood) + entry p "stone" (-o.wantStone)) id r +
          (entry p "wood" o.giveWood + entry p "stone" o.giveStone) id r +
          (entry o.fromPlayerId "wood" o.wantWood + entry o.fromPlayerId "stone" o.wantStone)
          id r := rfl
    rw [hstock id r, charges_cons, charges_nil, add_zero, hsum, entry_pair, entry_pair, entry_pair,
      TradeOffer.gives, TradeOffer.wants]
    split_ifs <;> ring
  | @cancelled o₁ _ h₁ hfrom =>
    obtain rfl := hsame h₁ ho'
    refine .inl ⟨hfrom, fun id r => ?_⟩
    rw [hstock id r, charges_cons, charges_nil, add_zero]
    exact congrArg _ (entry_pair p o.giveWood o.giveStone id r)
  | _ => exact absurd ho ho'

/-! ## Runs -/

abbrev FRecord := Record FGame FCall

/-- An accepted action was submitted. -/
def Accepted (r : FRecord) (a : FAction) : Prop :=
  (∃ result, r.label = .submit a result) ∧ accepts r.before a = true

structure Good (g : FGame) : Prop extends Settled g where
  book : OfferBook (posted g) (closed g) g.state

theorem offers_append {g g' : FGame} {n : Nat} {evs tail : List FEvent}
    (h : g'.events.emitted = g.events.emitted ++ (Game.stamp n evs ++ tail))
    (htail : ∀ e ∈ tail, ∃ victory, e.body = .gameEnded victory) :
    posted g' = posted g ++ evs.filterMap posted? ∧
    closed g' = closed g ++ evs.filterMap closed? := by
  have hnone : tail.filterMap posted? = [] ∧ tail.filterMap closed? = [] := by
    constructor <;> refine List.filterMap_eq_nil_iff.mpr fun e he => ?_ <;>
      obtain ⟨v, hv⟩ := htail e he
    · simp [posted?, hv]
    · simp [closed?, hv]
  rw [posted, closed, h, List.filterMap_append, List.filterMap_append, List.filterMap_append,
    List.filterMap_append, hnone.1, hnone.2, Game.filterMap_stamp posted? fun _ _ => rfl,
    Game.filterMap_stamp closed? fun _ _ => rfl, List.append_nil, List.append_nil]
  exact ⟨rfl, rfl⟩

theorem good_step {g g' : FGame} {c : FCall} (hg : Good g)
    (h : Game.Step frontierScenario g c g') : Good g' := by
  refine { settled_step hg.toSettled h with book := ?_ }
  cases move_of_step hg.sound h with
  | idle _ hst hev =>
    rw [posted, closed, hev, hst]
    exact hg.book.same rfl rfl
  | acted _ hact hst hem htail =>
    obtain ⟨hp, hc⟩ := offers_append hem htail
    rw [hp, hc, hst]
    exact (hg.book.effect hact.2.2).same rfl rfl

theorem good_fresh {opts : GameSetupOptions} {s : FState} (hf : Fresh opts s) : Good (Game.new s) :=
  { settled_fresh hf with
    book :=
      { balanced := by simp [posted, closed, Game.new, hf.offers]
        numbered := by simp [posted, Game.new]
        distinct := by simp [posted, Game.new]
        few := by simp [Game.new, hf.offers] } }

/-- What one call of a run does to stocks and offers. -/
structure Escrow (r : FRecord) : Prop where
  /-- A post, an accept and a cancel keep the sum of stocks and reserves. -/
  conserved : ∀ a, Accepted r a → OnOffers a.payload → ∀ res,
    inStock r.after.state res + reserved r.after.state res =
      inStock r.before.state res + reserved r.before.state res
  /-- All that changes in the stocks is what the events say. -/
  accounted : ∀ id res, stock r.after.state id res =
    stock r.before.state id res + charges (newEvents r.before r.after) id res
  /-- An offer leaves the open list in an accepted action that pays out its reserve. -/
  paysOut : ∀ o ∈ r.before.state.extras.tradeOffers, o ∉ r.after.state.extras.tradeOffers →
    ∃ a p, Accepted r a ∧ a.playerId = some p ∧ PaysOut o p r.before.state r.after.state
  /-- Each offer posted so far is open, or has been closed once. -/
  once : (posted r.after).Perm (r.after.state.extras.tradeOffers ++ closed r.after)
  newIds : ((posted r.after).map TradeOffer.id).Nodup
  few : ∀ p, (r.after.state.extras.tradeOffers.filter fun o => o.fromPlayerId = p).length ≤ 3
  nonneg : ∀ id res, 0 ≤ stock r.after.state id res
  returns : ∀ a, Accepted r a → ∃ result, r.label = .submit a (.ok result)

theorem charges_ended {evs : List FEvent} (h : ∀ e ∈ evs, ∃ victory, e.body = .gameEnded victory) :
    charges evs = 0 := by
  refine List.sum_eq_zero fun d hd => ?_
  obtain ⟨e, he, rfl⟩ := List.mem_map.mp hd
  obtain ⟨v, hv⟩ := h e he
  rw [charge, hv]

theorem charges_stamp (evs : List FEvent) : ∀ n, charges (Game.stamp n evs) = charges evs := by
  induction evs with
  | nil => intro n; rfl
  | cons e evs ih =>
    intro n
    rw [Game.stamp, charges_cons, charges_cons, ih]
    rfl

/-- A call is sound if and only if it is not an action accepted after the end. -/
theorem escrow_step {r : FRecord} (hg : Good r.before)
    (h : Game.Step frontierScenario r.before r.label r.after) :
    Escrow r ↔ ∀ a, Accepted r a → r.before.machine ≠ .ended := by
  have hg' := good_step hg h
  have hreturns : (∀ a, Accepted r a → ∃ result, r.label = .submit a (.ok result)) ↔
      ∀ a, Accepted r a → r.before.machine ≠ .ended := by
    refine forall_congr' fun a => forall_congr' fun ha => ?_
    obtain ⟨⟨result, hl⟩, hacc⟩ := ha
    rw [hl] at h
    rw [Ne, ← accepted_throws_iff hg.toSettled hacc h, hl]
    cases result <;> simp
  refine ⟨fun he => hreturns.mp he.returns, fun hplay => ?_⟩
  obtain ⟨g, c, g'⟩ := r
  have hnd := hg.book.open_distinct
  have hrest := hg'.book
  cases move_of_step hg.sound h with
  | idle hno hst hev =>
    have hnever : ∀ a, ¬ Accepted ⟨g, c, g'⟩ a := by
      rintro a ⟨⟨result, hl⟩, hacc⟩
      cases hacc.symm.trans (hno a result hl)
    exact
      { conserved := fun a ha => absurd ha (hnever a)
        accounted := fun id res => by
          rw [Game.newEvents_idle hev, charges_nil, hst]
          exact (add_zero _).symm
        paysOut := fun o ho ho' => absurd (hst ▸ ho) ho'
        once := hrest.balanced
        newIds := hrest.distinct
        few := hrest.few
        nonneg := hg'.sound.nonneg
        returns := hreturns.mpr hplay }
  | @acted a result _ evs s' status history tail hacc hact hst hem htail =>
    obtain ⟨hplayer, _, heff⟩ := hact
    have hstock : ∀ id res, stock g'.state id res = stock s' id res := fun id res => by
      rw [hst]; rfl
    exact
      { conserved := fun a' ha' hon res => by
          obtain ⟨⟨result', hl⟩, _⟩ := ha'
          cases hl
          rw [hst]
          exact heff.conserved hg.sound hg.sound.turn hnd hon res
        accounted := fun id res => by
          rw [hstock, heff.stocks, Game.newEvents_append hem, charges_append, charges_stamp,
            charges_ended htail, add_zero]
        paysOut := fun o ho ho' => by
          rw [hst] at ho' ⊢
          exact ⟨a, _, ⟨⟨result, rfl⟩, hacc⟩, hplayer, heff.paysOut hnd ho ho'⟩
        once := hrest.balanced
        newIds := hrest.distinct
        few := hrest.few
        nonneg := hg'.sound.nonneg
        returns := hreturns.mpr hplay }

/-- The escrow of a Frontier run is sound if and only if no action is accepted after the game has
ended. -/
theorem escrow_iff {opts : GameSetupOptions} {s : FState}
    (hs : createGameState frontierScenario opts = .ok s) {rs : List FRecord} {g : FGame}
    (hrs : Trace (Recorded (Game.Step frontierScenario)) (Game.new s) rs g) :
    (∀ r ∈ rs, Escrow r) ↔ ∀ r ∈ rs, ∀ a, Accepted r a → r.before.machine ≠ .ended := by
  have hall := Recorded.forall_inv (fun _ _ _ hg h => good_step hg h) hrs
    (good_fresh (fresh_state hs))
  exact forall_congr' fun r => forall_congr' fun hr => escrow_step (hall r hr).1 (hall r hr).2

/-- `p1` offers two logs, and `p2` takes one of them. -/
def twoOffers : List (Game.Request FrontierPayload) :=
  [.start, request "p1" (.claimTile "2,-1"), request "p1" .endTurn, request "p2" .endTurn,
    request "p1" (.postOffer 1 0 1 0), request "p1" (.postOffer 1 0 0 1), request "p1" .endTurn,
    request "p2" (.acceptOffer "1")]

theorem twoOffers_escrow : ∃ s rs g, createGameState frontierScenario pair = .ok s ∧
    Trace (Recorded (Game.Step frontierScenario)) (Game.new s) rs g ∧
    g.state.extras.nextOfferId = 2 ∧ g.state.extras.tradeOffers.map TradeOffer.id = ["2"] ∧
    ((∀ r ∈ rs, Escrow r) ↔ ∀ r ∈ rs, ∀ a, Accepted r a → r.before.machine ≠ .ended) := by
  have hobserved : (Game.play frontierScenario pair twoOffers).toOption.map (fun r =>
      (r.2.state.extras.nextOfferId, r.2.state.extras.tradeOffers.map TradeOffer.id)) =
      some (2, ["2"]) := by
    decide +kernel
  obtain ⟨r, _, ⟨s, hs, htr⟩, hx⟩ := Game.play_observed hobserved
  obtain ⟨hposted, hleft⟩ := Prod.mk.inj hx
  obtain ⟨rs, _, hrs⟩ := Recorded.of_trace htr
  exact ⟨s, rs, r.2, hs, hrs, hposted, hleft, escrow_iff hs hrs⟩

/-- The winner's turn ended after the game: the submit throws. -/
theorem overtime_not_escrow :
    ¬ ∀ (opts : GameSetupOptions) (s : FState) (rs : List FRecord) (g : FGame),
    createGameState frontierScenario opts = .ok s →
    Trace (Recorded (Game.Step frontierScenario)) (Game.new s) rs g → ∀ r ∈ rs, Escrow r := by
  intro h
  obtain ⟨r, _, ⟨s, hs, htr⟩, _, _, hacc, e, g', hsub, _⟩ := overtime
  obtain ⟨rs, _, hrs⟩ := Recorded.of_trace htr
  have hlast := hrs.snoc (.mk (Game.Step.threw hsub))
  have hescrow := h pair s _ g' hs hlast ⟨r.2, .submit pass (.error e), g'⟩ (by simp)
  obtain ⟨result, hl⟩ := hescrow.returns pass ⟨⟨_, rfl⟩, hacc⟩
  cases hl

end Boardgame.Frontier
