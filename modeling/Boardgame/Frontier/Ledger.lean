import Boardgame.Lib.Ledger
import Boardgame.Frontier.Scenario

/-!
# Frontier.Ledger

The players' stocks as accounts. `charge` says what an event means for them; `Pays x s a d` says
that the program `x` changes nothing but the stocks, by the ledger `d`.

* `Pays.bind`, `addTo_pays`, `removeFrom_pays`: the rules for programs that pay.
* `Books.total`: what a ledger adds up to over all inventories.
-/

namespace Boardgame.Frontier

abbrev Stocks := Ledger PlayerId ResourceType ℚ

open Ledger (entry)

/-- `inventories.get(id)?.get(r) ?? 0`. -/
def stock (s : FState) : Stocks := fun id r => stockOf (s.inventories.get? id) r

/-- The amount of a resource in all inventories. -/
def inStock (s : FState) (r : ResourceType) : ℚ := (s.inventories.values.map (·.get r)).sum

/-! ## What events mean -/

/-- A posting for the player an event names, if it names one. -/
def byPlayer (playerId : Option PlayerId) (d : PlayerId → Stocks) : Stocks :=
  match playerId with
  | some id => d id
  | none => 0

/-- One of the resource a claimed tile yields. -/
def yields (id : PlayerId) (resource : Option String) : Stocks :=
  match resource with
  | some r => entry id r 1
  | none => 0

def charge (e : FEvent) : Stocks :=
  match e.body with
  | .gameEnded _ => 0
  | .scenario payload =>
    match payload with
    | .tileClaimed _ _ vp claimedBy _ _ _ _ resource =>
      entry claimedBy "vp" vp + yields claimedBy resource
    | .turnEnded _ => 0
    | .roundEnded _ => 0
    | .fortIncome _ vp => byPlayer e.playerId fun id => entry id "vp" vp
    | .tileIncome wood stone =>
      byPlayer e.playerId fun id => entry id "wood" wood + entry id "stone" stone
    | .trade resource effect amount => byPlayer e.playerId fun id =>
      if effect = "vp" then entry id resource (-2) + entry id "vp" (amount.getD 1)
      else if effect = "stone-leap" then entry id "stone" (-2)
      else 0
    | .fortify _ woodSpent stoneSpent => byPlayer e.playerId fun id =>
      entry id "wood" (-woodSpent) + entry id "stone" (-stoneSpent)
    | .postOffer o => byPlayer e.playerId fun id =>
      entry id "wood" (-o.giveWood) + entry id "stone" (-o.giveStone)
    | .acceptOffer _ o acceptedBy =>
      entry acceptedBy "wood" (-o.wantWood) + entry acceptedBy "stone" (-o.wantStone) +
        (entry acceptedBy "wood" o.giveWood + entry acceptedBy "stone" o.giveStone) +
        (entry o.fromPlayerId "wood" o.wantWood + entry o.fromPlayerId "stone" o.wantStone)
    | .cancelOffer _ o => byPlayer e.playerId fun id =>
      entry id "wood" o.giveWood + entry id "stone" o.giveStone

def charges (evs : List FEvent) : Stocks := (evs.map charge).sum

@[simp] theorem charges_nil : charges [] = 0 := rfl

@[simp] theorem charges_cons (e : FEvent) (evs : List FEvent) :
    charges (e :: evs) = charge e + charges evs := by
  simp [charges]

@[simp] theorem charges_append (evs evs' : List FEvent) :
    charges (evs ++ evs') = charges evs + charges evs' := by
  simp [charges]

/-! ## Books -/

/-- The same accounts, each changed by `d`. -/
structure Books (m m' : OrderedMap PlayerId Inventory) (d : Stocks) : Prop where
  keys : m'.keys = m.keys
  stock : ∀ id r, stockOf (m'.get? id) r = stockOf (m.get? id) r + d id r

namespace Books

variable {m m' m'' : OrderedMap PlayerId Inventory} {d e : Stocks}

theorem refl (m : OrderedMap PlayerId Inventory) : Books m m 0 := ⟨rfl, by simp⟩

theorem trans (h : Books m m' d) (h' : Books m' m'' e) : Books m m'' (d + e) :=
  ⟨h'.keys.trans h.keys,
    fun id r => by rw [h'.stock, h.stock, Pi.add_apply, Pi.add_apply, add_assoc]⟩

theorem put {id : PlayerId} {inv : Inventory} (h : m.get? id = some inv)
    (r : ResourceType) (q : ℚ) :
    Books m (m.set id (inv.put r (inv.get r + q))) (entry id r q) where
  keys := OrderedMap.keys_set_of_mem (OrderedMap.mem_keys.mpr ⟨inv, h⟩)
  stock id' r' := by
    rw [OrderedMap.get?_set, Ledger.entry_apply]
    by_cases hid : id' = id
    · subst hid
      by_cases hr : r' = r
      · subst hr
        simp [stockOf, h]
      · simp [stockOf, h, hr]
    · simp [hid]

theorem purse (h : Books m m' d) {id : PlayerId} {inv : Inventory} (hinv : m.get? id = some inv) :
    ∃ inv', m'.get? id = some inv' ∧ ∀ r, inv'.get r = inv.get r + d id r := by
  obtain ⟨inv', hinv'⟩ := OrderedMap.mem_keys.mp
    (show id ∈ m'.keys by rw [h.keys]; exact OrderedMap.mem_keys.mpr ⟨inv, hinv⟩)
  refine ⟨inv', hinv', fun r => ?_⟩
  have := h.stock id r
  simpa [stockOf, hinv, hinv'] using this

/-- The total over all inventories changes by the total of the ledger. -/
theorem total (h : Books m m' d) (r : ResourceType) :
    (m'.values.map (·.get r)).sum = (m.values.map (·.get r)).sum + Ledger.total m.keys d r := by
  have hkeys : ∀ n : OrderedMap PlayerId Inventory,
      n.values.map (·.get r) = n.keys.map fun id => stockOf (n.get? id) r := by
    intro n
    rw [OrderedMap.values, OrderedMap.keys, List.map_map, List.map_map]
    refine List.map_congr_left fun e he => ?_
    obtain ⟨id, inv⟩ := e
    simp [stockOf, OrderedMap.mem_entries.mp he]
  rw [hkeys m', hkeys m, h.keys, Ledger.total, ← List.sum_map_add]
  exact congrArg List.sum (List.map_congr_left fun id _ => h.stock id r)

end Books

/-! ## Programs that pay -/

/-- From `s`, the program `x` changes the stocks by `d`, changes nothing else, and returns `a`. -/
def Pays {α : Type} (x : FExec α) (s : FState) (a : α) (d : Stocks) : Prop :=
  ∃ invs, x.run s = .ok a { s with inventories := invs } ∧ Books s.inventories invs d

namespace Pays

variable {α β : Type} {s : FState}

theorem pure (a : α) : Pays (Pure.pure a) s a 0 := ⟨s.inventories, rfl, .refl _⟩

theorem bind {x : FExec α} {f : α → FExec β} {a : α} {b : β} {d e : Stocks} (h : Pays x s a d)
    (h' : ∀ invs, Books s.inventories invs d → Pays (f a) { s with inventories := invs } b e) :
    Pays (x >>= f) s b (d + e) := by
  obtain ⟨invs, hx, hb⟩ := h
  obtain ⟨invs', hf, hb'⟩ := h' invs hb
  exact ⟨invs', by rw [Eff.bind_ok hx, hf], hb.trans hb'⟩

end Pays

variable {s : FState} {id : PlayerId} {r : ResourceType} {q : ℚ}

theorem addTo_pays (hid : id ∈ s.inventories.keys) (hq : 0 ≤ q) :
    Pays (addTo id r q) s () (entry id r q) := by
  obtain ⟨inv, hinv⟩ := OrderedMap.mem_keys.mp hid
  exact ⟨_, addTo_run hinv hq, .put hinv r q⟩

theorem removeFrom_pays (hid : id ∈ s.inventories.keys) (hq : 0 ≤ q) (hle : q ≤ stock s id r) :
    Pays (removeFrom id r q) s () (entry id r (-q)) := by
  obtain ⟨inv, hinv⟩ := OrderedMap.mem_keys.mp hid
  refine ⟨_, removeFrom_run hinv hq (by simpa [stock, stockOf, hinv] using hle), ?_⟩
  rw [sub_eq_add_neg]
  exact .put hinv r (-q)

/-- `if (q > 0) inv.add(r, q)`. -/
theorem addSome_pays (hid : id ∈ s.inventories.keys) (hq : 0 ≤ q) :
    Pays (Eff.when (q > 0) (addTo id r q)) s () (entry id r q) := by
  by_cases h : q > 0
  · rw [Eff.when_true h]
    exact addTo_pays hid hq
  · rw [Eff.when_false h, le_antisymm (not_lt.mp h) hq, Ledger.entry_zero]
    exact .pure ()

/-- `if (q > 0) inv.remove(r, q)`. -/
theorem removeSome_pays (hid : id ∈ s.inventories.keys) (hq : 0 ≤ q) (hle : q ≤ stock s id r) :
    Pays (Eff.when (q > 0) (removeFrom id r q)) s () (entry id r (-q)) := by
  by_cases h : q > 0
  · rw [Eff.when_true h]
    exact removeFrom_pays hid hq hle
  · rw [Eff.when_false h, le_antisymm (not_lt.mp h) hq, neg_zero, Ledger.entry_zero]
    exact .pure ()

end Boardgame.Frontier
