import Mathlib.Data.List.Induction
import Boardgame.Frontier.Escrow

/-!
# Frontier.Winner

Who wins. The first inventory with the points wins the race, and a full board is won by the most
points. A turn that ends a round pays several players at once, and then the first of them in the
roster need not be the one with the most.

* `firstToEighteenVP_winner`, `allTilesClaimed_winner`: whom the two conditions name.
* `endTurn_vp`: the points a turn that ends brings.
* `crowned_iff`: a game ended by a step has the right winner unless the round overtakes them.
-/

namespace Boardgame.Frontier

open Ledger (entry)

/-- `v` names a player with the most points, or nobody while at least two have the most. -/
structure Leads (s : FState) (v : VictoryResult) : Prop where
  winner : ∀ w, v.winner = some w → ∀ pl ∈ s.players.all, stock s pl.id "vp" ≤ stock s w "vp"
  draw : v.winner = none → ∃ p ∈ s.players.all, ∃ q ∈ s.players.all, p.id ≠ q.id ∧
    ∀ pl ∈ s.players.all, stock s pl.id "vp" ≤ stock s p.id "vp" ∧
      stock s pl.id "vp" ≤ stock s q.id "vp"

/-- The inventories are the players'. -/
def Listed (s : FState) : Prop := ∀ id ∈ s.inventories.keys, id ∈ s.players.bySeat.map Player.id

/-! ## The race -/

theorem stock_entry {s : FState} {e : PlayerId × Inventory} (he : e ∈ s.inventories.entries)
    (r : ResourceType) :
    stock s e.1 r = e.2.get r := by
  rw [stock, stockOf, OrderedMap.mem_entries.mp he]
  rfl

theorem find?_of_agree {α : Type} {p q : α → Bool} {as : List α} (h : ∀ a ∈ as, p a = q a) :
    as.find? p = as.find? q := by
  induction as with
  | nil => rfl
  | cons a as ih =>
    rw [List.find?_cons, List.find?_cons, h a List.mem_cons_self,
      ih fun b hb => h b (List.mem_cons_of_mem _ hb)]

theorem firstToEighteenVP_winner (s : FState) : (firstToEighteenVP s).map VictoryResult.winner =
    (s.inventories.keys.find? fun id => winVp ≤ stock s id "vp").map some := by
  have hfind : (s.inventories.entries.find? fun e => e.2.get "vp" ≥ winVp).map Prod.fst =
      s.inventories.keys.find? fun id => winVp ≤ stock s id "vp" := by
    rw [OrderedMap.keys, List.find?_map]
    refine congrArg (Option.map Prod.fst) (find?_of_agree fun e he => ?_)
    simp only [Function.comp_apply, stock_entry he, ge_iff_le]
  rw [firstToEighteenVP, ← hfind, Option.map_map, Option.map_map]
  rfl

/-! ## A full board -/

/-- The loop keeps the most points so far, somebody who has them, and whether another has too. -/
theorem topVp_spec {es : List (PlayerId × Inventory)} (hne : es ≠ [])
    (hkeys : (es.map Prod.fst).Nodup) (hpos : ∀ e ∈ es, 0 ≤ e.2.get "vp") :
    ∃ w top tied, topVp es = (some w, top, tied) ∧
      (∃ e ∈ es, e.1 = w ∧ e.2.get "vp" = top) ∧ (∀ e ∈ es, e.2.get "vp" ≤ top) ∧
      (tied = true → ∃ e ∈ es, ∃ e' ∈ es, e.1 ≠ e'.1 ∧ e.2.get "vp" = top ∧
        e'.2.get "vp" = top) := by
  induction es using List.reverseRecOn with
  | nil => exact absurd rfl hne
  | append_singleton es e ih =>
    have hlast : e ∈ es ++ [e] := List.mem_append_right _ (List.mem_singleton_self e)
    have hold : ∀ e' ∈ es, e' ∈ es ++ [e] := fun e' he' => List.mem_append_left _ he'
    have hsplit : ∀ {P : PlayerId × Inventory → Prop}, (∀ e' ∈ es, P e') → P e →
        ∀ e' ∈ es ++ [e], P e' :=
      fun hes he e' he' => (List.mem_append.mp he').elim (hes e') fun h =>
        List.mem_singleton.mp h ▸ he
    have hstep : topVp (es ++ [e]) = if e.2.get "vp" > (topVp es).2.1 then (some e.1,
        e.2.get "vp", false)
        else if e.2.get "vp" = (topVp es).2.1 then ((topVp es).1, (topVp es).2.1,
          true) else topVp es := by
      rw [topVp, List.foldl_append]
      rfl
    rw [hstep]
    rcases eq_or_ne es [] with rfl | hes
    · have hgt : e.2.get "vp" > (topVp []).2.1 :=
        lt_of_lt_of_le (by norm_num [topVp]) (hpos e hlast)
      rw [if_pos hgt]
      exact ⟨_, _, _, rfl, ⟨e, hlast, rfl, rfl⟩, hsplit (by simp) le_rfl, nofun⟩
    rw [List.map_append, List.nodup_append] at hkeys
    obtain ⟨w, top, tied, htop, ⟨l, hl, hlw, hlt⟩, hmost, hdraw⟩ :=
      ih hes hkeys.1 fun e' he' => hpos e' (hold e' he')
    rw [htop]
    dsimp only
    split_ifs with hgt heq
    · exact ⟨_, _, _, rfl, ⟨e, hlast, rfl, rfl⟩,
        hsplit (fun e' he' => (hmost e' he').trans hgt.le) le_rfl, nofun⟩
    · refine ⟨_, _, _, rfl, ⟨l, hold l hl, hlw, hlt⟩, hsplit hmost heq.le, fun _ => ?_⟩
      refine ⟨l, hold l hl, e, hlast, ?_, hlt, heq⟩
      exact hkeys.2.2 l.1 (List.mem_map_of_mem hl) e.1 (by simp)
    · refine ⟨_, _, _, rfl, ⟨l, hold l hl, hlw, hlt⟩, hsplit hmost (not_lt.mp hgt), fun ht => ?_⟩
      obtain ⟨a, ha, b, hb, hab⟩ := hdraw ht
      exact ⟨a, hold a ha, b, hold b hb, hab⟩

/-- A full board is won by the most points, and by nobody only if two have them. -/
theorem allTilesClaimed_leads {s : FState} (hs : Sound s) (hlisted : Listed s)
    (hin : s.players.all ≠ []) {v : VictoryResult} (h : allTilesClaimed s = some v) :
    Leads s v := by
  have hentry : ∀ pl ∈ s.players.all, ∃ e ∈ s.inventories.entries, e.1 = pl.id := fun pl hpl => by
    obtain ⟨inv, hinv⟩ := OrderedMap.mem_keys.mp (hs.purses pl hpl)
    exact ⟨(pl.id, inv), OrderedMap.mem_entries.mpr hinv, rfl⟩
  obtain ⟨first, hfirst⟩ := List.exists_mem_of_ne_nil _ hin
  obtain ⟨e₀, he₀, -⟩ := hentry first hfirst
  obtain ⟨w, top, tied, htop, ⟨l, hl, hlw, hlt⟩, hmost, hdraw⟩ :=
    topVp_spec (List.ne_nil_of_mem he₀) s.inventories.nodup_keys fun e he => by
      rw [← stock_entry he]
      exact hs.nonneg _ _
  have hle : ∀ pl ∈ s.players.all, stock s pl.id "vp" ≤ top := fun pl hpl => by
    obtain ⟨e, he, hid⟩ := hentry pl hpl
    rw [← hid, stock_entry he]
    exact hmost e he
  rw [allTilesClaimed] at h
  dsimp only at h
  split at h
  · cases h
  · rw [htop, Option.some.injEq] at h
    subst h
    cases tied with
    | false =>
      refine ⟨fun w' hw' => ?_, fun hno => by cases hno⟩
      cases hw'
      intro pl hpl
      rw [← hlw, stock_entry hl, hlt]
      exact hle pl hpl
    | true =>
      refine ⟨fun w' hw' => (by cases hw'), fun _ => ?_⟩
      obtain ⟨a, ha, b, hb, hab, hat, hbt⟩ := hdraw rfl
      obtain ⟨p, hp, hpa⟩ := List.mem_map.mp (hlisted a.1 (List.mem_map_of_mem ha))
      obtain ⟨q, hq, hqb⟩ := List.mem_map.mp (hlisted b.1 (List.mem_map_of_mem hb))
      refine ⟨p, hp, q, hq, by rwa [hpa, hqb], fun pl hpl => ?_⟩
      rw [hpa, hqb, stock_entry ha, stock_entry hb, hat, hbt]
      exact ⟨hle pl hpl, hle pl hpl⟩

/-! ## The points of a round -/

/-- The tiles a player has fortified. -/
def fortPoints (s : FState) (id : PlayerId) : Nat :=
  (s.extras.fortifications.entries.filter fun e => e.2 = id).length

/-- What the forts pay to those who have an inventory. -/
def fortLedger (keys : List PlayerId) (forts : List (TileId × PlayerId)) : Stocks :=
  (forts.map fun fort => if fort.2 ∈ keys then entry fort.2 "vp" 1 else 0).sum

theorem fortLedger_vp (keys : List PlayerId) (forts : List (TileId × PlayerId)) (id : PlayerId)
    (hid : id ∈ keys) :
    fortLedger keys forts id "vp" = (forts.filter fun e => e.2 = id).length := by
  induction forts with
  | nil => rfl
  | cons fort forts ih =>
    have hcons : fortLedger keys (fort :: forts) =
        (if fort.2 ∈ keys then entry fort.2 "vp" 1 else 0) + fortLedger keys forts := by
          simp [fortLedger]
    rw [hcons, Pi.add_apply, Pi.add_apply, ih]
    by_cases hown : fort.2 = id
    · rw [hown, if_pos hid, List.filter_cons_of_pos (by simpa using hown), Ledger.entry_apply]
      simp [add_comm]
    · rw [List.filter_cons_of_neg (by simpa using hown)]
      split
      · rw [Ledger.entry_apply, if_neg fun h => hown h.1.symm, zero_add]
      · exact zero_add _

/-- One pass of `fortIncome`. -/
def payFort (fort : TileId × PlayerId) : FExec (List FEvent) := do
  match (← get).inventories.get? fort.2 with
  | none => return []
  | some _ => do
    addTo fort.2 "vp" 1
    return [fEvent fort.2 (.fortIncome fort.1 1)]

theorem payFort_pays (s : FState) (fort : TileId × PlayerId) : ∃ evs, Pays (payFort fort) s evs
    (if fort.2 ∈ s.inventories.keys then entry fort.2 "vp" 1 else 0) := by
  cases hinv : s.inventories.get? fort.2 with
  | none =>
    rw [if_neg (OrderedMap.get?_eq_none.mp hinv)]
    exact ⟨[], s.inventories, by simp [payFort, hinv], .refl _⟩
  | some inv =>
    have hkey : fort.2 ∈ s.inventories.keys := OrderedMap.mem_keys.mpr ⟨inv, hinv⟩
    obtain ⟨invs, hrun, hb⟩ := addTo_pays (r := "vp") hkey zero_le_one
    rw [if_pos hkey]
    refine ⟨[fEvent fort.2 (.fortIncome fort.1 1)], invs, ?_, hb⟩
    simp only [payFort, EStateM.run_bind, EStateM.run_get, hinv, hrun, EStateM.run_pure]

theorem payForts_pays (forts : List (TileId × PlayerId)) (s : FState) :
    ∃ evs, Pays (Eff.collect payFort forts) s evs (fortLedger s.inventories.keys forts) := by
  induction forts generalizing s with
  | nil => exact ⟨[], .pure []⟩
  | cons fort forts ih =>
    have hcons : fortLedger s.inventories.keys (fort :: forts) =
        (if fort.2 ∈ s.inventories.keys then entry fort.2 "vp" 1 else 0) + fortLedger
        s.inventories.keys forts := by
      simp [fortLedger]
    obtain ⟨evs, invs, hrun, hb⟩ := payFort_pays s fort
    obtain ⟨rest, invs', hrest, hb'⟩ := ih { s with inventories := invs }
    rw [hb.keys] at hb'
    refine ⟨evs ++ rest, invs', ?_, hcons ▸ hb.trans hb'⟩
    rw [Eff.collect, Eff.bind_ok hrun, Eff.bind_ok hrest]
    rfl

section Spared

open Eff (Keeps)

variable {id payee : PlayerId} {v q : ℚ} {r : ResourceType}

/-- Other resources leave the points alone. -/
theorem addTo_spares (hr : r ≠ "vp") :
    Keeps (fun s : FState => stock s id "vp" = v) (fun _ => True)
      (addTo payee r q : FExec Unit) := by
  refine .bind (Q := fun inv => payee = id → inv.get "vp" = v) (.get fun s hs => ?_)
    fun inv hinv => ?_
  · cases h : s.inventories.get? payee with
    | none => exact .throw _
    | some inv =>
      refine .pure fun hid => ?_
      rw [← hs, stock, ← hid, stockOf, h]
      rfl
  · refine .bind (Q := fun inv => payee = id → inv.get "vp" = v) (.liftExcept fun inv' h => ?_)
      fun inv' hinv' =>
      .modify fun s hs => ?_
    · unfold Inventory.add at h
      split at h
      · cases h
      · cases h
        rw [Inventory.get_put, if_neg (Ne.symm hr)]
        exact hinv
    · show stockOf ((s.inventories.set payee inv').get? id) "vp" = v
      rw [OrderedMap.get?_set]
      split
      · rename_i hid
        exact hinv' hid.symm
      · exact hs

theorem payTileIncome_spares (id : PlayerId) (v : ℚ) (incomes : OrderedMap PlayerId TileIncome) :
    Keeps (fun s : FState => stock s id "vp" = v) (fun _ => True) (payTileIncome incomes) := by
  refine .collect _ fun income _ => .get fun s hs => ?_
  cases s.inventories.get? income.1 with
  | none => exact .pure trivial
  | some inv =>
    exact .seq (.when (addTo_spares (by decide)))
      (.seq (.when (addTo_spares (by decide))) (.pure trivial))

end Spared

/-- A turn that ends a round pays the forts' points, any other pays none. -/
theorem endTurn_vp {s s' : FState} {p q : PlayerId} {b : Bool} {rounds : RoundManager}
    {evs : List FEvent} (hend : s.rounds.endTurn s.players.all "turn" = .ok (⟨q, b⟩, rounds))
    (hx : (endTurnExecutor p).run s = .ok evs s') {id : PlayerId} (hid : id ∈ s.inventories.keys) :
    stock s' id "vp" = stock s id "vp" + if b then (fortPoints s id : ℚ) else 0 := by
  cases b with
  | false =>
    simp only [endTurnExecutor, EStateM.run_bind, EStateM.run_get, hend, Eff.liftExcept_ok,
      EStateM.run_set] at hx
    cases hx
    exact (add_zero _).symm
  | true =>
    have hrun : (endTurnExecutor p).run s = (do
        let incomes ← endRound s.rounds.round
        return fEvent p (.turnEnded q) :: incomes : FExec (List FEvent)).run { s with rounds } := by
      simp only [endTurnExecutor, EStateM.run_bind, EStateM.run_get, hend, Eff.liftExcept_ok,
        EStateM.run_set, if_true]
    rw [hrun] at hx
    obtain ⟨incomes, s₁, hround, hpure⟩ := Eff.bind_eq_ok.mp hx
    cases hpure
    obtain ⟨forts, invs, hforts, hb⟩ :=
      payForts_pays s.extras.fortifications.entries { s with rounds }
    have hforts' : (fortIncome s.extras.fortifications).run { s with rounds } =
        .ok forts { s with rounds, inventories := invs } := hforts
    rw [endRound, Eff.bind_ok (EStateM.run_get _)] at hround
    obtain ⟨_, _, hforts'', hround⟩ := Eff.bind_eq_ok.mp hround
    rw [hforts'] at hforts''
    cases hforts''
    rw [Eff.bind_ok (EStateM.run_get _)] at hround
    obtain ⟨tiles, s₂, htiles, hpure⟩ := Eff.bind_eq_ok.mp hround
    cases hpure
    have hkept := (payTileIncome_spares id (stockOf (invs.get? id) "vp") _ _ _ _ rfl htiles).1
    rw [hkept, hb.stock, fortLedger_vp _ _ _ hid]
    rfl

/-- Other actions bring points to the player on turn only. -/
theorem Effect.vp_others {s s' : FState} {p : PlayerId} {payload : FrontierPayload}
    {evs : List FEvent} (h : Effect s p payload evs s') (hturn : payload ≠ .endTurn) {id : PlayerId}
    (hid : id ≠ p) :
    stock s' id "vp" = stock s id "vp" := by
  rw [h.stocks]
  cases h with
  | @claimed t tile die1 die2 =>
    have hyield : yields p (terrainResource tile.terrain) id "vp" = 0 := by
      cases terrainResource tile.terrain with
      | none => rfl
      | some r => simp [yields, Ledger.entry_apply, hid]
    simp [claimedEvent, charge, fEvent, Ledger.entry_apply, hid, hyield]
  | turned => exact absurd rfl hturn
  | wrapped => exact absurd rfl hturn
  | _ => simp [charge, fEvent, byPlayer, Ledger.entry_apply, hid]

/-! ## The last turn of a round -/

/-- The turn is that of the last seat. -/
def LastTurn (s : FState) : Prop :=
  ∀ cur ∈ s.players.bySeat, cur.id = s.rounds.turn.activePlayer →
    ∀ pl ∈ s.players.bySeat, pl.seat ≤ cur.seat

theorem endTurn_wraps {s : FState} (hs : Sound s) (hsorted : SeatSorted s.players.bySeat)
    (hids : (s.players.bySeat.map Player.id).Nodup) : ∃ q b rounds,
      s.rounds.endTurn s.players.all "turn" = .ok (⟨q, b⟩, rounds) ∧ (b = true ↔ LastTurn s) := by
  obtain ⟨p, hp, hcur⟩ := List.mem_map.mp hs.turn
  obtain ⟨q, hq, -, hsucc, hend⟩ :=
    RoundManager.endTurn_spec hsorted hids hs.clockwise hp (hs.active p hp) hcur.symm "turn"
  have hall : s.players.bySeat.filter Player.isActive = s.players.bySeat :=
    List.filter_eq_self.mpr fun a ha => hs.active a ha
  rw [hall] at hsucc
  refine ⟨q.id, _, _, hend, ?_⟩
  rw [decide_eq_true_eq]
  constructor
  · intro hle cur hcur' hid pl hpl
    have hsame : cur = p := List.inj_on_of_nodup_map hids hcur' hp (hid.trans hcur.symm)
    rcases hsucc with ⟨hlt, -⟩ | ⟨hmost, -⟩
    · omega
    · exact hsame ▸ hmost pl hpl
  · exact fun hlast => hlast p hp hcur q hq

/-- What the players have once the round is over. -/
def roundVp (s : FState) (id : PlayerId) : ℚ := stock s id "vp" + fortPoints s id

/-- The first player in the roster whom the end of the round brings past the mark is not the one it
brings furthest. -/
def Overtaken (s : FState) : Prop :=
  ∃ w, s.inventories.keys.find? (fun id => winVp ≤ roundVp s id) = some w ∧
    ∃ q ∈ s.inventories.keys, roundVp s w < roundVp s q

/-! ## The open game -/

/-- While the game is open nobody has the points to win. -/
structure Contested (g : FGame) : Prop where
  sound : Sound g.state
  sorted : SeatSorted g.state.players.bySeat
  ids : (g.state.players.bySeat.map Player.id).Nodup
  listed : Listed g.state
  below : g.machine ≠ .ended → ∀ id, stock g.state id "vp" < winVp

theorem evaluate_none_below {s : FState} (h : frontierScenario.evaluate s = none) (id : PlayerId) :
    stock s id "vp" < winVp := by
  by_contra hge
  have hsome := (evaluate_isSome s).mpr (.inl ⟨id, not_lt.mp hge⟩)
  rw [h] at hsome
  cases hsome

theorem contested_step {g g' : FGame} {c : FCall} (hg : Contested g)
    (h : Game.Step frontierScenario g c g') :
    Contested g' := by
  obtain ⟨hs, hsorted, hids, hlisted, hbelow⟩ := hg
  have hkeep : ∀ {a : FAction} {evs s'} status history, frontierScenario.validate g.state a =
      .ok () →
      (frontierScenario.execute a).run g.state = .ok evs s' →
      Sound { s' with status, history } ∧ s'.players = g.state.players ∧
        Listed { s' with status, history } := by
    intro a evs s' status history hv hx
    obtain ⟨evs', s'', hx', -, -, heff⟩ := acted_on hs hv
    rw [hx] at hx'
    cases hx'
    refine ⟨sound_frame (heff.sound hs hs.turn) _ _, heff.players, fun id hid => ?_⟩
    show id ∈ s'.players.bySeat.map Player.id
    rw [heff.players]
    exact hlisted id (heff.books.keys ▸ hid)
  cases h.outcome no_rules with
  | started =>
    unfold Game.start
    split
    · rename_i hm
      exact ⟨sound_frame hs _ _, hsorted, hids, hlisted, fun _ => hbelow (by rw [hm]; decide)⟩
    · exact ⟨hs, hsorted, hids, hlisted, hbelow⟩
  | rejected => exact ⟨hs, hsorted, hids, hlisted, hbelow⟩
  | refused => exact ⟨hs, hsorted, hids, hlisted, hbelow⟩
  | crashed hv hx =>
    obtain ⟨_, _, hx', _⟩ := acted_on hs hv
    rw [hx] at hx'
    cases hx'
  | @played a primary s hv hx hev =>
    obtain ⟨hs', hplayers, hlisted'⟩ := hkeep s.status (g.executed a primary s).state.history hv hx
    have hplayers' : (g.executed a primary s).state.players = g.state.players := hplayers
    exact ⟨hs', hplayers' ▸ hsorted, hplayers' ▸ hids, hlisted', fun _ => evaluate_none_below hev⟩
  | @won a primary s _ hv hx =>
    obtain ⟨hs', hplayers, hlisted'⟩ := hkeep .ended (g.executed a primary s).state.history hv hx
    have hplayers' : (g.executed a primary s).state.players = g.state.players := hplayers
    exact ⟨hs', hplayers' ▸ hsorted, hplayers' ▸ hids, hlisted', fun hm => absurd rfl hm⟩
  | @stuck a primary s _ _ hv hx _ hm =>
    obtain ⟨hs', hplayers, hlisted'⟩ := hkeep s.status (g.executed a primary s).state.history hv hx
    have hplayers' : (g.executed a primary s).state.players = g.state.players := hplayers
    exact ⟨hs', hplayers' ▸ hsorted, hplayers' ▸ hids, hlisted', fun hm' => absurd hm hm'⟩

/-! ## The step that ends the game -/

/-- If the record is a submit that returns the end of the game, its result has the right winner. -/
def Crowns (r : FRecord) : Prop :=
  ∀ a evs e v, r.label = .submit a (.ok (.ok evs)) → e ∈ evs → e.body = .gameEnded v →
    Leads r.after.state v

/-- The record is an end of turn, accepted in an open game, whose round overtakes its first
winner. -/
def Overtakes (r : FRecord) : Prop :=
  ∃ a, Accepted r a ∧ a.payload = .endTurn ∧ r.before.machine ≠ .ended ∧ LastTurn r.before.state ∧
    Overtaken r.before.state

section Crowning

variable {s s' : FState} {a : FAction} {evs : List FEvent}

/-- The points after an end of turn. -/
theorem ended_vp (hs : Sound s) (hsorted : SeatSorted s.players.bySeat)
    (hids : (s.players.bySeat.map Player.id).Nodup) (hv : frontierScenario.validate s a = .ok ())
    (hx : (frontierScenario.execute a).run s = .ok evs s') (ha : a.payload = .endTurn) :
    s'.inventories.keys = s.inventories.keys ∧
      (LastTurn s → ∀ id ∈ s.inventories.keys, stock s' id "vp" = roundVp s id) ∧
      (¬ LastTurn s → ∀ id ∈ s.inventories.keys, stock s' id "vp" = stock s id "vp") := by
  obtain ⟨q, b, rounds, hend, hwrap⟩ := endTurn_wraps hs hsorted hids
  obtain ⟨_, _, hx', -, -, heff⟩ := acted_on hs hv
  rw [hx] at hx'
  cases hx'
  rw [execute_eq, ha] at hx
  refine ⟨heff.books.keys, fun hlast id hid => ?_, fun hlast id hid => ?_⟩
  · rw [endTurn_vp hend hx hid, if_pos (hwrap.mpr hlast), roundVp]
  · rw [endTurn_vp hend hx hid, if_neg fun hb => hlast (hwrap.mp hb), add_zero]

/-- The race at the end of a round. -/
theorem race_at_round_end (hs : Sound s) (hsorted : SeatSorted s.players.bySeat)
    (hids : (s.players.bySeat.map Player.id).Nodup) (hv : frontierScenario.validate s a = .ok ())
    (hx : (frontierScenario.execute a).run s = .ok evs s') (ha : a.payload = .endTurn)
    (hlast : LastTurn s) :
    (firstToEighteenVP s').map VictoryResult.winner =
      (s.inventories.keys.find? fun id => winVp ≤ roundVp s id).map some := by
  obtain ⟨hkeys, hround, -⟩ := ended_vp hs hsorted hids hv hx ha
  rw [firstToEighteenVP_winner, hkeys]
  exact congrArg _ (find?_of_agree fun id hid => by rw [hround hlast id hid])

/-- A race that is won, and not overtaken by its round, is won by the most points. -/
theorem race_leads (hs : Sound s) (hsorted : SeatSorted s.players.bySeat)
    (hids : (s.players.bySeat.map Player.id).Nodup) (hbelow : ∀ id, stock s id "vp" < winVp)
    (hv : frontierScenario.validate s a = .ok ())
    (hx : (frontierScenario.execute a).run s = .ok evs s')
    (hover : ¬ (a.payload = .endTurn ∧ LastTurn s ∧ Overtaken s)) {v : VictoryResult}
    (hwon : firstToEighteenVP s' = some v) : Leads s' v := by
  obtain ⟨_, _, hx', -, -, heff⟩ := acted_on hs hv
  rw [hx] at hx'
  cases hx'
  have hfirst : (s'.inventories.keys.find? fun id => winVp ≤ stock s' id "vp").map some =
      some v.winner := by
    rw [← firstToEighteenVP_winner, hwon]
    rfl
  obtain ⟨w, hw, hwinner⟩ := Option.map_eq_some_iff.mp hfirst
  have hpast : winVp ≤ stock s' w "vp" := by simpa using List.find?_some hw
  have hwkey : w ∈ s.inventories.keys := heff.books.keys ▸ List.mem_of_find?_eq_some hw
  refine ⟨fun w' hw' => ?_, fun hnone => by rw [← hwinner] at hnone; cases hnone⟩
  rw [← hwinner, Option.some.injEq] at hw'
  subst hw'
  intro pl hpl
  have hplkey : pl.id ∈ s.inventories.keys := hs.purses pl (heff.players ▸ hpl)
  by_cases hturn : a.payload = .endTurn
  · obtain ⟨hkeys, hround, hsame⟩ := ended_vp hs hsorted hids hv hx hturn
    by_cases hlast : LastTurn s
    · rw [hround hlast _ hplkey, hround hlast _ hwkey]
      by_contra hlt
      refine hover ⟨hturn, hlast, w, ?_, pl.id, hplkey, not_le.mp hlt⟩
      rw [← hw, hkeys]
      exact find?_of_agree fun id hid => by rw [hround hlast id hid]
    · rw [hsame hlast _ hwkey] at hpast
      exact absurd (hbelow w) (not_lt.mpr hpast)
  · have hactor : w = s.rounds.turn.activePlayer := by
      by_contra hne
      rw [heff.vp_others hturn hne] at hpast
      exact absurd (hbelow w) (not_lt.mpr hpast)
    by_cases hpl' : pl.id = s.rounds.turn.activePlayer
    · rw [hpl', hactor]
    · rw [heff.vp_others hturn hpl']
      exact (hbelow pl.id).le.trans hpast

end Crowning

theorem evaluate_of_race {s : FState} {v : VictoryResult} (h : firstToEighteenVP s = some v) :
    frontierScenario.evaluate s = some v := by
  simp only [Scenario.evaluate, frontierScenario, List.findSome?_cons, h]

theorem evaluate_cases {s : FState} {v : VictoryResult} (h : frontierScenario.evaluate s = some v) :
    firstToEighteenVP s = some v ∨ allTilesClaimed s = some v := by
  cases hfirst : firstToEighteenVP s with
  | some v' =>
    rw [evaluate_of_race hfirst] at h
    exact .inl h
  | none =>
    simp only [Scenario.evaluate, frontierScenario, List.findSome?_cons, List.findSome?_nil,
      hfirst] at h
    cases hfull : allTilesClaimed s with
    | none => simp [hfull] at h
    | some v' =>
      simp only [hfull] at h
      exact .inr h

section Outcome

variable {g g' : FGame} {s : FState} {a : FAction} {evs : List FEvent}
  {res : Except JsError (ActionResult FrontierEvent)}

theorem refused_spares {e : Refusal} (hv : frontierScenario.validate g.state a = .error e) :
    ¬ Overtakes ⟨g, .submit a res, g'⟩ := by
  rintro ⟨a', ⟨⟨res', hl⟩, hacc⟩, -⟩
  cases hl
  rw [Game.accepts_iff.mp hacc] at hv
  cases hv

/-- What an action does is never the end of the game. -/
theorem execute_quiet (hs : Sound g.state) (hv : frontierScenario.validate g.state a = .ok ())
    (hx : (frontierScenario.execute a).run g.state = .ok evs s) :
    ∀ e ∈ evs, ∀ v, e.body ≠ .gameEnded v := by
  intro e he v hbody
  obtain ⟨_, _, hx', -, -, heff⟩ := acted_on hs hv
  rw [hx] at hx'
  cases hx'
  have hnone := List.any_eq_false.mp heff.quiet e he
  simp [Game.isGameEnded, hbody] at hnone

/-- A round that overtakes somebody ends the game, and its winner is behind. -/
theorem overtakes_ends (hg : Contested g) (hv : frontierScenario.validate g.state a = .ok ())
    (hx : (frontierScenario.execute a).run g.state = .ok evs s)
    (hover : Overtakes ⟨g, .submit a res, g'⟩) :
    ∃ v w, firstToEighteenVP s = some v ∧ v.winner = some w ∧
      ∃ q ∈ g.state.inventories.keys, stock s w "vp" < stock s q "vp" := by
  obtain ⟨a', ⟨⟨res', hl⟩, -⟩, hturn, -, hlast, w, hw, q, hq, hlt⟩ := hover
  cases hl
  obtain ⟨-, hround, -⟩ := ended_vp hg.sound hg.sorted hg.ids hv hx hturn
  have hrace := race_at_round_end hg.sound hg.sorted hg.ids hv hx hturn hlast
  rw [hw] at hrace
  obtain ⟨v, hv', hwinner⟩ := Option.map_eq_some_iff.mp hrace
  have hwkey := List.mem_of_find?_eq_some hw
  exact ⟨v, w, hv', hwinner, q, hq, by rwa [hround hlast w hwkey, hround hlast q hq]⟩

/-- The result of an action that ends the game. -/
theorem won_leads_iff {victory : VictoryResult} (hg : Contested g)
    (hm : g.machine ≠ .ended) (hv : frontierScenario.validate g.state a = .ok ())
    (hx : (frontierScenario.execute a).run g.state = .ok evs s)
    (hev : frontierScenario.evaluate s = some victory) :
    Leads s victory ↔ ¬ Overtakes ⟨g, .submit a res, g'⟩ := by
  obtain ⟨_, _, hx', -, -, heff⟩ := acted_on hg.sound hv
  rw [hx] at hx'
  cases hx'
  constructor
  · intro hleads hover
    obtain ⟨v, w, hfirst, hwinner, q, hq, hlt⟩ := overtakes_ends hg hv hx hover
    have hvictory : v = victory := by
      have hsome := evaluate_of_race hfirst
      rw [hev] at hsome
      exact (Option.some.inj hsome).symm
    subst hvictory
    obtain ⟨pl, hpl, hid⟩ := List.mem_map.mp (hg.listed q hq)
    have hle : stock s pl.id "vp" ≤ stock s w "vp" :=
      hleads.winner w hwinner pl (heff.players.symm ▸ hpl)
    rw [hid] at hle
    exact absurd hlt (not_lt.mpr hle)
  · intro hover
    rcases evaluate_cases hev with hfirst | hfull
    · refine race_leads hg.sound hg.sorted hg.ids (hg.below hm) hv hx ?_ hfirst
      rintro ⟨hturn, hlast, hover'⟩
      exact hover ⟨a, ⟨⟨_, rfl⟩, Game.accepts_iff.mpr hv⟩, hturn, hm, hlast, hover'⟩
    · obtain ⟨pl, hpl, -⟩ := List.mem_map.mp hg.sound.turn
      have hin : s.players.all ≠ [] := List.ne_nil_of_mem (a := pl) (heff.players.symm ▸ hpl)
      refine allTilesClaimed_leads (heff.sound hg.sound hg.sound.turn) (fun id hid => ?_) hin hfull
      rw [heff.players]
      exact hg.listed id (heff.books.keys ▸ hid)

end Outcome

theorem crowned_iff {r : FRecord} (hg : Contested r.before)
    (h : Game.Step frontierScenario r.before r.label r.after) : Crowns r ↔ ¬ Overtakes r := by
  obtain ⟨g, c, g'⟩ := r
  dsimp only at hg h
  cases h.outcome no_rules with
  | started =>
    exact iff_of_true
      (by rintro a evs e v hl; cases hl) (by rintro ⟨a, ⟨⟨res, hl⟩, -⟩, -⟩; cases hl)
  | rejected hv => exact iff_of_true (by rintro a evs e v hl; cases hl) (refused_spares hv)
  | refused hv => exact iff_of_true (by rintro a evs e v hl; cases hl) (refused_spares hv)
  | crashed hv hx =>
    obtain ⟨_, _, hx', -⟩ := acted_on hg.sound hv
    rw [hx] at hx'
    cases hx'
  | @played a primary s hv hx hev =>
    refine iff_of_true ?_ fun hover => ?_
    · rintro _ _ e v hl he hbody
      cases hl
      obtain ⟨e₀, he₀, hb⟩ := Game.mem_stamp he
      exact absurd (hb ▸ hbody) (execute_quiet hg.sound hv hx e₀ he₀ v)
    · obtain ⟨v, -, hv', -⟩ := overtakes_ends hg hv hx hover
      have hfirst : firstToEighteenVP (g.executed a primary s).state = some v := hv'
      have hsome := (evaluate_isSome _).mpr
        (.inl ((firstToEighteenVP_isSome _).mp (by rw [hfirst]; rfl)))
      rw [hev] at hsome
      cases hsome
  | @stuck a primary s _ _ _ _ _ hm =>
    refine iff_of_true (by rintro a evs e v hl; cases hl) ?_
    rintro ⟨_, _, _, hm', -⟩
    exact hm' hm
  | @won a primary s victory hv hx hev hm =>
    rw [← won_leads_iff hg hm hv hx hev]
    constructor
    · intro hcrowns
      obtain ⟨e, he, hbody⟩ := Game.stamp_of_mem (E := FrontierEvent) (n := g.events.nextSeq)
        (List.mem_append_right primary (List.mem_singleton_self { body := .gameEnded victory }))
      have hleads := hcrowns a _ e victory rfl he hbody
      exact ⟨hleads.winner, hleads.draw⟩
    · rintro hleads _ _ e v hl he hbody
      cases hl
      obtain ⟨e₀, he₀, hb⟩ := Game.mem_stamp he
      rcases List.mem_append.mp he₀ with he₀ | he₀
      · exact absurd (hb ▸ hbody) (execute_quiet hg.sound hv hx e₀ he₀ v)
      · rw [hb, List.mem_singleton.mp he₀] at hbody
        cases hbody
        exact ⟨hleads.winner, hleads.draw⟩

/-! ## Runs -/

theorem terrainVp_le (terrain : String) : terrainVp terrain ≤ 3 := by
  unfold terrainVp
  split <;> norm_num

theorem placeHome_vp {s s' : FState} {player : Player} {coord : AxialCoord}
    (h : (placeHome player coord).run s = .ok () s') (id : PlayerId) :
    stock s' id "vp" ≤ stock s id "vp" + 3 := by
  cases htile : s.map.tileById (tileId coord) with
  | none =>
    rw [placeHome_off htile] at h
    cases h
    exact le_add_of_nonneg_right (by norm_num)
  | some tile =>
    obtain ⟨invs, q, hq, hb, hrun⟩ := placeHome_on player htile
    rw [hrun] at h
    cases h
    have hstock : stockOf (invs.get? id) "vp" = _ := hb.stock id "vp"
    have hle : q ≤ 3 := by
      rcases hq with rfl | rfl
      · norm_num
      · exact terrainVp_le _
    show stockOf (invs.get? id) "vp" ≤ _
    rw [hstock, Ledger.entry_apply]
    refine add_le_add le_rfl ?_
    split
    · exact hle
    · norm_num

theorem placeHomes_vp (es : List (Player × AxialCoord)) {s s' : FState} (id : PlayerId)
    (h : (Eff.each (fun e => placeHome e.1 e.2) es).run s = .ok () s') :
    stock s' id "vp" ≤ stock s id "vp" + 3 * es.length := by
  induction es generalizing s with
  | nil =>
    cases h
    simp
  | cons e es ih =>
    obtain ⟨_, s₁, h₁, h₂⟩ := Eff.bind_eq_ok.mp h
    have hone := placeHome_vp h₁ id
    have hrest := ih h₂
    rw [List.length_cons, Nat.cast_succ]
    linarith

theorem contested_fresh {opts : GameSetupOptions} {s : FState}
    (hid : (opts.players.map Player.id).Nodup) (hseat : (opts.players.map Player.seat).Nodup)
    (h : createGameState frontierScenario opts = .ok s) :
    Contested (Game.new s) := by
  have hf := fresh_state h
  obtain ⟨hsize, rounds, -, hset⟩ := createGameState_ok h
  obtain ⟨s', hrun, hp⟩ := onSetup_placing opts rounds
  have hset' : (onSetup opts.players).run (freshState frontierScenario opts rounds) =
      .ok () s := hset
  rw [hrun] at hset'
  cases hset'
  refine
    { sound := fresh_sound hf
      sorted := by
        rw [show (Game.new s).state.players = _ from hf.players]
        exact PlayerManager.new_sorted hseat
      ids := ?_
      listed := fun id hin => ?_
      below := fun _ id => ?_ }
  · rw [show (Game.new s).state.players = _ from hf.players]
    exact (PlayerManager.new_ids opts.players).nodup_iff.mpr hid
  · have hkeys : s.inventories.keys = opts.players.map Player.id := by
      rw [hp.keys, OrderedMap.keys]
      show (OrderedMap.ofEntries (opts.players.map fun p =>
          (p.id, Inventory.empty))).entries.map Prod.fst = _
      rw [OrderedMap.entries_ofEntries (by rwa [List.map_map]), List.map_map]
      rfl
    show id ∈ s.players.bySeat.map Player.id
    rw [hf.players, (PlayerManager.new_ids opts.players).mem_iff]
    exact hkeys ▸ hin
  · have hle := placeHomes_vp _ id hrun
    have hzero : stock (freshState frontierScenario opts rounds) id "vp" = 0 := by
      show stockOf ((freshState frontierScenario opts rounds).inventories.get? id) "vp" = 0
      cases hinv : (freshState frontierScenario opts rounds).inventories.get? id with
      | none => rfl
      | some inv =>
        rw [(starting_inventories opts.players).2 id inv hinv]
        rfl
    have hfew : (opts.players.zip (startingCoords opts.players.length)).length ≤ 4 := by
      rw [List.length_zip]
      exact (Nat.min_le_left _ _).trans hsize.2
    have hfew' : ((opts.players.zip (startingCoords opts.players.length)).length : ℚ) ≤ 4 := by
      exact_mod_cast hfew
    rw [hzero, zero_add] at hle
    show stock s id "vp" < 18
    linarith

/-- **The winner leads unless the round overtakes them.** In every run, a submit that returns the
end of the game names a player with the most points, or nobody while two have the most, exactly if
it is not the end of a round that brings the first player in the roster past the mark and another
further. -/
theorem winner_leads_iff {opts : GameSetupOptions} {s : FState}
    (hid : (opts.players.map Player.id).Nodup) (hseat : (opts.players.map Player.seat).Nodup)
    (hs : createGameState frontierScenario opts = .ok s) {rs : List FRecord} {g : FGame}
    (h : Trace (Recorded (Game.Step frontierScenario)) (Game.new s) rs g) :
    ∀ r ∈ rs, Crowns r ↔ ¬ Overtakes r := by
  intro r hr
  obtain ⟨hg, hstep⟩ := Recorded.forall_inv (I := Contested)
    (fun _ _ _ hg hstep => contested_step hg hstep) h
    (contested_fresh hid hseat hs) r hr
  exact crowned_iff hg hstep

/-! ## A lost lead -/

/-- `p2` gets further than `p1` with the forts of the last round. -/
def latecomer : List (Game.Request FrontierPayload) :=
  [.start, request "p1" (.claimTile "3,-3"), request "p1" .endTurn,
    request "p2" (.claimTile "-2,1"), request "p2" .endTurn,
    request "p1" (.claimTile "3,-1"), request "p1" .endTurn,
    request "p2" (.claimTile "-1,0"), request "p2" (.fortify "-1,0"), request "p2" .endTurn,
    request "p1" (.claimTile "2,0"), request "p1" (.fortify "2,0"), request "p1" .endTurn,
    request "p2" (.claimTile "0,-1"), request "p2" (.fortify "0,-1"), request "p2" .endTurn,
    request "p1" (.claimTile "2,1"), request "p1" (.trade "wood"), request "p1" .endTurn,
    request "p2" (.trade "wood"), request "p2" .endTurn]

/-- The results that a call returns. -/
def verdicts : FCall → List VictoryResult
  | .submit _ (.ok (.ok evs)) => evs.filterMap fun e =>
    match e.body with
    | .gameEnded v => some v
    | _ => none
  | _ => []

theorem of_mem_verdicts {c : FCall} {v : VictoryResult} (h : v ∈ verdicts c) :
    ∃ a evs e, c = .submit a (.ok (.ok evs)) ∧ e ∈ evs ∧ e.body = .gameEnded v := by
  unfold verdicts at h
  split at h
  · rename_i a evs
    obtain ⟨e, he, hv⟩ := List.mem_filterMap.mp h
    refine ⟨a, evs, e, rfl, he, ?_⟩
    split at hv
    · rename_i v' hbody
      cases hv
      exact hbody
    · cases hv
  · cases h

theorem latecomer_filmed :
    ∃ s rs g, createGameState frontierScenario { pair with seed := "s4" } = .ok s ∧
    Trace (Recorded (Game.Step frontierScenario)) (Game.new s) rs g ∧ ∃ r ∈ rs,
      (∃ v ∈ verdicts r.label, v.winner = some "p1") ∧ stock r.after.state "p1" "vp" = 18 ∧
      stock r.after.state "p2" "vp" = 19 ∧ r.after.state.players.all.map Player.id =
        ["p1", "p2"] := by
  have hobserved : (createGameState frontierScenario { pair with seed := "s4" }).toOption.bind
    (fun s =>
      (film (Game.turn frontierScenario) (Game.new s) latecomer).map fun m =>
        m.1.getLast?.map fun r : FRecord => (decide (∃ v ∈ verdicts r.label, v.winner = some "p1"),
          stock r.after.state "p1" "vp", stock r.after.state "p2" "vp",
          r.after.state.players.all.map Player.id)) =
      some (some (true, 18, 19, ["p1", "p2"])) := by decide +kernel
  obtain ⟨s, rs, g, hs, htrace, hlast⟩ := film_observed Game.turn_step hobserved
  obtain ⟨r, hr, hx⟩ := Option.map_eq_some_iff.mp hlast
  have hmem : r ∈ rs := List.mem_of_getLast? hr
  simp only [Prod.mk.injEq, decide_eq_true_eq] at hx
  exact ⟨s, rs, g, hs, htrace, r, hmem, hx⟩

/-- The race is declared for `p1` with 18 points when `p2` has 19. -/
theorem winner_trails :
    ∃ s rs g, createGameState frontierScenario { pair with seed := "s4" } = .ok s ∧
    Trace (Recorded (Game.Step frontierScenario)) (Game.new s) rs g ∧
    ∃ r ∈ rs, ∃ a evs e v, r.label = .submit a (.ok (.ok evs)) ∧ e ∈ evs ∧ e.body = .gameEnded v ∧
      v.winner = some "p1" ∧ stock r.after.state "p1" "vp" < stock r.after.state "p2" "vp" ∧
      ¬ Crowns r := by
  obtain ⟨s, rs, g, hs, htrace, r, hr, ⟨v, hv, hwinner⟩, hone, htwo, hin⟩ := latecomer_filmed
  obtain ⟨a, evs, e, hlabel, he, hbody⟩ := of_mem_verdicts hv
  have hlt : stock r.after.state "p1" "vp" < stock r.after.state "p2" "vp" := by
    rw [hone, htwo]
    norm_num
  refine ⟨s, rs, g, hs, htrace, r, hr, a, evs, e, v, hlabel, he, hbody, hwinner, hlt,
    fun hcrowns => ?_⟩
  obtain ⟨pl, hpl, hid⟩ := List.mem_map.mp (hin ▸ List.mem_cons_of_mem _ List.mem_cons_self :
    "p2" ∈ r.after.state.players.all.map Player.id)
  have hle := (hcrowns a evs e v hlabel he hbody).winner "p1" hwinner pl hpl
  rw [hid] at hle
  exact absurd hlt (not_lt.mpr hle)

theorem winner_leads_iff_latecomer :
    ∃ s rs g, createGameState frontierScenario { pair with seed := "s4" } = .ok s ∧
    Trace (Recorded (Game.Step frontierScenario)) (Game.new s) rs g ∧ ∀ r ∈ rs, Crowns r ↔
    ¬ Overtakes r := by
  obtain ⟨s, rs, g, hs, htrace, -⟩ := latecomer_filmed
  exact ⟨s, rs, g, hs, htrace, winner_leads_iff (by decide) (by decide) hs htrace⟩

end Boardgame.Frontier
