import Boardgame.Kingdoms.Armory
import Boardgame.Kingdoms.Income

/-!
# Kingdoms.Cycles

The cycles of a round end do not depend on each other: income and upkeep are read from the board,
which no cycle changes, and a cycle reads and writes one player's inventory.

* `Independent`: every player has what their own cycle, run alone, gives them.
* `round_end_independent`: the round end, and its loop over the players in any order.
-/

namespace Boardgame.Kingdoms

variable {R : Type}

/-- `s'` is what the cycles of `ps`, each on the state `s`, make of it; `own pl` are the events of
the cycle of `pl`. -/
structure Independent (s : KState R) (ps : List Player) (own : Player → List (KEvent R))
    (s' : KState R) :
    Prop where
  /-- Only inventories change: not ownership, pieces, loyalty or developed tiles. -/
  frame : ∃ invs, s' = { s with inventories := invs }
  others : ∀ q, q ∉ ps.map Player.id → s'.inventories.get? q = s.inventories.get? q
  alone : ∀ pl ∈ ps, ∃ t, (processPlayerCycle pl.id).run s = .ok (own pl) t ∧
    s'.inventories.get? pl.id = t.inventories.get? pl.id
  reported : ∀ pl ∈ ps, kEvent pl.id (.incomeCollected (computeIncome s pl.id)) ∈ own pl
  credited : ∀ pl ∈ ps, ∃ inv inv', s.inventories.get? pl.id = some inv ∧
    s'.inventories.get? pl.id = some inv' ∧
    inv'.get = fedCount (fun r => inv.get r + (computeIncome s pl.id).of r)
      (computeFoodCost s pl.id)

section Loop

variable {s : KState R}

/-- The cycles one after the other, in the order of `ps`. -/
theorem cycles_independent (hm : Fertile s.map) {ps : List Player} (hnd : (ps.map Player.id).Nodup)
    (hinv : ∀ p ∈ ps, ∃ inv, s.inventories.get? p.id = some inv ∧ inv.Whole) :
    ∃ own s', (Eff.collect (fun player => processPlayerCycle player.id) ps).run s =
      .ok (ps.flatMap own) s' ∧
      Independent s ps own s' := by
  obtain ⟨invs, hrun, hout, hin⟩ := cycles_run ps hnd s hinv
  refine ⟨_, _, hrun, ⟨invs, rfl⟩, hout, fun pl hpl => ?_, fun pl hpl => List.mem_cons_self,
    fun pl hpl => ?_⟩
  · obtain ⟨inv, hget, _⟩ := hinv pl hpl
    obtain ⟨inv', hget', _, halone⟩ := hin pl hpl inv hget
    refine ⟨_, by rw [hget]; exact halone, ?_⟩
    rw [GameState.setInventory_same]
    exact hget'
  · obtain ⟨inv, hget, _⟩ := hinv pl hpl
    obtain ⟨inv', hget', hcount, _⟩ := hin pl hpl inv hget
    refine ⟨inv, inv', hget, hget', hcount.trans ?_⟩
    rw [cycleCount]
    exact congrArg (fedCount · _) (funext fun r => paidCount_eq hm pl.id inv r)

/-- The round end is the loop, in the order of the seats, and reports that change nothing. -/
theorem processRoundEnd_loop {evs : List (KEvent R)} {s' : KState R}
    (h : (Eff.collect (fun player => processPlayerCycle player.id) s.players.active).run s =
      .ok evs s') :
    ∃ reports, processRoundEnd.run s = .ok (evs ++ reports) s' := by
  simp only [processRoundEnd, EStateM.run_bind, EStateM.run_get, h, EStateM.run_pure,
    List.append_assoc]
  exact ⟨_, rfl⟩

end Loop

variable [Strength R]

/-- **The round end is independent across players**: whatever the order, each active player gets
what their own cycle gives them on the state before. -/
theorem round_end_independent {opts : GameSetupOptions} (hid : (opts.players.map Player.id).Nodup)
    (hseat : (opts.players.map Player.seat).Nodup) {calls : List (KCall R)} {g : KGame R}
    (h : Game.RunFrom (kingdomsScenario R) opts calls g) :
    (∀ ps : List Player, ps.Perm g.state.players.active →
      ∃ own s', (Eff.collect (fun player => processPlayerCycle player.id) ps).run g.state =
          .ok (ps.flatMap own) s' ∧ Independent g.state ps own s') ∧
      ∃ own reports s', processRoundEnd.run g.state =
          .ok (g.state.players.active.flatMap own ++ reports) s' ∧
        Independent g.state g.state.players.active own s' := by
  obtain ⟨hs, -, -⟩ := board_reachable hid hseat h
  have hm : Fertile g.state.map := by
    rw [(armory_reachable hid hseat h).ground.map]
    exact kingdomsMap_fertile _ _
  have hnd : (g.state.players.active.map Player.id).Nodup := hs.ids.sublist (active_sublist.map _)
  have hpurse : ∀ p ∈ g.state.players.active,
      ∃ inv, g.state.inventories.get? p.id = some inv ∧ inv.Whole := by
    intro p hp
    obtain ⟨inv, hinv⟩ := hs.purses p (active_sublist.subset hp)
    exact ⟨inv, hinv, hs.whole _ _ hinv⟩
  constructor
  · intro ps hperm
    exact cycles_independent hm ((hperm.map _).nodup_iff.mpr hnd) fun p hp =>
      hpurse p (hperm.mem_iff.mp hp)
  · obtain ⟨own, s', hrun, hind⟩ := cycles_independent hm hnd hpurse
    obtain ⟨reports, hend⟩ := processRoundEnd_loop hrun
    exact ⟨own, reports, s', hend, hind⟩

/-- After three rounds of a game of two, the second player first. -/
theorem round_end_independent_reverse : ∃ r, Game.play (kingdomsScenario ℚ) duel threeHits = .ok r ∧
    r.2.state.players.active.reverse.map Player.id = ["p2", "p1"] ∧
    ∃ own s', (Eff.collect (fun player => processPlayerCycle player.id)
      r.2.state.players.active.reverse).run
        r.2.state = .ok (r.2.state.players.active.reverse.flatMap own) s' ∧
      Independent r.2.state r.2.state.players.active.reverse own s' := by
  have hobserved : (Game.play (kingdomsScenario ℚ) duel threeHits).toOption.map
      (fun r => r.2.state.players.active.reverse.map Player.id) = some ["p2", "p1"] := by
        decide +kernel
  obtain ⟨r, hr, hrun, hx⟩ := Game.play_observed hobserved
  exact ⟨r, hr, hx, (round_end_independent (by decide) (by decide) hrun).1 _ (List.reverse_perm _)⟩

end Boardgame.Kingdoms
