import Boardgame.Engine.Concurrent
import Boardgame.Frontier.Permitted
import Boardgame.Kingdoms.Permitted

/-!
# Engine.Finished

What can still be done to a game that has ended. No rule of either scenario asks for the status of
the game, so the player on turn can go on: in Kingdoms the survivor, in Frontier whoever the end
left on turn.

* `ended_machine`: once a submit has returned `game-ended`, the status machine has ended for good.
* `lingers`: what the validators let pass then, and what it does.
* `frozen_iff`: which later submits leave a finished game as it is.
-/

namespace Boardgame.Engine

/-! ## The end lasts -/

section Lasting

variable {X P E : Type} [HasType P] {sc : Scenario X P E} {opts : GameSetupOptions}
  {calls : List (Game.Call P E)} {g g' : Game X P E} {c : Game.Call P E}

theorem ended_step (hp : Plays sc opts) (hrun : Game.RunFrom sc opts calls g)
    (h : Game.Step sc g c g') (hend : g.machine = .ended ∨ Game.endsGame c = true) :
    g'.machine = .ended := by
  cases h.outcome hp.rules with
  | started =>
    rcases hend with hm | hc
    · rw [Game.start_ended hm, hm]
    · cases hc
  | rejected => exact hend.resolve_right fun hc => by cases hc
  | refused => exact hend.resolve_right fun hc => by cases hc
  | crashed hv hx =>
    obtain ⟨_, _, hx', -⟩ := hp.runs hrun hv
    rw [hx] at hx'
    cases hx'
  | @played a primary s hv hx =>
    refine hend.resolve_right fun hc => ?_
    obtain ⟨_, _, hx', hquiet⟩ := hp.runs hrun hv
    rw [hx] at hx'
    cases hx'
    -- an executor reports no end of the game, so it was not this call that ended it
    rw [Game.endsGame, any_isGameEnded_stamp, hquiet] at hc
    cases hc
  | won => rfl
  | stuck _ _ _ hm => exact hm

theorem ended_machine (hp : Plays sc opts) (h : Game.RunFrom sc opts calls g)
    (hended : Game.Ended calls) :
    g.machine = .ended := by
  obtain ⟨s, hs, htr⟩ := h
  have hrun := htr.inv_labels
    (I := fun calls g => Game.RunFrom sc opts calls g ∧ (Game.Ended calls → g.machine = .ended))
    (fun pre g c g' ⟨hrun, hm⟩ hstep => ⟨hrun.snoc hstep, fun hend => ended_step hp hrun hstep ?_⟩)
      []
    ⟨⟨s, hs, .nil⟩, fun ⟨c, hc, _⟩ => absurd hc List.not_mem_nil⟩
  · exact hrun.2 hended
  · obtain ⟨c', hc', hends⟩ := hend
    rcases List.mem_append.mp hc' with hc' | hc'
    · exact .inl (hm ⟨c', hc', hends⟩)
    · exact .inr (List.mem_singleton.mp hc' ▸ hends)

end Lasting

/-! ## What is still open -/

variable {R : Type}

/-- What a game still takes after its end: in Kingdoms what the rules let the survivor do, in
Frontier what they let the player on turn do. -/
def StillOpen : (id : Registered) → GameState id.Extras id.Payload (id.Event R) →
    Action id.Payload → Prop
  | .frontier, s, a =>
    Frontier.OnTurn s a.playerId ∧ Frontier.Permitted s s.rounds.turn.activePlayer a.payload
  | .kingdoms, s, a =>
    ∃ survivor, s.players.active = [survivor] ∧ a.playerId = some survivor.id ∧
      Kingdoms.Permitted s survivor.id a.payload

/-- The `end-turn` of a scenario. -/
def Registered.endTurn : (id : Registered) → id.Payload
  | .frontier => .endTurn
  | .kingdoms => .endTurn

variable [Strength R]

/-- What the validators let pass after the end, and what it does. -/
structure Lingers (id : Registered) (g : Game id.Extras id.Payload (id.Event R)) : Prop where
  accepted : ∀ a, (id.scenario R).validate g.state a = .ok () ↔ StillOpen id g.state a
  answers : ∀ a, Answers ((id.scenario R).validate g.state a)
  overruns : ∀ a, StillOpen id g.state a → Game.Overruns (id.scenario R) g a
  endTurn : id = .kingdoms ∨ g.state.rounds.turn.activePlayer ≠ "" →
    ∀ n, StillOpen id g.state ⟨some g.state.rounds.turn.activePlayer, id.endTurn, n⟩

theorem frontier_lingers {g : Frontier.FGame} (hg : Frontier.Settled g) (hm : g.machine = .ended) :
    Lingers (R := R) .frontier g := by
  have haccepted : ∀ a, Frontier.frontierScenario.validate g.state a = .ok () ↔
      StillOpen (R := R) .frontier g.state a := by
    intro a
    rw [Frontier.validate_eq]
    exact Frontier.validatePayload_ok hg.sound a.payload
  exact ⟨haccepted, Frontier.validate_answers hg.sound,
    fun a ha => Frontier.accepted_overruns hg hm ((haccepted a).mpr ha),
    fun hne _ => ⟨⟨rfl, hne.resolve_left fun heq => by cases heq⟩, trivial⟩⟩

theorem kingdoms_lingers {g : Kingdoms.KGame R} (hg : Kingdoms.Settled g)
    (hm : g.machine = .ended) :
    Lingers .kingdoms g := by
  obtain ⟨halone, hne⟩ := hg.alone hm
  obtain ⟨survivor, honly, hturn⟩ : ∃ survivor, g.state.players.active = [survivor] ∧
      survivor.id = g.state.rounds.turn.activePlayer :=
      List.map_eq_singleton_iff.mp (halone.ids hg.sound)
  have haccepted : ∀ a, (Kingdoms.kingdomsScenario R).validate g.state a = .ok () ↔
      StillOpen .kingdoms g.state a := by
    intro a
    constructor
    · intro hv
      have hp : a.playerId = some survivor.id :=
        (Kingdoms.guard_ok.mp (Kingdoms.validate_guard hv)).1.trans (congrArg some hturn.symm)
      rw [Kingdoms.validate_eq, hp] at hv
      exact ⟨survivor, honly, hp, ((Kingdoms.validatePayload_ok a.payload).mp hv).2⟩
    · rintro ⟨q, hq, hp, hpermitted⟩
      rw [honly, List.cons.injEq] at hq
      obtain rfl := hq.1
      rw [Kingdoms.validate_eq, hp]
      exact (Kingdoms.validatePayload_ok a.payload).mpr
        ⟨hturn ▸ Kingdoms.guard_onTurn hg.sound hne, hpermitted⟩
  exact ⟨haccepted, Kingdoms.validate_answers g.state,
    fun a ha => Kingdoms.accepted_overruns hg hm ((haccepted a).mpr ha),
    fun _ _ => ⟨survivor, honly, congrArg some hturn.symm, trivial⟩⟩

theorem lingers (id : Registered) {opts : GameSetupOptions}
    (hid : (opts.players.map Player.id).Nodup) (hseat : (opts.players.map Player.seat).Nodup)
    {calls : List (Game.Call id.Payload (id.Event R))} {g : Game id.Extras id.Payload (id.Event R)}
    (hrun : Game.RunFrom (id.scenario R) opts calls g) (hended : Game.Ended calls) :
    Lingers id g := by
  have hm := ended_machine (id.plays hid hseat) hrun hended
  cases id with
  | frontier => exact frontier_lingers (Frontier.settled_reachable hrun) hm
  | kingdoms => exact kingdoms_lingers (Kingdoms.settled_reachable hid hseat hrun) hm

/-- **A finished game is frozen** if and only if nothing is submitted that is still open. What is
still open throws, and is recorded and emitted all the same; the end-turn of the player on turn
always is. -/
theorem frozen_iff (id : Registered) {opts : GameSetupOptions}
    (hid : (opts.players.map Player.id).Nodup) (hseat : (opts.players.map Player.seat).Nodup)
    {calls later : List (Game.Call id.Payload (id.Event R))}
    {g g' : Game id.Extras id.Payload (id.Event R)}
    (hrun : Game.RunFrom (id.scenario R) opts calls g) (hended : Game.Ended calls)
    (h : Trace (Game.Step (id.scenario R)) g later g') :
    (Game.Frozen g later g' ↔ ∀ a r, Game.Call.submit a r ∈ later → ¬ StillOpen id g.state a) ∧
      (∀ a, StillOpen id g.state a → Game.Overruns (id.scenario R) g a) ∧
      (id = .kingdoms ∨ g.state.rounds.turn.activePlayer ≠ "" →
        ∀ n, StillOpen id g.state ⟨some g.state.rounds.turn.activePlayer, id.endTurn, n⟩) := by
  have hl := lingers id hid hseat hrun hended
  have hrejects : ∀ a, Game.Rejects (id.scenario R) g a ↔ ¬ StillOpen id g.state a := by
    intro a
    rw [← hl.accepted]
    exact (hl.answers a).rejects_iff
  refine ⟨?_, hl.overruns, hl.endTurn⟩
  rw [Game.frozen_submits h (Game.start_ended (ended_machine (id.plays hid hseat) hrun hended))]
  exact forall_congr' fun a => forall_congr' fun r => imp_congr_right fun _ => hrejects a

/-- The winner of `Frontier.fourClaims` ends the turn after the end. -/
theorem overtime_frozen_iff : ∃ calls later g g',
    Game.RunFrom (Registered.frontier.scenario ℚ) Frontier.pair calls g ∧ Game.Ended calls ∧
      Trace (Game.Step (Registered.frontier.scenario ℚ)) g later g' ∧ later.length = 1 ∧
      (Game.Frozen g later g' ↔
        ∀ a r, Game.Call.submit a r ∈ later → ¬ StillOpen (R := ℚ) .frontier g.state a) ∧
      StillOpen (R := ℚ) .frontier g.state Frontier.pass ∧
      Game.Overruns (Registered.frontier.scenario ℚ) g Frontier.pass := by
  obtain ⟨r, _, hfrom, hend, _, _, e, g', hsub, hturn, _⟩ := Frontier.overtime
  have htrace : Trace (Game.Step (Registered.frontier.scenario ℚ)) r.2
      [.submit Frontier.pass (.error e)] g' :=
    .single (.threw hsub)
  obtain ⟨hfrozen, hoverruns, hopen⟩ :=
    frozen_iff .frontier (by decide) (by decide) hfrom hend htrace
  have hpass : StillOpen (R := ℚ) .frontier r.2.state Frontier.pass := by
    have h := hopen (.inr (by rw [hturn]; decide)) none
    rwa [hturn] at h
  exact ⟨r.1, _, r.2, g', hfrom, hend, htrace, rfl, hfrozen, hpass, hoverruns _ hpass⟩

end Boardgame.Engine
