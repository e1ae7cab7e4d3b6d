import Boardgame.Core.Journal
import Boardgame.Frontier.Victory

/-!
# Frontier.Journal

* `frontier_steady`: Frontier keeps to what the journal relies on.
* `frontier_replays`: a Frontier game is rebuilt from its journal, past its end as well.
-/

namespace Boardgame.Frontier

theorem Effect.status {s s' : FState} {p : PlayerId} {payload : FrontierPayload} {evs : List FEvent}
    (h : Effect s p payload evs s') : s'.status = s.status := by
  cases h <;> rfl

theorem frontier_steady (opts : GameSetupOptions) : Game.Steady frontierScenario opts Sound where
  rules := no_rules
  opens s hs := by
    have hf := fresh_state hs
    exact ⟨hf.status, hf.history, fresh_sound hf⟩
  frame _ status history hs := sound_frame hs status history
  acts s a hs hv := by
    obtain ⟨evs, s', hx, _, _, heff⟩ := acted_on hs hv
    exact ⟨evs, s', hx, heff.status, heff.history, heff.sound hs hs.turn⟩

/-- A Frontier game that was started when it was created, at any two moments of it. -/
theorem frontier_replays {opts : GameSetupOptions} {calls later : List FCall} {g g' : FGame}
    (h : Game.RunFrom frontierScenario opts (.start :: calls) g)
    (hlater : Trace (Game.Step frontierScenario) g later g') :
    Game.Replays frontierScenario opts g g' :=
  (frontier_steady opts).replays h hlater

/-- The call after the end throws, and is replayed with the rest. -/
theorem overtime_replays : ∃ calls g, Game.play frontierScenario pair fourClaims =
    .ok (.start :: calls, g) ∧
    g.machine = .ended ∧
    Game.Replays frontierScenario pair g (Game.replay frontierScenario g [.submit pass]).2 := by
  have hplay : (Game.play frontierScenario pair (.start :: fourClaims.tail)).toOption.map
      (fun r => r.2.machine) = some .ended := by decide +kernel
  obtain ⟨calls, g, hr, hrun, hm⟩ := Game.play_started hplay
  exact ⟨calls, g, hr, hm, frontier_replays hrun (Game.replay_trace [.submit pass] g)⟩

theorem overtime_journal :
    ∃ r, Game.play frontierScenario pair (fourClaims ++ [.submit pass]) = .ok r ∧
    r.2.machine = .ended ∧ Game.Kept r.2 := by
  have hplay : (Game.play frontierScenario pair (fourClaims ++ [.submit pass])).toOption.map
      (fun r => r.2.machine) = some .ended := by decide +kernel
  obtain ⟨r, hr, hrun, hm⟩ := Game.play_observed hplay
  exact ⟨r, hr, hm, Game.journal_exact (frontier_steady pair) hrun⟩

end Boardgame.Frontier
