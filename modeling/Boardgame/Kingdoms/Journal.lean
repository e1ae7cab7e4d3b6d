import Boardgame.Core.Journal
import Boardgame.Kingdoms.Safety

/-!
# Kingdoms.Journal

* `kingdoms_steady`: Kingdoms keeps to what the journal relies on.
* `kingdoms_replays`: a Kingdoms game is rebuilt from its journal.
-/

namespace Boardgame.Kingdoms

variable {R : Type} [Strength R]

theorem kingdoms_steady {opts : GameSetupOptions} (hid : (opts.players.map Player.id).Nodup)
    (hseat : (opts.players.map Player.seat).Nodup) :
    Game.Steady (kingdomsScenario R) opts Sound where
  rules := no_rules
  opens s hs := by
    have hf := fresh_state hs
    exact ⟨hf.status, hf.history, fresh_sound hf hid hseat⟩
  frame _ status history hs := sound_frame hs status history
  acts s a hs hv := by
    obtain ⟨_, _, evs, s', hx, heff⟩ := accepted_effect hs hv
    obtain ⟨hstatus, hhist, -⟩ := heff.frame
    exact ⟨evs, s', hx, hstatus, hhist, heff.sound hs⟩

/-- A Kingdoms game that was started when it was created, at any two moments of it. -/
theorem kingdoms_replays {opts : GameSetupOptions} (hid : (opts.players.map Player.id).Nodup)
    (hseat : (opts.players.map Player.seat).Nodup) {calls later : List (KCall R)} {g g' : KGame R}
    (h : Game.RunFrom (kingdomsScenario R) opts (.start :: calls) g)
    (hlater : Trace (Game.Step (kingdomsScenario R)) g later g') :
    Game.Replays (kingdomsScenario R) opts g g' :=
  (kingdoms_steady hid hseat).replays h hlater

/-- A round, a call out of turn, which leaves no trace, and two more rounds. -/
theorem threeHits_replays : ∃ calls g,
    Game.play (kingdomsScenario ℚ) duel (threeHits.take 4 ++ [request "p2" .endTurn]) =
      .ok (.start :: calls, g) ∧
    g.state.history.length = 3 ∧
    Game.Replays (kingdomsScenario ℚ) duel g
      (Game.replay (kingdomsScenario ℚ) g (threeHits.drop 4)).2 := by
  have hplay : (Game.play (kingdomsScenario ℚ) duel
      (.start :: ((threeHits.take 4).tail ++ [request "p2" .endTurn]))).toOption.map
      (fun r => r.2.state.history.length) = some 3 := by decide +kernel
  obtain ⟨calls, g, hr, hrun, hlen⟩ := Game.play_started hplay
  exact ⟨calls, g, hr, hlen, kingdoms_replays (by decide) (by decide) hrun
    (Game.replay_trace (threeHits.drop 4) g)⟩

end Boardgame.Kingdoms
