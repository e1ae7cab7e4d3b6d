import Boardgame.Core.Moves
import Boardgame.Kingdoms.Consistent

/-!
# Kingdoms.Moves

Kingdoms runs one call at a time, with the game before and after each.

* `move_of_step`: on a sound game an accepted action has its `Effect`.
-/

namespace Boardgame.Kingdoms

open Game (newEvents Emits)

variable {R : Type} [Strength R]

abbrev accepts (g : KGame R) (a : KAction) : Bool := Game.accepts (kingdomsScenario R) g a

/-- An accepted action is the active player's, and has its effect. -/
def ActedOn (s : KState R) (a : KAction) (evs : List (KEvent R)) (s' : KState R) : Prop :=
  a.playerId = some s.rounds.turn.activePlayer ∧ s.rounds.turn.activePlayer ≠ "" ∧
    Effect s s.rounds.turn.activePlayer a.payload evs s'

abbrev Move (g : KGame R) (c : KCall R) (g' : KGame R) : Prop :=
  Game.Move (kingdomsScenario R) ActedOn g c g'

theorem move_of_step {g g' : KGame R} {c : KCall R} (hs : Sound g.state)
    (h : Game.Step (kingdomsScenario R) g c g') : Move g c g' := by
  refine h.move no_rules fun a hv => ?_
  obtain ⟨hact, hne, evs, s', hx, heff⟩ := accepted_effect hs hv
  exact ⟨evs, s', hx, hact, hne, heff⟩

/-- The action is accepted, and its executor returns. -/
def Ran (s : KState R) (a : KAction) (evs : List (KEvent R)) (s' : KState R) : Prop :=
  (kingdomsScenario R).validate s a = .ok () ∧ ((kingdomsScenario R).execute a).run s = .ok evs s'

theorem ran_of_step {g g' : KGame R} {c : KCall R} (hs : Sound g.state)
    (h : Game.Step (kingdomsScenario R) g c g') : Game.Move (kingdomsScenario R) Ran g c g' := by
  refine h.move no_rules fun a hv => ?_
  obtain ⟨_, _, evs, s', hx, _⟩ := accepted_effect hs hv
  exact ⟨evs, s', hx, hv, hx⟩

/-- Whatever an executor returns on an accepted action is its effect. -/
theorem acted_of_run {s s' : KState R} {a : KAction} {evs : List (KEvent R)} (hs : Sound s)
    (hv : (kingdomsScenario R).validate s a = .ok ())
    (hx : ((kingdomsScenario R).execute a).run s = .ok evs s') : ActedOn s a evs s' := by
  obtain ⟨hact, hne, _, _, hx', heff⟩ := accepted_effect hs hv
  rw [hx] at hx'
  cases hx'
  exact ⟨hact, hne, heff⟩

theorem not_crashed {s s' : KState R} {a : KAction} {e : JsError} (hs : Sound s)
    (hv : (kingdomsScenario R).validate s a = .ok ()) :
    ((kingdomsScenario R).execute a).run s ≠ .error e s' := by
  obtain ⟨_, _, _, _, hx, _⟩ := accepted_effect hs hv
  rw [hx]
  simp

/-- A call with the game before and after it. -/
abbrev KRecord (R : Type) := Record (KGame R) (KCall R)

abbrev KRun (g : KGame R) (rs : List (KRecord R)) (g' : KGame R) : Prop :=
  Trace (Recorded (Game.Step (kingdomsScenario R))) g rs g'

end Boardgame.Kingdoms
