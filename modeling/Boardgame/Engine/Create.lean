import Boardgame.Frontier.Setup
import Boardgame.Kingdoms.Setup

/-!
# Engine.Create

How the engine makes a game of a `game-starting` event (`game-runner.service.ts`,
`scenario.registry.ts`, `EngineService.createGame` up to the started game).

* `createGame_returns_iff`: for a scenario it knows, it returns a game exactly for a roster within
  the scenario's bounds.
-/

namespace Boardgame.Engine

def playerColors : List String := ["red", "blue", "green", "yellow", "orange", "purple"]

/-- The roster the handler makes of the players of the event: the seats count from 0. -/
def gamePlayers (ps : List (PlayerId × String)) : List Player :=
  ps.mapIdx fun i p =>
    { id := p.1
      displayName := p.2
      color := (playerColors[i % playerColors.length]?).getD ""
      seat := i }

/-- A game the engine holds, of one of the scenarios it registers at boot. -/
inductive Instance (R : Type) where
  | frontier (game : Frontier.FGame)
  | kingdoms (game : Kingdoms.KGame R)

/-- The player bounds of a registered scenario. -/
def bounds (R : Type) [Strength R] (scenarioId : String) : Option (Nat × Nat) :=
  if scenarioId = Frontier.frontierScenario.id then
    some (Frontier.frontierScenario.minPlayers, Frontier.frontierScenario.maxPlayers)
  else if scenarioId = (Kingdoms.kingdomsScenario R).id then
    some ((Kingdoms.kingdomsScenario R).minPlayers, (Kingdoms.kingdomsScenario R).maxPlayers)
  else none

variable (R : Type) [Strength R]

/-- `createGame`: the game is set up, and started. -/
def createGame (opts : GameSetupOptions) (scenarioId : String) : Except JsError (Instance R) :=
  if scenarioId = Frontier.frontierScenario.id then
    (createGameState Frontier.frontierScenario opts).map fun s => .frontier (Game.new s).start
  else if scenarioId = (Kingdoms.kingdomsScenario R).id then
    (createGameState (Kingdoms.kingdomsScenario R) opts).map fun s => .kingdoms (Game.new s).start
  else .error ⟨"Unknown scenario: " ++ scenarioId⟩

/-- What the handler asks for: the game's id is also its seed. -/
def startingOptions (gameId : String) (ps : List (PlayerId × String)) : GameSetupOptions :=
  { gameId, players := gamePlayers ps, seed := gameId }

@[simp] theorem gamePlayers_length (ps : List (PlayerId × String)) :
    (gamePlayers ps).length = ps.length :=
  List.length_mapIdx

theorem gamePlayers_active {ps : List (PlayerId × String)} {p : Player} (h : p ∈ gamePlayers ps) :
    p.isActive = true := by
  obtain ⟨_, _, rfl⟩ := List.mem_mapIdx.mp h
  rfl

variable {R}

omit [Strength R] in
/-- A scenario that sets up every roster within its bounds. -/
theorem setup_returns_iff {X P E : Type} {sc : Scenario X P E} {opts : GameSetupOptions}
    {make : GameState X P E → Instance R}
    (h : sc.minPlayers ≤ opts.players.length ∧ opts.players.length ≤ sc.maxPlayers →
      ∃ s, createGameState sc opts = .ok s) :
    (∃ game, (createGameState sc opts).map make = .ok game) ↔
      sc.minPlayers ≤ opts.players.length ∧ opts.players.length ≤ sc.maxPlayers := by
  constructor
  · rintro ⟨game, hgame⟩
    cases hs : createGameState sc opts with
    | error e =>
      rw [hs] at hgame
      cases hgame
    | ok s => exact (createGameState_ok hs).1
  · intro hsize
    obtain ⟨s, hs⟩ := h hsize
    exact ⟨make s, by rw [hs]; rfl⟩

/-- **Which rosters make a game.** -/
theorem createGame_returns_iff {scenarioId gameId : String} {b : Nat × Nat}
    (hb : bounds R scenarioId = some b) (ps : List (PlayerId × String)) :
    (∃ game, createGame R (startingOptions gameId ps) scenarioId = .ok game) ↔
    b.1 ≤ ps.length ∧ ps.length ≤ b.2 := by
  have hlen : (startingOptions gameId ps).players.length = ps.length := gamePlayers_length ps
  have hactive : 2 ≤ (startingOptions gameId ps).players.length →
      ∃ p ∈ (startingOptions gameId ps).players, p.isActive = true := by
    intro h
    obtain ⟨p, hp⟩ := List.exists_mem_of_length_pos (Nat.lt_of_lt_of_le Nat.two_pos h)
    exact ⟨p, hp, gamePlayers_active hp⟩
  rw [← hlen]
  unfold bounds at hb
  unfold createGame
  by_cases hf : scenarioId = Frontier.frontierScenario.id
  · rw [if_pos hf, Option.some.injEq] at hb
    subst hb
    rw [if_pos hf]
    refine setup_returns_iff fun hsize => ?_
    obtain ⟨p, hp, hp'⟩ := hactive hsize.1
    exact Frontier.createGameState_returns hp hp' hsize
  · rw [if_neg hf] at hb ⊢
    by_cases hk : scenarioId = (Kingdoms.kingdomsScenario R).id
    · rw [if_pos hk, Option.some.injEq] at hb
      subst hb
      rw [if_pos hk]
      refine setup_returns_iff fun hsize => ?_
      obtain ⟨p, hp, hp'⟩ := hactive hsize.1
      exact Kingdoms.createGameState_returns hp hp' hsize
    · rw [if_neg hk] at hb
      cases hb

end Boardgame.Engine
