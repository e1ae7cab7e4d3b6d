import Boardgame.Core.Game
import Boardgame.Kingdoms.Actions

/-!
# Kingdoms.Scenario

The scenario object (`scenario.ts`, `victory.ts`): the registries, the victory condition and
`onSetup`.

* `validate_eq`, `execute_eq`: what the registries look up for an action.
-/

namespace Boardgame.Kingdoms

variable {R : Type}

/-- `lastPlayerStanding.evaluate`. -/
def lastPlayerStanding (s : KState R) : Option VictoryResult :=
  if s.players.count < 2 then none
  else match s.players.active with
    | [] => some
      { winner := none, reason := "All kingdoms fell — the land is silent"
        conditionId := "last-player-standing" }
    | [survivor] => some
      { winner := some survivor.id
        reason := survivor.displayName ++ " is the last kingdom standing"
        conditionId := "last-player-standing" }
    | _ => none

/-- The body of the `players.forEach` of `onSetup`, but for the two maps it fills. -/
def placePlayer (player : Player) (tid : TileId) : KExec R Unit := do
  let capitalId := "capital-" ++ player.id
  let sp1 := "sp-" ++ player.id ++ "-1"
  let sp2 := "sp-" ++ player.id ++ "-2"
  let no1 := "noble-" ++ player.id ++ "-0"
  let hp : Stats :=
    .ofEntries [("hp", ((structureStats "capital-base").map StructureDef.hp).getD 0)]
  modify fun s =>
    { s with
      pieces := (((s.pieces.set capitalId
        (makeUnitFromRegistry kingdomsPieces capitalId "capital-base" player.id tid (some hp))).set
        sp1
        (makeUnitFromRegistry kingdomsPieces sp1 "spearman" player.id tid)).set sp2
        (makeUnitFromRegistry kingdomsPieces sp2 "spearman" player.id tid)).set no1
        (makeUnitFromRegistry kingdomsPieces no1 "noble" player.id tid) }
  addTo player.id "wood" 10
  addTo player.id "food" 8
  addTo player.id "iron" 6
  addTo player.id "gold" 30

/-- Players with their starting tiles; a player beyond the last coordinate gets none. -/
def seats (players : List Player) : List (Player × TileId) :=
  (players.zip (kingdomsStartingCoords players.length)).map fun e => (e.1, tileId e.2)

def onSetup (players : List Player) : KExec R Unit := do
  Eff.each (fun e => placePlayer e.1 e.2) (seats players)
  modify (setExtras fun x =>
    { x with
      ownership := .ofEntries ((seats players).map fun e => (e.2, e.1.id))
      capitals := .ofEntries ((seats players).map fun e => (e.1.id, e.2))
      nextPieceId := 100
      movedThisTurn := []
      attackedFrom := []
      tileLoyalty := ∅
      mortgagedCities := [] })

/-- A payload that is not of the type looked up; the registries never produce it. -/
def wrongPayload : JsError := ⟨"payload of another action type"⟩

def kingdomsValidators :
    List (ActionValidator KingdomsExtras KingdomsPayload (KingdomsEvent R)) :=
  [ ⟨"recruit-unit", fun s a => match a.payload with
      | .recruitUnit t k => recruitUnitValidator s a.playerId t k
      | _ => .error (.threw wrongPayload)⟩,
    ⟨"move-unit", fun s a => match a.payload with
      | .moveUnit p t => moveUnitValidator s a.playerId p t
      | _ => .error (.threw wrongPayload)⟩,
    ⟨"attack-tile", fun s a => match a.payload with
      | .attackTile f t ids => attackTileValidator s a.playerId f t ids
      | _ => .error (.threw wrongPayload)⟩,
    ⟨"build-structure", fun s a => match a.payload with
      | .buildStructure t k => buildStructureValidator s a.playerId t k
      | _ => .error (.threw wrongPayload)⟩,
    ⟨"demolish-structure", fun s a => match a.payload with
      | .demolishStructure t => demolishStructureValidator s a.playerId t
      | _ => .error (.threw wrongPayload)⟩,
    ⟨"develop-tile", fun s a => match a.payload with
      | .developTile t => developTileValidator s a.playerId t
      | _ => .error (.threw wrongPayload)⟩,
    ⟨"end-turn", fun s a => endTurnValidator s a.playerId⟩ ]

def kingdomsExecutors [Strength R] :
    List (ActionExecutor KingdomsExtras KingdomsPayload (KingdomsEvent R)) :=
  [ ⟨"recruit-unit", fun a => match a.payload with
      | .recruitUnit t k => recruitUnitExecutor (actor a.playerId) t k
      | _ => throw wrongPayload⟩,
    ⟨"move-unit", fun a => match a.payload with
      | .moveUnit p t => moveUnitExecutor (actor a.playerId) p t
      | _ => throw wrongPayload⟩,
    ⟨"attack-tile", fun a => match a.payload with
      | .attackTile f t ids => attackTileExecutor (actor a.playerId) f t ids
      | _ => throw wrongPayload⟩,
    ⟨"build-structure", fun a => match a.payload with
      | .buildStructure t k => buildStructureExecutor (actor a.playerId) t k
      | _ => throw wrongPayload⟩,
    ⟨"demolish-structure", fun a => match a.payload with
      | .demolishStructure t => demolishStructureExecutor (actor a.playerId) t
      | _ => throw wrongPayload⟩,
    ⟨"develop-tile", fun a => match a.payload with
      | .developTile t => developTileExecutor (actor a.playerId) t
      | _ => throw wrongPayload⟩,
    ⟨"end-turn", fun a => endTurnExecutor (actor a.playerId)⟩ ]

def kingdomsScenario (R : Type) [Strength R] :
    Scenario KingdomsExtras KingdomsPayload (KingdomsEvent R) where
  id := "kingdoms-v1"
  name := "Kingdoms of Dominion"
  minPlayers := 2
  maxPlayers := 4
  phases := [⟨"command", "Command", ["command"]⟩]
  initialPhaseId := "command"
  turnOrder := .clockwise
  validators := kingdomsValidators
  executors := kingdomsExecutors
  rules := []
  victoryConditions := [⟨"last-player-standing", lastPlayerStanding⟩]
  buildMap := buildKingdomsMap
  noExtras := {}
  onSetup := onSetup

variable [Strength R]

/-- The validator of an action's payload. -/
def validatePayload (s : KState R) (playerId : Option PlayerId) :
    KingdomsPayload → Except Refusal Unit
  | .recruitUnit t k => recruitUnitValidator s playerId t k
  | .moveUnit p t => moveUnitValidator s playerId p t
  | .attackTile f t ids => attackTileValidator s playerId f t ids
  | .buildStructure t k => buildStructureValidator s playerId t k
  | .demolishStructure t => demolishStructureValidator s playerId t
  | .developTile t => developTileValidator s playerId t
  | .endTurn => endTurnValidator s playerId
  | .unregistered t =>
    .error (.rejected ⟨"unknown-action", "No validator for action: " ++ t.val⟩)

/-- The executor of an action's payload. -/
def executePayload (playerId : PlayerId) : KingdomsPayload → KExec R (List (KEvent R))
  | .recruitUnit t k => recruitUnitExecutor playerId t k
  | .moveUnit p t => moveUnitExecutor playerId p t
  | .attackTile f t ids => attackTileExecutor playerId f t ids
  | .buildStructure t k => buildStructureExecutor playerId t k
  | .demolishStructure t => demolishStructureExecutor playerId t
  | .developTile t => developTileExecutor playerId t
  | .endTurn => endTurnExecutor playerId
  | .unregistered t => throw ⟨"No executor for action: " ++ t.val⟩

theorem validate_eq (s : KState R) (a : KAction) :
    (kingdomsScenario R).validate s a = validatePayload s a.playerId a.payload := by
  obtain ⟨p, payload, c⟩ := a
  cases payload with
  | unregistered t =>
    have ht := t.property
    simp only [kingdomsActionTypes, List.mem_cons, not_or, List.not_mem_nil, not_false_eq_true,
      and_true] at ht
    obtain ⟨h₁, h₂, h₃, h₄, h₅, h₆, h₇⟩ := ht
    simp [Scenario.validate, kingdomsScenario, kingdomsValidators, validatePayload, Action.type,
      HasType.type, Ne.symm h₁, Ne.symm h₂, Ne.symm h₃, Ne.symm h₄, Ne.symm h₅, Ne.symm h₆,
      Ne.symm h₇]
  | _ => rfl

theorem execute_eq (a : KAction) :
    (kingdomsScenario R).execute a = executePayload (actor a.playerId) a.payload := by
  obtain ⟨p, payload, c⟩ := a
  cases payload with
  | unregistered t =>
    have ht := t.property
    simp only [kingdomsActionTypes, List.mem_cons, not_or, List.not_mem_nil, not_false_eq_true,
      and_true] at ht
    obtain ⟨h₁, h₂, h₃, h₄, h₅, h₆, h₇⟩ := ht
    simp [Scenario.execute, kingdomsScenario, kingdomsExecutors, executePayload, Action.type,
      HasType.type, Ne.symm h₁, Ne.symm h₂, Ne.symm h₃, Ne.symm h₄, Ne.symm h₅, Ne.symm h₆,
      Ne.symm h₇]
  | _ => rfl

theorem evaluate_eq (s : KState R) : (kingdomsScenario R).evaluate s = lastPlayerStanding s := by
  simp only [Scenario.evaluate, kingdomsScenario, List.findSome?_cons, List.findSome?_nil]
  cases lastPlayerStanding s <;> rfl

theorem no_rules : (kingdomsScenario R).rules = [] := rfl

/-- Every action but an unregistered one passes the guard first. -/
theorem validate_guard {s : KState R} {a : KAction}
    (h : (kingdomsScenario R).validate s a = .ok ()) :
    guardActivePlayer s a.playerId = .ok () := by
  rw [validate_eq] at h
  cases hp : a.payload <;> rw [hp] at h
  case unregistered t => simp [validatePayload] at h
  case endTurn => exact h
  all_goals
    simp only [validatePayload, recruitUnitValidator, moveUnitValidator, attackTileValidator,
      buildStructureValidator, demolishStructureValidator, developTileValidator] at h
    obtain ⟨_, hg, -⟩ := Eff.except_bind_eq_ok.mp h
    exact hg

/-! ## A game of two -/

def duel : GameSetupOptions :=
  { gameId := "game-1"
    players := [⟨"p1", "Ada", "red", 0, none⟩, ⟨"p2", "Bo", "blue", 1, none⟩]
    seed := "seed" }

def request (p : PlayerId) (payload : KingdomsPayload) : Game.Request KingdomsPayload :=
  .submit { playerId := some p, payload }

/-- The Noble of `p1` attacks the same tile in three turns. -/
def threeHits : List (Game.Request KingdomsPayload) :=
  .start :: (List.replicate 3
    [ request "p1" (.attackTile "4,-4" "3,-4" (some ["noble-p1-0"])),
      request "p1" .endTurn,
      request "p2" .endTurn ]).flatten

/-- A round of `p1` and `p2`. -/
def turns (a b : List KingdomsPayload) : List (Game.Request KingdomsPayload) :=
  a.map (request "p1") ++ [request "p1" .endTurn] ++ b.map (request "p2") ++ [request "p2" .endTurn]

/-- Three rounds in which `force` attacks `t` from `f`. -/
def assault (opening : List KingdomsPayload) (f t : TileId) (force : List PieceId)
    (reply replies : List KingdomsPayload) : List (Game.Request KingdomsPayload) :=
  turns (opening ++ [.attackTile f t (some force)]) reply ++
    (List.replicate 2 (turns [.attackTile f t (some force)] replies)).flatten

/-- A Noble and a spearman of `p1` march towards the capital of `p2`. Three cities are built on the
way, and a fourth, built by `p2`, is captured. -/
def advance : List (Game.Request KingdomsPayload) :=
  let noble := "noble-p1-0"
  let foray t := KingdomsPayload.attackTile "-4,4" t (some ["noble-p2-0"])
  .start :: assault [] "4,-4" "3,-3" [noble] [foray "-3,3"] [foray "-3,3"] ++
  assault [.moveUnit noble "3,-3", .buildStructure "3,-3" "city"] "3,-3" "2,-2" [noble]
    [.buildStructure "-3,3" "city", foray "-4,3"] [foray "-4,3"] ++
  assault [.moveUnit noble "2,-2", .buildStructure "2,-2" "city"] "2,-2" "1,-1" [noble]
    [.moveUnit "noble-p2-0" "-4,3", .moveUnit "sp-p2-1" "-4,3", .moveUnit "sp-p2-2" "-4,3"] [] ++
  assault [.moveUnit noble "1,-1", .buildStructure "1,-1" "city"] "1,-1" "0,0" [noble] [] [] ++
  assault [.moveUnit noble "0,0"] "0,0" "-1,1" [noble] [] [] ++
  assault [.moveUnit noble "-1,1", .moveUnit "sp-p1-1" "-1,1"] "-1,1" "-2,2" [noble] [] [] ++
  assault [.moveUnit noble "-2,2", .moveUnit "sp-p1-1" "-2,2"] "-2,2" "-3,3"
  [noble, "sp-p1-1"] [] []

end Boardgame.Kingdoms
