import Boardgame.Frontier.Actions

/-!
# Frontier.Scenario

The scenario object (`demo/scenario.ts`, `demo/victory.ts`): the registries, the two victory
conditions and `onSetup`.

* `validate_eq`, `execute_eq`: what the registries look up for an action.
-/

namespace Boardgame.Frontier

/-! ## Victory -/

def winVp : ℚ := 18

def firstToEighteenVP (s : FState) : Option VictoryResult :=
  (s.inventories.entries.find? fun e => e.2.get "vp" ≥ winVp).map fun e =>
    { winner := some e.1
      reason := "Reached " ++ numberText winVp ++ " victory points"
      conditionId := "first-to-eighteen-vp" }

/-- The loop of `allTilesClaimed` over the inventories: the leader, their VP, and whether the lead
is shared. -/
def topVp (inventories : List (PlayerId × Inventory)) : Option PlayerId × ℚ × Bool :=
  inventories.foldl (fun acc e =>
    let vp := e.2.get "vp"
    if vp > acc.2.1 then (some e.1, vp, false)
    else if vp = acc.2.1 then (acc.1, acc.2.1, true)
    else acc) (none, -1, false)

def allTilesClaimed (s : FState) : Option VictoryResult :=
  let totalTiles := s.map.tiles.length
  let claimedCount := (s.pieces.values.filterMap tileOf).dedup.length
  if claimedCount < totalTiles then none
  else
    let top := topVp s.inventories.entries
    some
      { winner := if top.2.2 then none else top.1
        reason := if top.2.2 then "Board full — draw at " ++ numberText top.2.1 ++ " VP!"
          else "Board full — wins with " ++ numberText top.2.1 ++ " VP"
        conditionId := "all-tiles-claimed" }

/-! ## Setup -/

/-- One pass of `players.forEach` in `onSetup`, for the player with the coordinate. -/
def placeHome (player : Player) (coord : AxialCoord) : FExec Unit := do
  let id := tileId coord
  match (← get).map.tileById id with
  | none => pure ()
  | some tile => do
    plantFlag player.id id
    match (← get).inventories.get? player.id with
    | none => pure ()
    | some _ => addTo player.id "vp" (terrainVp tile.terrain)
    modify (setExtras fun x => { x with homeTiles := x.homeTiles.set player.id id })

/-- Players beyond the last coordinate get none. -/
def onSetup (players : List Player) : FExec Unit :=
  Eff.each (fun e => placeHome e.1 e.2) (players.zip (startingCoords players.length))

/-! ## Registries -/

/-- A payload that is not of the type looked up; the registries never produce it. -/
def wrongPayload : JsError := ⟨"payload of another action type"⟩

def frontierValidators : List (ActionValidator FrontierExtras FrontierPayload FrontierEvent) :=
  [ ⟨"claim-tile", fun s a => match a.payload with
      | .claimTile t => claimTileValidator s a.playerId t
      | _ => .error (.threw wrongPayload)⟩,
    ⟨"end-turn", fun s a => endTurnValidator s a.playerId⟩,
    ⟨"trade", fun s a => match a.payload with
      | .trade r => tradeValidator s a.playerId r
      | _ => .error (.threw wrongPayload)⟩,
    ⟨"fortify", fun s a => match a.payload with
      | .fortify t => fortifyValidator s a.playerId t
      | _ => .error (.threw wrongPayload)⟩,
    ⟨"post-offer", fun s a => match a.payload with
      | .postOffer gw gs ww ws => postOfferValidator s a.playerId gw gs ww ws
      | _ => .error (.threw wrongPayload)⟩,
    ⟨"accept-offer", fun s a => match a.payload with
      | .acceptOffer o => acceptOfferValidator s a.playerId o
      | _ => .error (.threw wrongPayload)⟩,
    ⟨"cancel-offer", fun s a => match a.payload with
      | .cancelOffer o => cancelOfferValidator s a.playerId o
      | _ => .error (.threw wrongPayload)⟩ ]

def frontierExecutors : List (ActionExecutor FrontierExtras FrontierPayload FrontierEvent) :=
  [ ⟨"claim-tile", fun a => match a.payload with
      | .claimTile t => claimTileExecutor (actor a.playerId) t
      | _ => throw wrongPayload⟩,
    ⟨"end-turn", fun a => endTurnExecutor (actor a.playerId)⟩,
    ⟨"trade", fun a => match a.payload with
      | .trade r => tradeExecutor (actor a.playerId) r
      | _ => throw wrongPayload⟩,
    ⟨"fortify", fun a => match a.payload with
      | .fortify t => fortifyExecutor (actor a.playerId) t
      | _ => throw wrongPayload⟩,
    ⟨"post-offer", fun a => match a.payload with
      | .postOffer gw gs ww ws => postOfferExecutor (actor a.playerId) gw gs ww ws
      | _ => throw wrongPayload⟩,
    ⟨"accept-offer", fun a => match a.payload with
      | .acceptOffer o => acceptOfferExecutor (actor a.playerId) o
      | _ => throw wrongPayload⟩,
    ⟨"cancel-offer", fun a => match a.payload with
      | .cancelOffer o => cancelOfferExecutor (actor a.playerId) o
      | _ => throw wrongPayload⟩ ]

def frontierScenario : Scenario FrontierExtras FrontierPayload FrontierEvent where
  id := "demo-v1"
  name := "Frontier"
  minPlayers := 2
  maxPlayers := 4
  phases := [⟨"turn", "Your Turn", ["turn"]⟩]
  initialPhaseId := "turn"
  turnOrder := .clockwise
  validators := frontierValidators
  executors := frontierExecutors
  rules := []
  victoryConditions :=
    [⟨"first-to-eighteen-vp", firstToEighteenVP⟩, ⟨"all-tiles-claimed", allTilesClaimed⟩]
  buildMap := buildDemoMap
  noExtras := {}
  onSetup := onSetup

/-- The validator of an action's payload. -/
def validatePayload (s : FState) (playerId : Option PlayerId) : FrontierPayload →
    Except Refusal Unit
  | .claimTile t => claimTileValidator s playerId t
  | .endTurn => endTurnValidator s playerId
  | .trade r => tradeValidator s playerId r
  | .fortify t => fortifyValidator s playerId t
  | .postOffer gw gs ww ws => postOfferValidator s playerId gw gs ww ws
  | .acceptOffer o => acceptOfferValidator s playerId o
  | .cancelOffer o => cancelOfferValidator s playerId o
  | .unregistered t =>
    .error (.rejected ⟨"unknown-action", "No validator for action: " ++ t.val⟩)

/-- The executor of an action's payload. -/
def executePayload (playerId : PlayerId) : FrontierPayload → FExec (List FEvent)
  | .claimTile t => claimTileExecutor playerId t
  | .endTurn => endTurnExecutor playerId
  | .trade r => tradeExecutor playerId r
  | .fortify t => fortifyExecutor playerId t
  | .postOffer gw gs ww ws => postOfferExecutor playerId gw gs ww ws
  | .acceptOffer o => acceptOfferExecutor playerId o
  | .cancelOffer o => cancelOfferExecutor playerId o
  | .unregistered t => throw ⟨"No executor for action: " ++ t.val⟩

theorem validate_eq (s : FState) (a : FAction) :
    frontierScenario.validate s a = validatePayload s a.playerId a.payload := by
  obtain ⟨p, payload, c⟩ := a
  cases payload with
  | unregistered t =>
    have ht := t.property
    simp only [frontierActionTypes, List.mem_cons, not_or, List.not_mem_nil, not_false_eq_true,
      and_true] at ht
    obtain ⟨h₁, h₂, h₃, h₄, h₅, h₆, h₇⟩ := ht
    simp [Scenario.validate, frontierScenario, frontierValidators, validatePayload, Action.type,
      HasType.type, Ne.symm h₁, Ne.symm h₂, Ne.symm h₃, Ne.symm h₄, Ne.symm h₅, Ne.symm h₆,
      Ne.symm h₇]
  | _ => rfl

theorem execute_eq (a : FAction) :
    frontierScenario.execute a = executePayload (actor a.playerId) a.payload := by
  obtain ⟨p, payload, c⟩ := a
  cases payload with
  | unregistered t =>
    have ht := t.property
    simp only [frontierActionTypes, List.mem_cons, not_or, List.not_mem_nil, not_false_eq_true,
      and_true] at ht
    obtain ⟨h₁, h₂, h₃, h₄, h₅, h₆, h₇⟩ := ht
    simp [Scenario.execute, frontierScenario, frontierExecutors, executePayload, Action.type,
      HasType.type, Ne.symm h₁, Ne.symm h₂, Ne.symm h₃, Ne.symm h₄, Ne.symm h₅, Ne.symm h₆,
      Ne.symm h₇]
  | _ => rfl

theorem no_rules : frontierScenario.rules = [] := rfl

theorem guardTurn_ok {s : FState} {playerId : Option PlayerId} {m m' : String} :
    guardTurn s playerId m m' = .ok () ↔
      playerId = some s.rounds.turn.activePlayer ∧ s.rounds.turn.activePlayer ≠ "" := by
  simp only [guardTurn, Eff.except_seq_eq_ok, rejectIf_eq_ok]
  constructor
  · rintro ⟨h₁, h₂⟩
    have hp : playerId = some s.rounds.turn.activePlayer := (not_not.mp h₂).symm
    subst hp
    simpa using h₁
  · rintro ⟨rfl, h⟩
    simp [h]

/-- Every action but an unregistered one passes the guard first. -/
theorem validate_guard {s : FState} {a : FAction} (h : frontierScenario.validate s a = .ok ()) :
    a.playerId = some s.rounds.turn.activePlayer ∧ s.rounds.turn.activePlayer ≠ "" := by
  rw [validate_eq] at h
  cases hp : a.payload <;> rw [hp] at h
  case unregistered t => simp [validatePayload] at h
  case endTurn => exact guardTurn_ok.mp h
  all_goals
    simp only [validatePayload, claimTileValidator, tradeValidator, fortifyValidator,
      postOfferValidator, acceptOfferValidator, cancelOfferValidator] at h
    obtain ⟨_, hg, -⟩ := Eff.except_bind_eq_ok.mp h
    exact guardTurn_ok.mp hg

end Boardgame.Frontier
