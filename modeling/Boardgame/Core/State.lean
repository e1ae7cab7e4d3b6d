import Boardgame.Lib.Eff
import Boardgame.Core.Rounds
import Boardgame.Core.Random
import Boardgame.Core.Pieces

/-!
# Core.State

Actions, events, the game state and the scenario interface (`actions/`, `events/`, `state/`,
`setup/`). A scenario brings three types: `X`, its values in `state.extras`; `P`, the payloads of
its actions; `E`, the payloads of its events. The type discriminator of an action or an event is a
function of its payload (`HasType`), so a payload always has the shape its type declares.
Clock readings (`at`) are left out.
-/

namespace Boardgame

class HasType (α : Type) where
  type : α → String

structure Action (P : Type) where
  playerId : Option PlayerId
  payload : P
  clientSeq : Option Nat := none
  deriving DecidableEq

def Action.type {P : Type} [HasType P] (a : Action P) : String := HasType.type a.payload

structure ActionError where
  code : String
  message : String
  deriving DecidableEq

/-- How a validator stops: it returns an `ActionError`, or it throws. -/
inductive Refusal where
  | rejected (error : ActionError)
  | threw (error : JsError)
  deriving DecidableEq

/-- `if (c) return actionError(code, message);` -/
def rejectIf (c : Prop) [Decidable c] (code message : String) : Except Refusal Unit :=
  if c then .error (.rejected ⟨code, message⟩) else .ok ()

theorem rejectIf_eq_ok {c : Prop} [Decidable c] {code message : String} {u : Unit} :
    rejectIf c code message = .ok u ↔ ¬ c := by
  unfold rejectIf
  split <;> simp_all

/-- `const a = o; if (!a) return actionError(code, message);` -/
def orReject {α : Type} (o : Option α) (code message : String) : Except Refusal α :=
  match o with
  | some a => .ok a
  | none => .error (.rejected ⟨code, message⟩)

theorem orReject_bind_ok {α β : Type} {o : Option α} {code message : String}
    {f : α → Except Refusal β} {b : β} :
    orReject o code message >>= f = .ok b ↔ ∃ a, o = some a ∧ f a = .ok b := by
  cases o <;> simp [orReject, bind, Except.bind]

/-- A call that throws, inside a validator. -/
def orThrow {α : Type} : Except JsError α → Except Refusal α
  | .ok a => .ok a
  | .error e => .error (.threw e)

theorem orThrow_bind_ok {α β : Type} {x : Except JsError α} {f : α → Except Refusal β} {b : β} :
    orThrow x >>= f = .ok b ↔ ∃ a, x = .ok a ∧ f a = .ok b := by
  cases x <;> simp [orThrow, bind, Except.bind]

/-- The validator returns, it does not throw. -/
def Answers {α : Type} (x : Except Refusal α) : Prop := ∀ e, x ≠ .error (.threw e)

namespace Answers

variable {α β : Type}

theorem ok (a : α) : Answers (.ok a) := fun _ h => by cases h

theorem rejectIf (c : Prop) [Decidable c] (code message : String) :
    Answers (rejectIf c code message) := by
  intro e h
  unfold Boardgame.rejectIf at h
  split at h <;> cases h

theorem orReject (o : Option α) (code message : String) : Answers (orReject o code message) := by
  intro e h
  cases o <;> cases h

theorem bind {x : Except Refusal α} {f : α → Except Refusal β} (hx : Answers x)
    (hf : ∀ a, x = .ok a → Answers (f a)) : Answers (x >>= f) := by
  intro e h
  cases x with
  | ok a => exact hf a rfl e h
  | error r =>
    have : r = .threw e := by simpa [Bind.bind, Except.bind] using h
    exact hx e (by rw [this])

/-- What answers rejects what it does not let pass. -/
theorem rejects_iff {x : Except Refusal Unit} (h : Answers x) :
    (∃ e, x = .error (.rejected e)) ↔ ¬ x = .ok () := by
  cases x with
  | ok u => simp
  | error r =>
    cases r with
    | rejected e => simp
    | threw e => exact absurd rfl (h e)

end Answers

structure VictoryResult where
  winner : Option PlayerId
  reason : String
  conditionId : String
  deriving DecidableEq

/-- What an event carries: a payload of the scenario, or the framework's own `game-ended`. -/
inductive EventBody (E : Type) where
  | scenario (payload : E)
  | gameEnded (victory : VictoryResult)
  deriving DecidableEq

structure GameEvent (E : Type) where
  body : EventBody E
  playerId : Option PlayerId := none
  privateTo : Option PlayerId := none
  seq : Option Nat := none
  deriving DecidableEq

def GameEvent.type {E : Type} [HasType E] (e : GameEvent E) : String :=
  match e.body with
  | .scenario p => HasType.type p
  | .gameEnded _ => "game-ended"

structure ActionHistoryEntry (P E : Type) where
  seq : Nat
  action : Action P
  events : List (GameEvent E)
  deriving DecidableEq

inductive GamePhaseStatus where
  | lobby
  | setup
  | playing
  | ended
  deriving DecidableEq

/-- `TRANSITIONS` of `state-machine.ts`. -/
def GamePhaseStatus.transitions : GamePhaseStatus → List GamePhaseStatus
  | .lobby => [.setup, .ended]
  | .setup => [.playing, .ended]
  | .playing => [.ended]
  | .ended => []

def GamePhaseStatus.name : GamePhaseStatus → String
  | .lobby => "lobby"
  | .setup => "setup"
  | .playing => "playing"
  | .ended => "ended"

/-- `GameStateMachine.transitionTo`, on the machine's current status. -/
def GamePhaseStatus.transitionTo (current next : GamePhaseStatus) :
    Except JsError GamePhaseStatus :=
  if next ∈ current.transitions then .ok next
  else .error ⟨"Illegal game status transition: " ++ current.name ++ " → " ++ next.name⟩

/-- The state of a game. `bank`, `decks` and `hands` stay empty in both scenarios and are left
out. -/
structure GameState (X P E : Type) where
  gameId : String
  scenarioId : String
  status : GamePhaseStatus
  map : GameMap
  players : PlayerManager
  inventories : OrderedMap PlayerId Inventory
  pieces : OrderedMap PieceId Piece
  rounds : RoundManager
  rng : SeededRandom
  history : List (ActionHistoryEntry P E)
  extras : X

/-- A program on the game state: an executor or a rule. -/
abbrev Exec (X P E α : Type) := EStateM JsError (GameState X P E) α

structure ActionValidator (X P E : Type) where
  type : String
  validate : GameState X P E → Action P → Except Refusal Unit

structure ActionExecutor (X P E : Type) where
  type : String
  execute : Action P → Exec X P E (List (GameEvent E))

structure Rule (X P E : Type) where
  id : String
  onEvent : GameEvent E → Exec X P E (List (GameEvent E))

structure VictoryCondition (X P E : Type) where
  id : String
  evaluate : GameState X P E → Option VictoryResult

structure Scenario (X P E : Type) where
  id : String
  name : String
  minPlayers : Nat
  maxPlayers : Nat
  phases : List Phase
  initialPhaseId : String
  turnOrder : TurnOrder
  validators : List (ActionValidator X P E)
  executors : List (ActionExecutor X P E)
  rules : List (Rule X P E)
  victoryConditions : List (VictoryCondition X P E)
  buildMap : Nat → String → GameMap
  /-- `extras: {}`, as the scenario's accessors read it. -/
  noExtras : X
  onSetup : List Player → Exec X P E Unit

variable {X P E : Type}

/-! ## State access in executors -/

/-- `state.pieces.get(id)!` followed by a property read. -/
def pieceAt (id : PieceId) : Exec X P E Piece := do
  match (← get).pieces.get? id with
  | some p => return p
  | none => throw ⟨"Cannot read properties of undefined"⟩

/-- `state.inventories.get(id)!` followed by a method call. -/
def inventoryOf (id : PlayerId) : Exec X P E Inventory := do
  match (← get).inventories.get? id with
  | some inv => return inv
  | none => throw ⟨"Cannot read properties of undefined"⟩

theorem pieceAt_run {s : GameState X P E} {id : PieceId} {p : Piece}
    (h : s.pieces.get? id = some p) :
    (pieceAt id).run s = .ok p s := by
  simp [pieceAt, h]

theorem inventoryOf_run {s : GameState X P E} {id : PlayerId} {inv : Inventory}
    (h : s.inventories.get? id = some inv) : (inventoryOf id).run s = .ok inv s := by
  simp [inventoryOf, h]

def GameState.setInventory (s : GameState X P E) (id : PlayerId) (inv : Inventory) :
    GameState X P E :=
  { s with inventories := s.inventories.set id inv }

@[simp] theorem GameState.setInventory_get? (s : GameState X P E) (id id' : PlayerId)
    (inv : Inventory) :
    (s.setInventory id inv).inventories.get? id' =
      if id' = id then some inv else s.inventories.get? id' := OrderedMap.get?_set _ _ _ _

@[simp] theorem GameState.setInventory_setInventory (s : GameState X P E) (id : PlayerId)
    (inv inv' : Inventory) : (s.setInventory id inv).setInventory id inv' =
      s.setInventory id inv' := by
  simp only [setInventory, OrderedMap.set_set]

theorem GameState.setInventory_same (s : GameState X P E) (id : PlayerId) (inv : Inventory) :
    (s.setInventory id inv).inventories.get? id = some inv := by simp

theorem GameState.setInventory_self {s : GameState X P E} {id : PlayerId} {inv : Inventory}
    (h : s.inventories.get? id = some inv) : s.setInventory id inv = s := by
  simp only [setInventory, OrderedMap.set_self h]

/-- `state.inventories.get(id)!.add(type, qty)`. -/
def addTo (id : PlayerId) (type : ResourceType) (qty : ℚ) : Exec X P E Unit := do
  let inv ← inventoryOf id
  let inv ← Eff.liftExcept (inv.add type qty)
  modify fun s => s.setInventory id inv

/-- `state.inventories.get(id)!.remove(type, qty)`. -/
def removeFrom (id : PlayerId) (type : ResourceType) (qty : ℚ) : Exec X P E Unit := do
  let inv ← inventoryOf id
  let inv ← Eff.liftExcept (inv.remove type qty)
  modify fun s => s.setInventory id inv

variable {s : GameState X P E} {id : PlayerId} {inv : Inventory} {r : ResourceType} {q : ℚ}

theorem addTo_run (h : s.inventories.get? id = some inv) (hq : 0 ≤ q) :
    (addTo id r q).run s = .ok () (s.setInventory id (inv.put r (inv.get r + q))) := by
  rw [addTo, Eff.bind_ok (inventoryOf_run h), Inventory.add_ok hq]
  rfl

theorem removeFrom_run (h : s.inventories.get? id = some inv) (hq : 0 ≤ q) (hle : q ≤ inv.get r) :
    (removeFrom id r q).run s = .ok () (s.setInventory id (inv.put r (inv.get r - q))) := by
  rw [removeFrom, Eff.bind_ok (inventoryOf_run h), Inventory.remove_ok hq hle]
  rfl

/-- `inv?.get(type) ?? 0`. -/
def stockOf (inv : Option Inventory) (type : ResourceType) : ℚ := (inv.map (·.get type)).getD 0

/-- `for (const [res, qty] of Object.entries(cost)) if ((inv?.get(res) ?? 0) < qty) return …`. -/
def checkCost (inv : Option Inventory) : List (ResourceType × ℚ) → Except Refusal Unit
  | [] => .ok ()
  | (res, qty) :: rest => do
    rejectIf (stockOf inv res < qty) "insufficient-resources" ("Not enough " ++ res)
    checkCost inv rest

theorem checkCost_ok {inv : Option Inventory} {cost : List (ResourceType × ℚ)} :
    checkCost inv cost = .ok () ↔ ∀ e ∈ cost, e.2 ≤ stockOf inv e.1 := by
  induction cost with
  | nil => simp [checkCost]
  | cons e cost ih =>
    simp only [checkCost, Eff.except_bind_eq_ok, rejectIf_eq_ok, ih, List.mem_cons,
      forall_eq_or_imp, not_lt, exists_const]

theorem checkCost_answers (inv : Option Inventory) (cost : List (ResourceType × ℚ)) :
    Answers (checkCost inv cost) := by
  induction cost with
  | nil => exact .ok ()
  | cons e cost ih => exact .bind (.rejectIf _ _ _) fun _ _ => ih

/-- `for (const [res, qty] of Object.entries(cost)) inv.remove(res, qty)`. -/
def payAll (id : PlayerId) (cost : OrderedMap ResourceType ℚ) : Exec X P E Unit :=
  Eff.each (fun c => removeFrom id c.1 c.2) cost.entries

/-- `for (const [res, qty] of Object.entries(refund)) inv.add(res, qty)`. -/
def creditAll (id : PlayerId) (refund : OrderedMap ResourceType ℚ) : Exec X P E Unit :=
  Eff.each (fun c => addTo id c.1 c.2) refund.entries

/-- The amount listed for a resource. -/
def amountOf (m : OrderedMap ResourceType ℚ) (r : ResourceType) : ℚ := (m.get? r).getD 0

/-- A loop over distinct resources whose body replaces one count by `f` of it. -/
theorem eachCount_run (id : PlayerId) (op : ResourceType → ℚ → Exec X P E Unit) (f : ℚ → ℚ → ℚ)
    (ok : ℚ → ℚ → Prop)
    (hop : ∀ (s : GameState X P E) (inv : Inventory) (r : ResourceType) (q : ℚ),
      s.inventories.get? id = some inv → ok (inv.get r) q →
      (op r q).run s = .ok () (s.setInventory id (inv.put r (f (inv.get r) q)))) :
    ∀ (es : List (ResourceType × ℚ)), (es.map Prod.fst).Nodup →
    ∀ (s : GameState X P E) (inv : Inventory), s.inventories.get? id = some inv →
      (∀ e ∈ es, ok (inv.get e.1) e.2) →
    ∃ inv', (Eff.each (fun c => op c.1 c.2) es).run s = .ok () (s.setInventory id inv') ∧
      (∀ e ∈ es, inv'.get e.1 = f (inv.get e.1) e.2) ∧
      ∀ r, r ∉ es.map Prod.fst → inv'.get r = inv.get r := by
  intro es
  induction es with
  | nil =>
    intro _ s inv hinv _
    exact ⟨inv, by rw [GameState.setInventory_self hinv]; rfl, by simp, fun _ _ => rfl⟩
  | cons e es ih =>
    intro hnd s inv hinv hok
    rw [List.map_cons, List.nodup_cons] at hnd
    have hne : ∀ e' ∈ es, e'.1 ≠ e.1 := fun e' he' h => hnd.1 (h ▸ List.mem_map_of_mem he')
    have h₁ := hop s inv e.1 e.2 hinv (hok e (by simp))
    obtain ⟨inv', hrun, hin, hout⟩ :=
      ih hnd.2 (s.setInventory id (inv.put e.1 (f (inv.get e.1) e.2)))
      _ (GameState.setInventory_same _ _ _)
      (fun e' he' => by rw [Inventory.get_put, if_neg (hne e' he')]; exact hok e' (by simp [he']))
    refine ⟨inv', by rw [Eff.each, Eff.bind_ok h₁, hrun, GameState.setInventory_setInventory],
      ?_, ?_⟩
    · intro e' he'
      rcases List.mem_cons.mp he' with rfl | he'
      · rw [hout _ hnd.1, Inventory.get_put, if_pos rfl]
      · rw [hin e' he', Inventory.get_put, if_neg (hne e' he')]
    · intro r hr
      rw [List.map_cons, List.mem_cons, not_or] at hr
      rw [hout r hr.2, Inventory.get_put, if_neg hr.1]

/-- Paying a cost the inventory covers: every count falls by what is listed for it. -/
theorem payAll_run (id : PlayerId) {cost : OrderedMap ResourceType ℚ}
    (hpos : ∀ e ∈ cost.entries, 0 ≤ e.2) (h : s.inventories.get? id = some inv)
    (hle : ∀ e ∈ cost.entries, e.2 ≤ inv.get e.1) :
    ∃ inv', (payAll id cost).run s = .ok () (s.setInventory id inv') ∧
      ∀ r, inv'.get r = inv.get r - amountOf cost r := by
  obtain ⟨inv', hrun, hin, hout⟩ := eachCount_run id (removeFrom id) (· - ·)
    (fun stock q => 0 ≤ q ∧ q ≤ stock) (fun _ _ _ _ h hq => removeFrom_run h hq.1 hq.2)
    cost.entries cost.nodup s inv h fun e he => ⟨hpos e he, hle e he⟩
  refine ⟨inv', hrun, fun r => ?_⟩
  cases hr : cost.get? r with
  | none => rw [hout r (OrderedMap.get?_eq_none.mp hr), amountOf, hr, Option.getD_none, sub_zero]
  | some q => rw [hin (r, q) (OrderedMap.mem_entries.mpr hr), amountOf, hr, Option.getD_some]

theorem creditAll_run (id : PlayerId) {refund : OrderedMap ResourceType ℚ}
    (hpos : ∀ e ∈ refund.entries, 0 ≤ e.2) (h : s.inventories.get? id = some inv) :
    ∃ inv', (creditAll id refund).run s = .ok () (s.setInventory id inv') ∧
      ∀ r, inv'.get r = inv.get r + amountOf refund r := by
  obtain ⟨inv', hrun, hin, hout⟩ := eachCount_run id (addTo id) (· + ·)
    (fun _ q => 0 ≤ q) (fun _ _ _ _ h hq => addTo_run h hq)
    refund.entries refund.nodup s inv h hpos
  refine ⟨inv', hrun, fun r => ?_⟩
  cases hr : refund.get? r with
  | none => rw [hout r (OrderedMap.get?_eq_none.mp hr), amountOf, hr, Option.getD_none, add_zero]
  | some q => rw [hin (r, q) (OrderedMap.mem_entries.mpr hr), amountOf, hr, Option.getD_some]

/-! ## Setup -/

structure GameSetupOptions where
  gameId : String
  players : List Player
  seed : String

/-- The state `createGameState` constructs, before `onSetup`. -/
def freshState (sc : Scenario X P E) (opts : GameSetupOptions) (rounds : RoundManager) :
    GameState X P E :=
  { gameId := opts.gameId
    scenarioId := sc.id
    status := .setup
    map := sc.buildMap opts.players.length opts.seed
    players := PlayerManager.new opts.players
    inventories := OrderedMap.ofEntries (opts.players.map fun p => (p.id, Inventory.empty))
    pieces := ∅
    rounds
    rng := SeededRandom.new (seedFromString opts.seed).toNat
    history := []
    extras := sc.noExtras }

/-- `createGameState`: the bounds check, the fresh state, then the scenario's `onSetup`. -/
def createGameState (sc : Scenario X P E) (opts : GameSetupOptions) :
    Except JsError (GameState X P E) :=
  let n := opts.players.length
  if n < sc.minPlayers ∨ n > sc.maxPlayers then
    .error ⟨"Scenario " ++ sc.id ++ " requires " ++ toString sc.minPlayers ++ "–" ++
      toString sc.maxPlayers ++ " players, got " ++ toString n⟩
  else
    match RoundManager.new opts.players sc.turnOrder sc.phases sc.initialPhaseId with
    | .error e => .error e
    | .ok rounds =>
      match (sc.onSetup opts.players).run (freshState sc opts rounds) with
      | .ok () s => .ok s
      | .error e _ => .error e

theorem createGameState_ok {sc : Scenario X P E} {opts : GameSetupOptions} {s : GameState X P E}
    (h : createGameState sc opts = .ok s) :
    (sc.minPlayers ≤ opts.players.length ∧ opts.players.length ≤ sc.maxPlayers) ∧
      ∃ rounds, RoundManager.new opts.players sc.turnOrder sc.phases sc.initialPhaseId =
        .ok rounds ∧
        (sc.onSetup opts.players).run (freshState sc opts rounds) = .ok () s := by
  unfold createGameState at h
  dsimp only at h
  by_cases hsize : opts.players.length < sc.minPlayers ∨ opts.players.length > sc.maxPlayers
  · rw [if_pos hsize] at h; cases h
  · rw [if_neg hsize] at h
    cases hrm : RoundManager.new opts.players sc.turnOrder sc.phases sc.initialPhaseId with
    | error e => rw [hrm] at h; cases h
    | ok rounds =>
      rw [hrm] at h
      cases hset : (sc.onSetup opts.players).run (freshState sc opts rounds) with
      | error e s' => simp only [hset] at h; cases h
      | ok u s' =>
        simp only [hset] at h
        cases h
        exact ⟨by omega, rounds, rfl, hset⟩

theorem createGameState_returns {sc : Scenario X P E} {opts : GameSetupOptions}
    {rounds : RoundManager} {s : GameState X P E}
    (hsize : sc.minPlayers ≤ opts.players.length ∧ opts.players.length ≤ sc.maxPlayers)
    (hrounds : RoundManager.new opts.players sc.turnOrder sc.phases sc.initialPhaseId = .ok rounds)
    (hset : (sc.onSetup opts.players).run (freshState sc opts rounds) = .ok () s) :
    createGameState sc opts = .ok s := by
  have hbounds : ¬ (opts.players.length < sc.minPlayers ∨ opts.players.length > sc.maxPlayers) := by
    omega
  simp only [createGameState, if_neg hbounds, hrounds, hset]

theorem starting_inventories (players : List Player) :
    (∀ p ∈ players, (OrderedMap.ofEntries (players.map fun p =>
      (p.id, Inventory.empty))).get? p.id =
      some Inventory.empty) ∧
    ∀ id inv, (OrderedMap.ofEntries (players.map fun p => (p.id, Inventory.empty))).get? id =
      some inv → inv = Inventory.empty := by
  suffices h : ∀ m : OrderedMap PlayerId Inventory,
      (∀ id inv, m.get? id = some inv → inv = Inventory.empty) →
      (∀ p ∈ players, (m.setAll (players.map fun p => (p.id, Inventory.empty))).get? p.id =
        some Inventory.empty) ∧
      (∀ id, m.get? id = some Inventory.empty →
        (m.setAll (players.map fun p => (p.id, Inventory.empty))).get? id = some Inventory.empty) ∧
      ∀ id inv, (m.setAll (players.map fun p => (p.id, Inventory.empty))).get? id = some inv →
        inv = Inventory.empty by
    obtain ⟨h₁, -, h₃⟩ := h ∅ (by simp)
    exact ⟨h₁, h₃⟩
  induction players with
  | nil => intro m hm; exact ⟨by simp, fun _ h => h, hm⟩
  | cons p ps ih =>
    intro m hm
    have hm' : ∀ id inv, (m.set p.id Inventory.empty).get? id = some inv →
        inv = Inventory.empty := by
      intro id inv h
      rw [OrderedMap.get?_set] at h
      split at h
      · cases h; rfl
      · exact hm id inv h
    obtain ⟨h₁, h₂, h₃⟩ := ih _ hm'
    refine ⟨fun q hq => ?_, fun id h => h₂ id ?_, h₃⟩
    · rcases List.mem_cons.mp hq with rfl | hq
      · exact h₂ _ (by simp)
      · exact h₁ q hq
    · rw [OrderedMap.get?_set]
      split
      · rfl
      · exact h

end Boardgame
