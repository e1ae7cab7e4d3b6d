import Boardgame.Lib.Outbox
import Boardgame.Core.Frozen

/-!
# Engine.Service

One game on an engine replica (`game-instance.ts`, `engine.service.ts`, `game-store.service.ts`):
the commands of the game and the writes they wait for. A handler runs without a break up to its next
`await`: it submits, publishes and issues the write of the state; when that is done it builds the
view and issues its write; when that is done it lets go of a game that has ended. Handlers run in
any interleaving; the store performs the writes, and lets them go on, in the order they were issued.

* `Replica.Step`: one such stretch of one handler, or the completion of a write.
-/

namespace Boardgame.Engine

/-! ## The bus -/

inductive BusPayload (V E : Type) where
  /-- The view of a `game-started` message. -/
  | started (view : V)
  | event (body : EventBody E)
  | error (error : ActionError)

structure GameBusEvent (V E : Type) where
  seq : Nat
  type : String
  payload : BusPayload V E
  playerId : Option PlayerId := none
  privateTo : Option PlayerId := none

/-- The message carries an event of the game. -/
def GameBusEvent.isEvent {V E : Type} (msg : GameBusEvent V E) : Bool :=
  match msg.payload with
  | .event _ => true
  | _ => false

variable {X P E V : Type}

/-- The message `flushEvents` makes of an event; an empty player id counts as none. -/
def busEvent [HasType E] (event : GameEvent E) : GameBusEvent V E :=
  { seq := event.seq.getD 0
    type := event.type
    payload := .event event.body
    playerId := event.playerId.filter (· ≠ "")
    privateTo := event.privateTo.filter (· ≠ "") }

/-- The payload of a `game-ended` event. -/
def victoryOf (event : GameEvent E) : Option VictoryResult :=
  match event.body with
  | .gameEnded victory => some victory
  | .scenario _ => none

/-! ## A game instance -/

/-- `listening` until the wildcard listener is taken off. -/
structure GameInstance (X P E : Type) where
  game : Game X P E
  buffer : List (GameEvent E) := []
  listening : Bool := true

namespace GameInstance

variable [HasType P]

/-- What is emitted goes to the buffer. -/
def submit (sc : Scenario X P E) (a : Action P) (inst : GameInstance X P E) :
    Game.Call P E × GameInstance X P E :=
  let (call, game) := Game.respond sc inst.game (.submit a)
  (call,
    { inst with
      game
      buffer := if inst.listening then inst.buffer ++
        Game.newEvents inst.game game else inst.buffer })

end GameInstance

/-! ## The store -/

/-- What is saved under the two keys of the game. -/
structure GameStore (X P E V : Type) where
  state : Option (GameState X P E) := none
  view : Option V := none

/-- A state is serialised, and a view built, when the write is issued. -/
inductive Write (X P E V : Type) where
  | save (state : GameState X P E)
  | saveView (view : V)

def GameStore.perform (store : GameStore X P E V) : Write X P E V → GameStore X P E V
  | .save state => { store with state := some state }
  | .saveView view => { store with view := some view }

/-! ## The replica -/

structure Command (P : Type) where
  userId : PlayerId
  payload : P
  clientSeq : Option Nat := none

def Command.action (c : Command P) : Action P :=
  { playerId := some c.userId, payload := c.payload, clientSeq := c.clientSeq }

/-- What a handler waits for, and what it has found in the events of its own submit. -/
inductive Await (V : Type) where
  | save (victory : Option VictoryResult)
  | saveView (victory : Option VictoryResult)
  /-- The first `save` of `createGame`. -/
  | create (players : List Player)
  /-- The first `saveView` of `createGame`. -/
  | start (view : V)

def Await.victory : Await V → Option VictoryResult
  | .save victory => victory
  | .saveView victory => victory
  | _ => none

/-- A replica and one of its games; `held` while the game is in the `games` map. -/
structure Replica (X P E V : Type) where
  held : Bool := true
  inst : GameInstance X P E
  published : List (GameBusEvent V E) := []
  store : Outbox (GameStore X P E V) (Write X P E V) (Await V)

/-- The stretches of the handlers and the completions of writes, as they are let happen. -/
inductive Input (P : Type) where
  | command (c : Command P)
  | complete
  | resume

/-- The same with what has happened. -/
inductive Moment (P E : Type) where
  | called (call : Game.Call P E)
  | absent
  | completed
  | resumed

def Moment.call? : Moment P E → Option (Game.Call P E)
  | .called call => some call
  | _ => none

namespace Replica

def publish (msg : GameBusEvent V E) (r : Replica X P E V) : Replica X P E V :=
  { r with published := r.published ++ [msg] }

def flushEvents [HasType E] (r : Replica X P E V) : Replica X P E V :=
  { r with
    published := r.published ++ r.inst.buffer.map busEvent
    inst := { r.inst with buffer := [] } }

def issue (w : Write X P E V) (k : Await V) (r : Replica X P E V) : Replica X P E V :=
  { r with store := r.store.issue w k }

def state (r : Replica X P E V) : GameState X P E := r.inst.game.state

/-- Every call has finished. -/
def Idle (r : Replica X P E V) : Prop := r.store.waiting = []

variable [HasType P] [HasType E] (sc : Scenario X P E)
  (buildView : GameState X P E → List Player → Option VictoryResult → V)

omit [HasType P] [HasType E] in
/-- `createGame` up to its first `await`. -/
def openGame (opts : GameSetupOptions) : Except JsError (Replica X P E V) :=
  (createGameState sc opts).map fun s =>
    let game := (Game.new s).start
    { inst := { game }
      store := { memory := {}, writes := [(.save game.state, .create opts.players)] } }

omit [HasType P] [HasType E] in
/-- `createGame`, with its writes done: a game that starts has emitted nothing. -/
def createGame (opts : GameSetupOptions) : Except JsError (Replica X P E V) :=
  (createGameState sc opts).map fun s =>
    let game := (Game.new s).start
    let view := buildView game.state opts.players none
    { inst := { game }
      published := [{ seq := 0, type := "game-started", payload := .started view }]
      store := { memory := { state := some game.state, view := some view } } }

/-- `handleCommand` up to its first `await`. A command for a game the replica does not hold reads
the store and throws. -/
def handleCommand (c : Command P) (r : Replica X P E V) : Moment P E × Replica X P E V :=
  if r.held then
    let (call, inst) := r.inst.submit sc c.action
    let r := { r with inst }
    (.called call,
      match call with
      | .submit _ (.ok (.error error)) =>
        r.publish { seq := 0, type := "error", payload := .error error, privateTo := some c.userId }
      | .submit _ (.ok (.ok events)) =>
        r.flushEvents.issue (.save r.state) (.save (events.findSome? victoryOf))
      -- the submit throws, and the handler with it
      | _ => r)
  else (.absent, r)

omit [HasType P] in
/-- The rest of `handleCommand` and of `createGame`, from one `await` to the next. -/
def resume (r : Replica X P E V) : Option (Replica X P E V) :=
  match r.store.next with
  | none => none
  | some (.save victory, store) =>
    some ({ r with store }.issue (.saveView (buildView r.state r.state.players.all victory))
      (.saveView victory))
  | some (.saveView none, store) => some { r with store }
  | some (.saveView (some _), store) =>
    some { r with store, held := false, inst := { r.inst with listening := false } }
  | some (.create players, store) =>
    let r := { r with store }.flushEvents
    let view := buildView r.state players none
    some (r.issue (.saveView view) (.start view))
  | some (.start view, store) =>
    some ({ r with store }.publish { seq := 0, type := "game-started", payload := .started view })

def turn (r : Replica X P E V) : Input P → Option (Moment P E × Replica X P E V)
  | .command c => some (r.handleCommand sc c)
  | .complete => (r.store.complete GameStore.perform).map fun store =>
      (.completed, { r with store })
  | .resume => (r.resume buildView).map fun r' => (.resumed, r')

inductive Step (r : Replica X P E V) (m : Moment P E) (r' : Replica X P E V) : Prop where
  | mk {i : Input P} : r.turn sc buildView i = some (m, r') → Step r m r'

def drive (r : Replica X P E V) : List (Input P) → Option (List (Moment P E) × Replica X P E V)
  | [] => some ([], r)
  | i :: is =>
    match r.turn sc buildView i with
    | none => none
    | some (m, r') => (drive r' is).map fun rest => (m :: rest.1, rest.2)

theorem drive_trace {is : List (Input P)} : ∀ {r r' : Replica X P E V} {ms : List (Moment P E)},
    r.drive sc buildView is = some (ms, r') → Trace (Step sc buildView) r ms r' := by
  induction is with
  | nil =>
    intro r r' ms h
    cases h
    exact .nil
  | cons i is ih =>
    intro r r' ms h
    rw [drive] at h
    split at h
    · cases h
    · rename_i m r₁ hturn
      obtain ⟨rest, hrest, hms⟩ := Option.map_eq_some_iff.mp h
      cases hms
      exact .cons (.mk hturn) (ih hrest)

end Replica

end Boardgame.Engine
