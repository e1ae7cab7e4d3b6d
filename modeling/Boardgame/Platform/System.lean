import Boardgame.Auth.Identity
import Boardgame.Engine.Actors
import Boardgame.Lobby.Consent
import Boardgame.Realtime.Gateway

/-!
# Platform.System

The services together. Tokens join the auth service to the lobby (`lobby.controller.ts`) and to the
gateways (`realtime.gateway.ts`); the queue `engine-game-starting` joins the lobby to the engine
replicas, and `engine-commands` the gateways (`game-runner.service.ts`). Both queues hand a message
out once, as `Lib.Broker` assumes, and what `randomUUID` returns is new (`Services.Fresh`).

* `Services.Step`: one request, one event of a socket, or one stretch of a replica.
-/

namespace Boardgame.Platform

open Engine (Fleet Registered)

open Realtime (SocketId GameId SocketIo)

/-! ## The lobby's requests -/

/-- A request of the lobby's routes, with what `randomUUID` and the clock will return. -/
inductive LobbyRequest where
  | create (uuid : Lobby.RoomId) (now : Int) (body : Lobby.CreateRoomRequest)
  | join (roomId : Lobby.RoomId)
  | ready (roomId : Lobby.RoomId) (ready : Bool)
  | start (uuid : String) (roomId : Lobby.RoomId)
  | leave (roomId : Lobby.RoomId)
  | close (roomId : Lobby.RoomId)

/-- `LobbyController`: the user is the one of the token. -/
def LobbyRequest.op (user : Auth.JwtPayload) : LobbyRequest → Lobby.Op
  | .create uuid now body => .createRoom uuid now user.sub user.username body
  | .join roomId => .joinRoom user.sub user.username roomId
  | .ready roomId answer => .setReady user.sub roomId answer
  | .start uuid roomId => .startGame uuid user.sub roomId
  | .leave roomId => .leaveRoom user.sub roomId
  | .close roomId => .closeRoom user.sub roomId

/-! ## The queue of games to be started -/

structure GameStarting where
  roomId : Lobby.RoomId
  gameId : GameId
  scenarioId : String
  players : List (Lobby.UserId × String)
  deriving DecidableEq

/-- The events that match `lobby.*.game-starting`. -/
def starting? : Lobby.LobbyEvent → Option GameStarting
  | .gameStarting roomId gameId scenarioId players => some ⟨roomId, gameId, scenarioId, players⟩
  | _ => none

/-- `ScenarioRegistry.get`. -/
def registered (R : Type) [Strength R] (scenarioId : String) : Option Registered :=
  [.frontier, .kingdoms].find? fun id => (id.scenario R).id = scenarioId

section Start

variable {R I : Type} [Strength R] [DecidableEq I]

/-- The handler of a `game-starting` message: it throws for a scenario nobody registered, and when
the game cannot be made. -/
def handleStarting (i : I) (msg : GameStarting) (f : Fleet R I) : Engine.Outcome × Fleet R I :=
  match registered R msg.scenarioId with
  | none => (.threw, f)
  | some id =>
    match Engine.Replica.openGame (V := id.View) (id.scenario R)
      (Engine.startingOptions msg.gameId msg.players) with
    | .error _ => (.threw, f)
    | .ok _ => (.returned, f.createGame i id msg.gameId msg.players)

end Start

/-! ## The platform -/

variable (bc : Auth.Bcrypt) (jwt : Auth.Jwt) (io : SocketIo) (R G I : Type)

/-- One auth service, one lobby, gateways `G` and engine replicas `I`. -/
structure Services where
  auth : Auth.AuthService bc jwt := {}
  lobby : Lobby.LobbyService := {}
  starting : Broker GameStarting := {}
  gateways : G → Realtime.Gateway io := fun _ => {}
  fleet : Fleet R I := {}

inductive Input where
  | auth (i : Auth.Input bc)
  | lobby (token : jwt.Token) (request : LobbyRequest)
  | purge (now : Int)
  | connect (g : G) (socketId : SocketId) (token : Option jwt.Token)
  | subscribeGame (g : G) (socketId : SocketId) (gameId : GameId)
  | unsubscribeGame (g : G) (socketId : SocketId) (gameId : GameId)
  | disconnect (g : G) (socketId : SocketId)
  | gameCommand (g : G) (socketId : SocketId) (gameId : GameId)
      (payload : (id : Registered) → id.Payload)
      (clientSeq : Option Nat)
  | start (i : I) (k : Nat)
  | settleStart (k : Nat)
  | deliver (i : I) (k : Nat)
  | settle (k : Nat)
  | complete (i : I) (gameId : GameId)
  | resume (i : I) (gameId : GameId)

variable {bc jwt io R G I}

/-- The token of an answer of the auth service. -/
def issued? (a : Auth.Answer jwt) : Option jwt.Token :=
  match a.response with
  | .ok auth => some auth.accessToken
  | _ => none

/-- The token an input shows. -/
def Input.token? : Input bc jwt G I → Option jwt.Token
  | .lobby token _ => some token
  | .connect _ _ token => token
  | _ => none

namespace Services

/-- A token that is not one the auth service has answered with is not verified: nobody else can
sign. -/
def Known (p : Services bc jwt io R G I) (token : jwt.Token) : Prop :=
  jwt.verify token = none ∨ token ∈ p.auth.answers.filterMap issued?

instance [DecidableEq jwt.Token] (p : Services bc jwt io R G I) (token : jwt.Token) :
    Decidable (p.Known token) :=
  inferInstanceAs (Decidable (_ ∨ _))

/-- An operation of the lobby; what it publishes for the engine is queued. -/
def runLobby (op : Lobby.Op) (p : Services bc jwt io R G I) : Services bc jwt io R G I :=
  let lobby := op.exec p.lobby
  { p with
    lobby
    starting := ((lobby.published.drop p.lobby.published.length).filterMap starting?).foldl
      (fun b m => b.publish m)
      p.starting }

variable [DecidableEq G]

def setGateway (g : G) (gateway : Realtime.Gateway io) (p : Services bc jwt io R G I) :
    Services bc jwt io R G I :=
  { p with gateways := fun g' => if g' = g then gateway else p.gateways g' }

/-- Who the token is of, if it is verified. -/
def user (token : jwt.Token) : Option Realtime.UserId := (jwt.verify token).map (·.sub)

/-- A handler of a socket that is connected. -/
def onSocket (g : G) (socketId : SocketId)
    (handler : Realtime.UserId → Realtime.Gateway io → Realtime.Gateway io)
    (p : Services bc jwt io R G I) : Option (Services bc jwt io R G I) :=
  ((p.gateways g).users.get? socketId).map fun userId =>
    p.setGateway g (handler userId (p.gateways g))

variable [DecidableEq I] [Strength R]

def runFleet (input : Engine.FleetInput I) (p : Services bc jwt io R G I) :
    Option (Services bc jwt io R G I) :=
  (p.fleet.turn input).map fun m => { p with fleet := m.2 }

def turn (p : Services bc jwt io R G I) : Input bc jwt G I → Option (Services bc jwt io R G I)
  | .auth i => (p.auth.turn i).map fun auth => { p with auth }
  | .lobby token request =>
    match jwt.verify token with
    | none => some p
    | some payload => some (p.runLobby (request.op payload))
  | .purge now => some (p.runLobby (.purge now))
  | .connect g socketId token =>
    if socketId ∈ (p.gateways g).users.keys ∨ ':' ∈ socketId.toList then none
    else some (p.setGateway g ((p.gateways g).handleConnection socketId (token.bind user)))
  | .subscribeGame g socketId gameId =>
    p.onSocket g socketId fun userId gateway => gateway.subscribeGame socketId userId gameId
  | .unsubscribeGame g socketId gameId =>
    p.onSocket g socketId fun _ gateway => gateway.unsubscribeGame socketId gameId
  | .disconnect g socketId => p.onSocket g socketId fun _ gateway =>
      gateway.handleDisconnect socketId
  | .gameCommand g socketId gameId payload clientSeq =>
    ((p.gateways g).users.get? socketId).bind fun userId =>
      p.runFleet (.publish gameId userId payload clientSeq)
  | .start i k =>
    (p.starting.take k).map fun (msg, starting) =>
      let (result, fleet) := handleStarting i msg p.fleet
      { p with fleet, starting := starting.hold msg (Engine.settlement result) }
  | .settleStart k => (p.starting.settle k).map fun (_, starting) => { p with starting }
  | .deliver i k => p.runFleet (.deliver i k)
  | .settle k => p.runFleet (.settle k)
  | .complete i gameId => p.runFleet (.complete i gameId)
  | .resume i gameId => p.runFleet (.resume i gameId)

/-- The lobby's ids are fresh when a request is let through. -/
def Fresh (p : Services bc jwt io R G I) : Input bc jwt G I → Prop
  | .lobby token request => ∀ payload ∈ jwt.verify token, (request.op payload).Fresh p.lobby
  | _ => True

/-- Whether an input may come. -/
def Allowed (p : Services bc jwt io R G I) (i : Input bc jwt G I) : Prop :=
  (∀ token ∈ i.token?, p.Known token) ∧ p.Fresh i

structure Step (p : Services bc jwt io R G I) (i : Input bc jwt G I) (p' : Services bc jwt io R G I)
    : Prop where
  allowed : p.Allowed i
  turn : p.turn i = some p'

omit [DecidableEq G] [DecidableEq I] [Strength R] in
instance (p : Services bc jwt io R G I) : ∀ i : Input bc jwt G I, Decidable (p.Fresh i)
  | .lobby token request =>
    inferInstanceAs (Decidable (∀ payload ∈ jwt.verify token, (request.op payload).Fresh p.lobby))
  | .auth _ | .purge _ | .connect .. | .subscribeGame .. | .unsubscribeGame .. | .disconnect
      .. | .gameCommand ..
  | .start .. | .settleStart _ | .deliver .. | .settle _ | .complete .. | .resume .. =>
    inferInstanceAs (Decidable True)

instance [DecidableEq jwt.Token] (p : Services bc jwt io R G I) (i : Input bc jwt G I) :
    Decidable (p.Allowed i) :=
  inferInstanceAs (Decidable (_ ∧ _))

/-- A step, if the input may come. -/
def shoot [DecidableEq jwt.Token] (p : Services bc jwt io R G I) (i : Input bc jwt G I) :
    Option (Input bc jwt G I × Services bc jwt io R G I) :=
  if p.Allowed i then (p.turn i).map fun p' => (i, p') else none

theorem shoot_step [DecidableEq jwt.Token] {p p' : Services bc jwt io R G I}
    {i l : Input bc jwt G I} (h : p.shoot i = some (l, p')) : Step p l p' := by
  unfold shoot at h
  split at h
  · rename_i hallowed
    obtain ⟨p₁, hturn, heq⟩ := Option.map_eq_some_iff.mp h
    cases heq
    exact ⟨hallowed, hturn⟩
  · cases h

end Services

/-- A step with its two ends. -/
abbrev PRecord (bc : Auth.Bcrypt) (jwt : Auth.Jwt) (io : SocketIo) (R G I : Type) :=
  Record (Services bc jwt io R G I) (Input bc jwt G I)

abbrev PlatformRun [DecidableEq G] [DecidableEq I] [Strength R]
    (rs : List (PRecord bc jwt io R G I)) (p : Services bc jwt io R G I) : Prop :=
  Trace (Recorded Services.Step) {} rs p

end Boardgame.Platform
