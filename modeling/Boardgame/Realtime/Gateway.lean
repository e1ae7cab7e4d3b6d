import Boardgame.Engine.Service

/-!
# Realtime.Gateway

The sockets of one realtime gateway (`room-registry.service.ts`, `realtime.gateway.ts`,
`event-relay.service.ts`): who is subscribed to which game, and who is sent a message of the bus.
What socket.io does is a parameter, `SocketIo`; `inMemory` is the adapter it comes with.

* `Gateway.Step`: an event of a socket, and what its handler does.
* `Gateway.dispatch`: the sockets a message goes to.
-/

namespace Boardgame.Realtime

abbrev SocketId := String

abbrev UserId := String

abbrev GameId := String

/-! ## The registry -/

structure RoomRegistry where
  bySocket : OrderedMap SocketId (List GameId) := ∅
  byGame : OrderedMap GameId (OrderedMap SocketId UserId) := ∅

namespace RoomRegistry

/-- `set.add(gameId)`. -/
def addGame (games : List GameId) (gameId : GameId) : List GameId :=
  if gameId ∈ games then games else games ++ [gameId]

def attach (r : RoomRegistry) (gameId : GameId) (socketId : SocketId) (userId : UserId) :
    RoomRegistry :=
  { byGame := r.byGame.set gameId (((r.byGame.get? gameId).getD ∅).set socketId userId)
    bySocket := r.bySocket.set socketId (addGame ((r.bySocket.get? socketId).getD []) gameId) }

def detach (r : RoomRegistry) (gameId : GameId) (socketId : SocketId) : RoomRegistry :=
  { byGame := r.byGame.modify gameId (·.erase socketId)
    bySocket := r.bySocket.modify socketId (·.filter (· ≠ gameId)) }

def removeSocket (r : RoomRegistry) (socketId : SocketId) : RoomRegistry :=
  match r.bySocket.get? socketId with
  | none => r
  | some games =>
    { byGame := games.foldl (fun byGame gameId => byGame.modify gameId (·.erase socketId)) r.byGame
      bySocket := r.bySocket.erase socketId }

def socketsForGame (r : RoomRegistry) (gameId : GameId) : OrderedMap SocketId UserId :=
  (r.byGame.get? gameId).getD ∅

/-- The games listed under a socket. -/
def gamesOf (r : RoomRegistry) (socketId : SocketId) : List GameId :=
  (r.bySocket.get? socketId).getD []

end RoomRegistry

/-! ## socket.io -/

abbrev Room := String

/-- What the gateway relies on of socket.io: `join` and `leave` change the membership of a room at
once, a socket joins the room of its own id when it connects and leaves all rooms when it
disconnects. -/
structure SocketIo where
  State : Type
  start : State
  connect : SocketId → State → State
  join : SocketId → Room → State → State
  leave : SocketId → Room → State → State
  disconnect : SocketId → State → State
  members : State → Room → List SocketId
  nodup_members : ∀ s room, (members s room).Nodup
  mem_start : ∀ sid room, sid ∉ members start room
  mem_connect : ∀ {s sid sid' room}, sid' ∈ members (connect sid s) room ↔
    sid' ∈ members s room ∨ sid' = sid ∧ room = sid
  mem_join : ∀ {s sid sid' room room'}, sid' ∈ members (join sid room s) room' ↔
    sid' ∈ members s room' ∨ sid' = sid ∧ room' = room
  mem_leave : ∀ {s sid sid' room room'}, sid' ∈ members (leave sid room s) room' ↔
    sid' ∈ members s room' ∧ ¬ (sid' = sid ∧ room' = room)
  mem_disconnect : ∀ {s sid sid' room}, sid' ∈ members (disconnect sid s) room ↔
    sid' ∈ members s room ∧ sid' ≠ sid

/-- Who is in a room, of a set of memberships. -/
def inRoom (s : OrderedMap (SocketId × Room) Unit) (room : Room) : List SocketId :=
  (s.keys.filter fun k => k.2 = room).map Prod.fst

theorem mem_inRoom {s : OrderedMap (SocketId × Room) Unit} {sid : SocketId} {room : Room} :
    sid ∈ inRoom s room ↔ (sid, room) ∈ s.keys := by
  simp [inRoom]

theorem nodup_inRoom (s : OrderedMap (SocketId × Room) Unit) (room : Room) :
    (inRoom s room).Nodup := by
  refine (s.nodup_keys.filter _).map_on fun a ha b hb h => Prod.ext h ?_
  rw [List.mem_filter, decide_eq_true_eq] at ha hb
  rw [ha.2, hb.2]

/-- The adapter that keeps who is in which room in memory. -/
def inMemory : SocketIo where
  State := OrderedMap (SocketId × Room) Unit
  start := ∅
  connect sid s := s.set (sid, sid) ()
  join sid room s := s.set (sid, room) ()
  leave sid room s := s.erase (sid, room)
  disconnect sid s := s.filter fun k _ => k.1 ≠ sid
  members := inRoom
  nodup_members := nodup_inRoom
  mem_start sid room h := by
    rw [mem_inRoom] at h
    cases h
  mem_connect := by
    intro s sid sid' room
    simp only [mem_inRoom, OrderedMap.mem_keys_set, Prod.mk.injEq, or_comm]
  mem_join := by
    intro s sid sid' room room'
    simp only [mem_inRoom, OrderedMap.mem_keys_set, Prod.mk.injEq, or_comm]
  mem_leave := by
    intro s sid sid' room room'
    simp only [mem_inRoom, OrderedMap.mem_keys_erase, ne_eq, Prod.mk.injEq]
  mem_disconnect := by
    intro s sid sid' room
    simp only [mem_inRoom, OrderedMap.keys_filter, List.mem_filter, decide_eq_true_eq]

/-! ## The gateway -/

/-- The room of a game. -/
def gameRoom (gameId : GameId) : Room := "game:" ++ gameId

/-- The sockets that are connected, with their `client.data.userId`, and what is kept of them. -/
structure Gateway (io : SocketIo) where
  users : OrderedMap SocketId UserId := ∅
  rooms : RoomRegistry := {}
  server : io.State := io.start

/-- An event of a socket. A `connect` comes with the user its token is verified to be of, if it
is. -/
inductive SocketEvent where
  | connect (socketId : SocketId) (user : Option UserId)
  | subscribeGame (socketId : SocketId) (gameId : GameId)
  | unsubscribeGame (socketId : SocketId) (gameId : GameId)
  | disconnect (socketId : SocketId)
  deriving DecidableEq

namespace Gateway

variable {io : SocketIo}

def handleDisconnect (g : Gateway io) (socketId : SocketId) : Gateway io :=
  { users := g.users.erase socketId
    rooms := g.rooms.removeSocket socketId
    server := io.disconnect socketId g.server }

/-- A client without a valid token is disconnected at once. -/
def handleConnection (g : Gateway io) (socketId : SocketId) (user : Option UserId) : Gateway io :=
  let connected := { g with server := io.connect socketId g.server }
  match user with
  | none => connected.handleDisconnect socketId
  | some userId => { connected with users := g.users.set socketId userId }

def subscribeGame (g : Gateway io) (socketId : SocketId) (userId : UserId) (gameId : GameId) :
    Gateway io :=
  { g with
    rooms := g.rooms.attach gameId socketId userId
    server := io.join socketId (gameRoom gameId) g.server }

def unsubscribeGame (g : Gateway io) (socketId : SocketId) (gameId : GameId) : Gateway io :=
  { g with
    rooms := g.rooms.detach gameId socketId
    server := io.leave socketId (gameRoom gameId) g.server }

/-- Handlers run for sockets that are connected. The id of a new socket is not in use, and of
letters, digits, `-` and `_`, as socket.io makes them. -/
inductive Step : Gateway io → SocketEvent → Gateway io → Prop where
  | connect {g : Gateway io} {socketId : SocketId} {user : Option UserId} :
      socketId ∉ g.users.keys → ':' ∉ socketId.toList →
      Step g (.connect socketId user) (g.handleConnection socketId user)
  | subscribed {g : Gateway io} {socketId : SocketId} {userId : UserId} {gameId : GameId} :
      g.users.get? socketId = some userId →
      Step g (.subscribeGame socketId gameId) (g.subscribeGame socketId userId gameId)
  | unsubscribed {g : Gateway io} {socketId : SocketId} {gameId : GameId} :
      socketId ∈ g.users.keys → Step g (.unsubscribeGame socketId gameId)
      (g.unsubscribeGame socketId gameId)
  | disconnected {g : Gateway io} {socketId : SocketId} :
      socketId ∈ g.users.keys → Step g (.disconnect socketId) (g.handleDisconnect socketId)

/-- `event.privateTo`, if it is not falsy. -/
def privateTo {V E : Type} (event : Engine.GameBusEvent V E) : Option UserId :=
  event.privateTo.filter (· ≠ "")

/-- `EventRelayService.dispatch` of a message of the game: the sockets it is emitted to. -/
def dispatch {V E : Type} (g : Gateway io) (gameId : GameId) (event : Engine.GameBusEvent V E) :
    List SocketId :=
  match privateTo event with
  | some user => (g.rooms.socketsForGame gameId).entries.flatMap fun e =>
      if e.2 = user then io.members g.server e.1 else []
  | none => io.members g.server (gameRoom gameId)

end Gateway

end Boardgame.Realtime
