import Boardgame.Lib.Eff
import Boardgame.Lib.Trace
import Boardgame.Lobby.Room

/-!
# Lobby.Service

The lobby (`lobby.service.ts`): the rooms, the operations on them, and what they publish. No
operation awaits anything, so each runs from its call to its end undisturbed. What `randomUUID` and
the clock return is an argument; `Op.Fresh` says that an id is never returned twice.

* `Effect`: what an operation does, said once.
* `effect_of_exec`: every operation has its effect, or is refused and changes nothing.
* `Effect.starts_or`: whether it starts a game.
* `replay_trace`: a list of operations as a run.
-/

namespace Boardgame.Lobby

/-- What is published on `lobby.events`. -/
inductive LobbyEvent where
  | roomCreated (roomId : RoomId) (hostId : UserId)
  | playerJoined (roomId : RoomId) (userId : UserId)
  | playerReady (roomId : RoomId) (userId : UserId) (ready : Bool)
  | gameStarting (roomId : RoomId) (gameId : String) (scenarioId : String)
      (players : List (UserId × String))
  | playerLeft (roomId : RoomId) (userId : UserId)
  | roomClosed (roomId : RoomId) (reason : String)
  deriving DecidableEq

def LobbyEvent.roomId : LobbyEvent → RoomId
  | .roomCreated r _ | .playerJoined r _ | .playerReady r _ _ | .gameStarting
      r _ _ _ | .playerLeft r _
  | .roomClosed r _ => r

/-- The game an event starts. -/
def LobbyEvent.startedGame : LobbyEvent → Option String
  | .gameStarting _ gameId _ _ => some gameId
  | _ => none

structure CreateRoomRequest where
  name : String
  scenarioId : String
  maxPlayers : ℚ

/-- The service: its rooms, and what it has published. -/
structure LobbyService where
  rooms : OrderedMap RoomId RoomEntity := ∅
  published : List LobbyEvent := []

abbrev LobbyM (α : Type) := EStateM Exception LobbyService α

namespace LobbyService

def roomTtlMs : Int := 30 * 60 * 1000

def soloRoomTtlMs : Int := 3 * 60 * 1000

def publish (event : LobbyEvent) (l : LobbyService) : LobbyService :=
  { l with published := l.published ++ [event] }

def putRoom (roomId : RoomId) (room : RoomEntity) (l : LobbyService) : LobbyService :=
  { l with rooms := l.rooms.set roomId room }

def dropRoom (roomId : RoomId) (l : LobbyService) : LobbyService :=
  { l with rooms := l.rooms.erase roomId }

/-- `this.rooms.get(roomId)`, or `NotFoundException`. -/
def requireRoom (roomId : RoomId) : LobbyM RoomEntity := do
  match (← get).rooms.get? roomId with
  | none => throw (.notFound "Room not found")
  | some room => return room

def forbidIf (c : Prop) [Decidable c] (message : String) : LobbyM Unit :=
  if c then throw (.forbidden message) else pure ()

def createRoom (uuid : RoomId) (now : Int) (userId : UserId) (displayName : String)
    (req : CreateRoomRequest) : LobbyM RoomDetail := do
  let room := RoomEntity.new ⟨uuid, req.name, req.scenarioId, userId, req.maxPlayers⟩ now
  let room := room.addPlayer userId displayName
  modify (putRoom room.roomId room)
  modify (publish (.roomCreated room.roomId userId))
  return room.toDetail

def joinRoom (userId : UserId) (displayName : String) (roomId : RoomId) : LobbyM RoomDetail := do
  let room ← requireRoom roomId
  forbidIf (room.status ≠ RoomStatus.open) "Room is no longer accepting players"
  forbidIf (room.isFull = true) "Room is full"
  let room := room.addPlayer userId displayName
  modify (putRoom roomId room)
  modify (publish (.playerJoined roomId userId))
  return room.toDetail

def setReady (userId : UserId) (roomId : RoomId) (ready : Bool) : LobbyM RoomDetail := do
  let room ← requireRoom roomId
  let room ← Eff.liftExcept (room.setReady userId ready)
  modify (putRoom roomId room)
  modify (publish (.playerReady roomId userId ready))
  return room.toDetail

def startGame (uuid : String) (userId : UserId) (roomId : RoomId) : LobbyM RoomDetail := do
  let room ← requireRoom roomId
  forbidIf (room.hostId ≠ userId) "Only the host can start the game"
  forbidIf (room.playerCount < 2) "Need at least 2 players to start"
  forbidIf (room.allReady = false) "All players must be ready before starting"
  let room := room.markStarting uuid
  modify (putRoom roomId room)
  modify (publish (.gameStarting roomId uuid room.scenarioId room.players))
  return room.toDetail

def leaveRoom (userId : UserId) (roomId : RoomId) : LobbyM Unit := do
  let room ← requireRoom roomId
  forbidIf (room.hostId = userId) "Host cannot leave — close the room instead"
  let room := room.removePlayer userId
  modify (putRoom roomId room)
  modify (publish (.playerLeft roomId userId))
  Eff.when (room.playerCount ≤ 1) do
    modify (dropRoom roomId)
    modify (publish (.roomClosed roomId "host-closed"))

def closeRoom (userId : UserId) (roomId : RoomId) : LobbyM Unit := do
  let room ← requireRoom roomId
  forbidIf (room.hostId ≠ userId) "Only the host can close the room"
  modify (dropRoom roomId)
  modify (publish (.roomClosed roomId "host-closed"))

/-- An open room past its time: three minutes for a host alone, thirty for more. -/
def expired (now : Int) (room : RoomEntity) : Bool :=
  room.status = RoomStatus.open ∧
    room.createdAt < now - if room.playerCount ≤ 1 then soloRoomTtlMs else roomTtlMs

def purgeAbandonedRooms (now : Int) : LobbyM Unit := do
  Eff.each (fun e => Eff.when (expired now e.2 = true) do
    modify (dropRoom e.1)
    modify (publish (.roomClosed e.1 "ttl-expired"))) (← get).rooms.entries

end LobbyService

/-! ## Operations -/

inductive Op where
  | createRoom (uuid : RoomId) (now : Int) (userId : UserId) (displayName : String)
      (req : CreateRoomRequest)
  | joinRoom (userId : UserId) (displayName : String) (roomId : RoomId)
  | setReady (userId : UserId) (roomId : RoomId) (ready : Bool)
  | startGame (uuid : String) (userId : UserId) (roomId : RoomId)
  | leaveRoom (userId : UserId) (roomId : RoomId)
  | closeRoom (userId : UserId) (roomId : RoomId)
  | purge (now : Int)

/-- Who asks for an operation; the purge is the service's own. -/
def Op.user : Op → Option UserId
  | .createRoom _ _ u _ _ | .joinRoom u _ _ | .setReady u _ _ | .startGame _ u _ | .leaveRoom u _
  | .closeRoom u _ => some u
  | .purge _ => none

def Op.run : Op → LobbyM Unit
  | .createRoom uuid now userId displayName req =>
    discard (LobbyService.createRoom uuid now userId displayName req)
  | .joinRoom userId displayName roomId => discard (LobbyService.joinRoom userId displayName roomId)
  | .setReady userId roomId ready => discard (LobbyService.setReady userId roomId ready)
  | .startGame uuid userId roomId => discard (LobbyService.startGame uuid userId roomId)
  | .leaveRoom userId roomId => LobbyService.leaveRoom userId roomId
  | .closeRoom userId roomId => LobbyService.closeRoom userId roomId
  | .purge now => LobbyService.purgeAbandonedRooms now

/-- The service after an operation, whether it was answered or failed. -/
def Op.exec (op : Op) (l : LobbyService) : LobbyService := Eff.final op.run l

/-- `randomUUID` returns an id no room and no game has been given before. -/
def Op.Fresh (l : LobbyService) : Op → Prop
  | .createRoom uuid _ _ _ _ => uuid ∉ l.published.map LobbyEvent.roomId
  | .startGame uuid _ _ => uuid ∉ l.published.filterMap LobbyEvent.startedGame
  | _ => True

instance (l : LobbyService) : ∀ op : Op, Decidable (op.Fresh l)
  | .createRoom uuid _ _ _ _ =>
    inferInstanceAs (Decidable (uuid ∉ l.published.map LobbyEvent.roomId))
  | .startGame uuid _ _ =>
    inferInstanceAs (Decidable (uuid ∉ l.published.filterMap LobbyEvent.startedGame))
  | .joinRoom .. | .setReady .. | .leaveRoom .. | .closeRoom .. | .purge .. =>
    inferInstanceAs (Decidable True)

inductive Step : LobbyService → Op → LobbyService → Prop where
  | mk {l : LobbyService} {op : Op} : op.Fresh l → Step l op (op.exec l)

/-! ## The effect of an operation -/

/-- The room's host asks for the game, and nobody is missing. -/
structure MayStart (l : LobbyService) (userId : UserId) (roomId : RoomId) (room : RoomEntity) :
    Prop where
  found : l.rooms.get? roomId = some room
  host : room.hostId = userId
  two : 2 ≤ room.playerCount
  ready : room.allReady = true

/-- A room expires: it goes, and that is published. -/
def expire (roomId : RoomId) (l : LobbyService) : LobbyService :=
  (l.dropRoom roomId).publish (.roomClosed roomId "ttl-expired")

inductive Effect (l : LobbyService) : Op → LobbyService → Prop where
  | refused {op : Op} : (∀ uuid u r room, op = .startGame uuid u r → ¬ MayStart l u r room) →
      (∀ u r room, op = .leaveRoom u r → l.rooms.get? r = some room → room.hostId = u) →
      Effect l op l
  | created {uuid : RoomId} {now : Int} {u : UserId} {name : String} {req : CreateRoomRequest} :
      Effect l (.createRoom uuid now u name req)
        ((l.putRoom uuid
          ((RoomEntity.new ⟨uuid, req.name, req.scenarioId, u, req.maxPlayers⟩ now).addPlayer
          u name)).publish (.roomCreated uuid u))
  | joined {u : UserId} {name : String} {r : RoomId} {room : RoomEntity} :
      l.rooms.get? r = some room → room.status = RoomStatus.open → room.isFull = false →
      Effect l (.joinRoom u name r)
        ((l.putRoom r (room.addPlayer u name)).publish (.playerJoined r u))
  | readied {u : UserId} {r : RoomId} {ready : Bool} {room room' : RoomEntity} :
      l.rooms.get? r = some room → room.setReady u ready = .ok room' →
      Effect l (.setReady u r ready) ((l.putRoom r room').publish (.playerReady r u ready))
  | started {uuid : String} {u : UserId} {r : RoomId} {room : RoomEntity} : MayStart l u r room →
      Effect l (.startGame uuid u r) ((l.putRoom r (room.markStarting uuid)).publish
        (.gameStarting r uuid room.scenarioId room.players))
  | left {u : UserId} {r : RoomId} {room : RoomEntity} :
      l.rooms.get? r = some room → room.hostId ≠ u → 1 < (room.removePlayer u).playerCount →
      Effect l (.leaveRoom u r) ((l.putRoom r (room.removePlayer u)).publish (.playerLeft r u))
  | emptied {u : UserId} {r : RoomId} {room : RoomEntity} :
      l.rooms.get? r = some room → room.hostId ≠ u → (room.removePlayer u).playerCount ≤ 1 →
      Effect l (.leaveRoom u r)
      ((((l.putRoom r (room.removePlayer u)).publish (.playerLeft r u)).dropRoom r).publish
        (.roomClosed r "host-closed"))
  | closed {u : UserId} {r : RoomId} {room : RoomEntity} :
      l.rooms.get? r = some room → room.hostId = u →
      Effect l (.closeRoom u r) ((l.dropRoom r).publish (.roomClosed r "host-closed"))
  | purged {now : Int} : Effect l (.purge now)
      (((l.rooms.entries.filter fun e => LobbyService.expired now e.2).map Prod.fst).foldl
        (fun l r => expire r l) l)

section Exec

variable {l : LobbyService} {α : Type}

@[simp] theorem final_requireRoom_bind (r : RoomId) (f : RoomEntity → LobbyM α) :
    Eff.final (LobbyService.requireRoom r >>= f) l = match l.rooms.get? r with
      | none => l
      | some room => Eff.final (f room) l := by
  cases h : l.rooms.get? r with
  | none =>
    refine Eff.final_bind_error (e := .notFound "Room not found") ?_
    simp only [LobbyService.requireRoom, EStateM.run_bind, EStateM.run_get, h]
    rfl
  | some room =>
    refine Eff.final_bind_ok ?_
    simp [LobbyService.requireRoom, h]

@[simp] theorem final_forbidIf_bind (c : Prop) [Decidable c] (message : String)
    (f : Unit → LobbyM α) :
    Eff.final (LobbyService.forbidIf c message >>= f) l = if c then l else Eff.final (f ()) l := by
  unfold LobbyService.forbidIf
  by_cases h : c
  · rw [if_pos h, if_pos h]
    exact Eff.final_bind_error rfl
  · rw [if_neg h, if_neg h]
    exact Eff.final_bind_ok rfl

/-- An operation that fails before it is told apart from the ones below. -/
theorem refused {op : Op} (hs : ∀ uuid u r, op ≠ .startGame uuid u r)
    (hl : ∀ u r, op ≠ .leaveRoom u r) :
    Effect l op l :=
  .refused (fun uuid u r _ h => absurd h (hs uuid u r)) fun u r _ h => absurd h (hl u r)

theorem createRoom_effect (uuid : RoomId) (now : Int) (u : UserId) (name : String)
    (req : CreateRoomRequest) :
    Effect l (.createRoom uuid now u name req) ((Op.createRoom uuid now u name req).exec l) := by
  simp only [Op.exec, Op.run, LobbyService.createRoom, Eff.final_discard, Eff.final_modify_bind,
    Eff.final_pure]
  have hid : ((RoomEntity.new ⟨uuid, req.name, req.scenarioId, u, req.maxPlayers⟩ now).addPlayer
      u name).roomId =
      uuid := by
    unfold RoomEntity.addPlayer
    split <;> rfl
  rw [hid]
  exact .created

theorem joinRoom_effect (u : UserId) (name : String) (r : RoomId) :
    Effect l (.joinRoom u name r) ((Op.joinRoom u name r).exec l) := by
  simp only [Op.exec, Op.run, LobbyService.joinRoom, Eff.final_discard, final_requireRoom_bind,
    final_forbidIf_bind, Eff.final_modify_bind, Eff.final_pure]
  split
  · exact refused (by simp) (by simp)
  · rename_i room hroom
    split
    · exact refused (by simp) (by simp)
    · rename_i hopen
      split
      · exact refused (by simp) (by simp)
      · rename_i hfull
        exact .joined hroom (not_not.mp hopen) (by simpa using hfull)

theorem setReady_effect (u : UserId) (r : RoomId) (ready : Bool) :
    Effect l (.setReady u r ready) ((Op.setReady u r ready).exec l) := by
  simp only [Op.exec, Op.run, LobbyService.setReady, Eff.final_discard, final_requireRoom_bind,
    Eff.final_liftExcept_bind, Eff.final_modify_bind, Eff.final_pure]
  split
  · exact refused (by simp) (by simp)
  · rename_i room hroom
    split
    · rename_i room' hready
      exact .readied hroom hready
    · exact refused (by simp) (by simp)

theorem startGame_effect (uuid : String) (u : UserId) (r : RoomId) :
    Effect l (.startGame uuid u r) ((Op.startGame uuid u r).exec l) := by
  have hrefused : (∀ room, l.rooms.get? r = some room → ¬ MayStart l u r room) →
      Effect l (.startGame uuid u r) l := by
    refine fun h => .refused (fun uuid' u' r' room hop hstart => ?_) (by simp)
    cases hop
    exact h room hstart.found hstart
  simp only [Op.exec, Op.run, LobbyService.startGame, Eff.final_discard, final_requireRoom_bind,
    final_forbidIf_bind, Eff.final_modify_bind, Eff.final_pure]
  split
  · rename_i hnone
    exact hrefused fun room hroom => by rw [hnone] at hroom; cases hroom
  · rename_i room hroom
    have honly : ∀ {P : Prop}, (MayStart l u r room → P → False) → P →
        Effect l (.startGame uuid u r) l := by
      intro P h hP
      refine hrefused fun room' hroom' hstart => ?_
      rw [hroom, Option.some.injEq] at hroom'
      exact h (hroom' ▸ hstart) hP
    split
    · rename_i hhost
      exact honly (fun h hne => hne h.host) hhost
    · rename_i hhost
      split
      · rename_i hfew
        exact honly (fun h hlt => absurd h.two (by omega)) hfew
      · rename_i htwo
        split
        · rename_i hunready
          exact honly (fun h hno => by rw [h.ready] at hno; cases hno) hunready
        · rename_i hready
          have hmay : MayStart l u r room :=
            ⟨hroom, not_not.mp hhost, not_lt.mp htwo, by simpa using hready⟩
          have heff : Effect l (.startGame uuid u r) _ := Effect.started hmay
          exact heff

theorem leaveRoom_effect (u : UserId) (r : RoomId) :
    Effect l (.leaveRoom u r) ((Op.leaveRoom u r).exec l) := by
  simp only [Op.exec, Op.run, LobbyService.leaveRoom, final_requireRoom_bind,
    final_forbidIf_bind, Eff.final_modify_bind, Eff.final_when, Eff.final_modify]
  split
  · rename_i hnone
    refine .refused (by simp) fun u' r' room hop hroom => ?_
    cases hop
    rw [hnone] at hroom
    cases hroom
  · rename_i room hroom
    split
    · rename_i hhost
      refine .refused (by simp) fun u' r' room' hop hroom' => ?_
      cases hop
      rw [hroom, Option.some.injEq] at hroom'
      exact hroom' ▸ hhost
    · rename_i hguest
      split
      · rename_i hfew
        exact .emptied hroom hguest hfew
      · rename_i hmany
        exact .left hroom hguest (not_le.mp hmany)

theorem closeRoom_effect (u : UserId) (r : RoomId) :
    Effect l (.closeRoom u r) ((Op.closeRoom u r).exec l) := by
  simp only [Op.exec, Op.run, LobbyService.closeRoom, final_requireRoom_bind,
    final_forbidIf_bind, Eff.final_modify_bind, Eff.final_modify]
  split
  · exact refused (by simp) (by simp)
  · rename_i room hroom
    split
    · exact refused (by simp) (by simp)
    · rename_i hhost
      exact .closed hroom (not_not.mp hhost)

theorem purge_effect (now : Int) : Effect l (.purge now) ((Op.purge now).exec l) := by
  have hpass : ∀ (e : RoomId × RoomEntity) (l : LobbyService),
      (Eff.when (LobbyService.expired now e.2 = true) (do
        modify (LobbyService.dropRoom e.1)
        modify (LobbyService.publish (.roomClosed e.1 "ttl-expired"))) : LobbyM Unit).run l =
      .ok () (if LobbyService.expired now e.2 = true then expire e.1 l else l) := by
    intro e l
    by_cases h : LobbyService.expired now e.2 = true
    · rw [Eff.when_true h, if_pos h]
      rfl
    · rw [Eff.when_false h, if_neg h]
      rfl
  have hexec : (Op.purge now).exec l = l.rooms.entries.foldl
      (fun l e => if LobbyService.expired now e.2 = true then expire e.1 l else l) l := by
    have hget : (get : LobbyM LobbyService).run l = .ok l l := rfl
    simp only [Op.exec, Op.run, LobbyService.purgeAbandonedRooms]
    rw [Eff.final_bind_ok hget, Eff.final_each fun e l => by rw [Eff.final, hpass]]
    congr 1
    funext l e
    rw [Eff.final, hpass]
  have hfold : (Op.purge now).exec l =
      ((l.rooms.entries.filter fun e => LobbyService.expired now e.2).map
      Prod.fst).foldl (fun l r => expire r l) l := by
    rw [hexec, List.foldl_map, List.foldl_filter]
  rw [hfold]
  exact .purged

/-- **What an operation does**: it has its effect, or is refused and changes nothing. -/
theorem effect_of_exec (op : Op) : Effect l op (op.exec l) := by
  cases op with
  | createRoom uuid now u name req => exact createRoom_effect uuid now u name req
  | joinRoom u name r => exact joinRoom_effect u name r
  | setReady u r ready => exact setReady_effect u r ready
  | startGame uuid u r => exact startGame_effect uuid u r
  | leaveRoom u r => exact leaveRoom_effect u r
  | closeRoom u r => exact closeRoom_effect u r
  | purge now => exact purge_effect now

end Exec

theorem Step.fresh {l l' : LobbyService} {op : Op} (h : Step l op l') : op.Fresh l := by
  cases h with | mk h => exact h

theorem Step.effect {l l' : LobbyService} {op : Op} (h : Step l op l') : Effect l op l' := by
  cases h with | mk => exact effect_of_exec op

theorem expire_published (rs : List RoomId) : ∀ l : LobbyService,
    (rs.foldl (fun l r => expire r l) l).published =
      l.published ++ rs.map (LobbyEvent.roomClosed · "ttl-expired") := by
  induction rs with
  | nil => exact fun l => (List.append_nil _).symm
  | cons r rs ih =>
    intro l
    rw [List.foldl_cons, ih, List.map_cons, List.append_cons]
    rfl

/-- A game starts when the host may start it, and at no other time. -/
theorem Effect.starts_or {l l' : LobbyService} {op : Op} (h : Effect l op l') :
    (∃ all, l'.published = l.published ++ all ∧ (∀ e ∈ all, e.startedGame = none) ∧
      ∀ uuid u r room, op = .startGame uuid u r → ¬ MayStart l u r room) ∨
    ∃ uuid u r room, op = .startGame uuid u r ∧ MayStart l u r room ∧
      l' = (l.putRoom r (room.markStarting uuid)).publish
        (.gameStarting r uuid room.scenarioId room.players) := by
  cases h with
  | refused hstart => exact .inl ⟨[], (List.append_nil _).symm, by simp, hstart⟩
  | started hmay => exact .inr ⟨_, _, _, _, rfl, hmay, rfl⟩
  | created | joined | readied | left | closed =>
    exact .inl ⟨_, rfl, by simp [LobbyEvent.startedGame], by simp⟩
  | emptied => exact .inl ⟨_, List.append_assoc _ _ _, by simp [LobbyEvent.startedGame], by simp⟩
  | purged =>
    refine .inl ⟨_, expire_published _ l, fun e he => ?_, by simp⟩
    obtain ⟨_, _, rfl⟩ := List.mem_map.mp he
    rfl

/-! ## Replaying -/

/-- The record of a list of operations, and the lobby they leave. -/
def replay (l : LobbyService) : List Op → List (Record LobbyService Op) × LobbyService
  | [] => ([], l)
  | op :: ops =>
    let rest := replay (op.exec l) ops
    (⟨l, op, op.exec l⟩ :: rest.1, rest.2)

def allFresh (l : LobbyService) : List Op → Bool
  | [] => true
  | op :: ops => op.Fresh l && allFresh (op.exec l) ops

theorem replay_trace : ∀ {ops : List Op} {l : LobbyService}, allFresh l ops = true →
    Trace (Recorded Step) l (replay l ops).1 (replay l ops).2 := by
  intro ops
  induction ops with
  | nil => exact fun _ => .nil
  | cons op ops ih =>
    intro l h
    rw [allFresh, Bool.and_eq_true, decide_eq_true_eq] at h
    exact .cons (.mk (.mk h.1)) (ih h.2)

end Boardgame.Lobby
