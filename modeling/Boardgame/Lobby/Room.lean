import Mathlib.Data.Rat.Floor
import Boardgame.Lib.OrderedMap

/-!
# Lobby.Room

A room of the lobby (`room.entity.ts`): who is in it, who is ready, and whether its game is
starting. `maxPlayers` is a JavaScript number, read as an exact rational: nothing makes it an
integer.

* `addPlayer_keys`, `removePlayer_keys`, `setReady_keys`: who is in the room after a change.
* `playerCount_addPlayer_le`: a newcomer to a room that is not full stays within `⌈maxPlayers⌉`.
-/

namespace Boardgame.Lobby

abbrev RoomId := String

abbrev UserId := String

inductive RoomStatus where
  | «open»
  | starting
  | inGame
  | closed
  deriving DecidableEq

structure RoomMember where
  userId : UserId
  displayName : String
  ready : Bool
  deriving DecidableEq

/-- What a member reads of a room, `createdAt` in milliseconds. -/
structure RoomSummary where
  roomId : RoomId
  name : String
  scenarioId : String
  hostId : UserId
  status : RoomStatus
  playerCount : Nat
  maxPlayers : ℚ
  createdAt : Int

structure RoomDetail extends RoomSummary where
  players : List RoomMember
  gameId : Option String

/-- What a request is answered with when it fails. -/
inductive Exception where
  | notFound (message : String)
  | forbidden (message : String)
  | error (message : String)
  deriving DecidableEq

structure RoomEntityInit where
  roomId : RoomId
  name : String
  scenarioId : String
  hostId : UserId
  maxPlayers : ℚ

structure RoomEntity where
  roomId : RoomId
  name : String
  scenarioId : String
  hostId : UserId
  maxPlayers : ℚ
  createdAt : Int
  status : RoomStatus := RoomStatus.open
  gameId : Option String := none
  members : OrderedMap UserId RoomMember := ∅

namespace RoomEntity

/-- The constructor, at time `now`. -/
def new (init : RoomEntityInit) (now : Int) : RoomEntity :=
  { roomId := init.roomId, name := init.name, scenarioId := init.scenarioId, hostId := init.hostId
    maxPlayers := init.maxPlayers, createdAt := now }

def playerCount (room : RoomEntity) : Nat := room.members.entries.length

def isFull (room : RoomEntity) : Bool := room.maxPlayers ≤ (room.playerCount : ℚ)

def allReady (room : RoomEntity) : Bool :=
  room.playerCount > 1 && room.members.values.all RoomMember.ready

def addPlayer (room : RoomEntity) (userId : UserId) (displayName : String) : RoomEntity :=
  if room.members.has userId then room
  else { room with members := room.members.set userId ⟨userId, displayName, false⟩ }

def removePlayer (room : RoomEntity) (userId : UserId) : RoomEntity :=
  { room with members := room.members.erase userId }

def setReady (room : RoomEntity) (userId : UserId) (ready : Bool) : Except Exception RoomEntity :=
  match room.members.get? userId with
  | none => .error (.error ("Player " ++ userId ++ " not in room"))
  | some m => .ok { room with members := room.members.set userId { m with ready } }

def markStarting (room : RoomEntity) (gameId : String) : RoomEntity :=
  { room with status := .starting, gameId := some gameId }

/-- The players of the `game-starting` event: id and display name. -/
def players (room : RoomEntity) : List (UserId × String) :=
  room.members.values.map fun m => (m.userId, m.displayName)

def toSummary (room : RoomEntity) : RoomSummary :=
  { roomId := room.roomId, name := room.name, scenarioId := room.scenarioId, hostId := room.hostId
    status := room.status, playerCount := room.playerCount, maxPlayers := room.maxPlayers
    createdAt := room.createdAt }

/-- `...(this.gameId ? { gameId } : {})`: an empty id is left out. -/
def toDetail (room : RoomEntity) : RoomDetail :=
  { toRoomSummary := room.toSummary
    players := room.members.values
    gameId := room.gameId.filter (· ≠ "") }

/-! ## Members after a change -/

variable {room room' : RoomEntity} {userId : UserId}

/-- Who is in the room, in the order they came. -/
def roster (room : RoomEntity) : List UserId := room.members.keys

theorem playerCount_eq (room : RoomEntity) : room.playerCount = room.roster.length :=
  (List.length_map _).symm

theorem roster_nodup (room : RoomEntity) : room.roster.Nodup := room.members.nodup_keys

theorem has_iff : room.members.has userId = true ↔ userId ∈ room.roster := by
  rw [OrderedMap.has, Option.isSome_iff_exists, roster, OrderedMap.mem_keys]

theorem addPlayer_keys (room : RoomEntity) (userId : UserId) (displayName : String) :
    (room.addPlayer userId displayName).roster =
      if userId ∈ room.roster then room.roster else room.roster ++ [userId] := by
  unfold addPlayer
  by_cases h : userId ∈ room.roster
  · rw [if_pos (has_iff.mpr h), if_pos h]
  · rw [if_neg (fun hh => h (has_iff.mp hh)), if_neg h]
    simp only [roster, OrderedMap.keys, OrderedMap.entries_set_of_not_mem h, List.map_append,
      List.map_cons, List.map_nil]

theorem removePlayer_keys (room : RoomEntity) (userId : UserId) :
    (room.removePlayer userId).roster = room.roster.filter (· ≠ userId) := by
  simp only [roster, removePlayer, OrderedMap.keys, OrderedMap.erase, OrderedMap.filter,
    List.filter_map]
  rfl

/-- Readiness only changes for who is in the room. -/
theorem setReady_ok {ready : Bool} (h : room.setReady userId ready = .ok room') :
    userId ∈ room.roster ∧ ∃ m, room.members.get? userId = some m ∧
      room' = { room with members := room.members.set userId { m with ready } } := by
  unfold setReady at h
  split at h
  · cases h
  · rename_i m hm
    cases h
    exact ⟨OrderedMap.mem_keys.mpr ⟨m, hm⟩, m, hm, rfl⟩

theorem setReady_keys {ready : Bool} (h : room.setReady userId ready = .ok room') :
    room'.roster = room.roster := by
  obtain ⟨hin, _, _, rfl⟩ := setReady_ok h
  exact OrderedMap.keys_set_of_mem hin

/-- Who finds a room that is not full is one of `⌈maxPlayers⌉` at most. -/
theorem playerCount_addPlayer_le (hroom : room.isFull = false) (displayName : String) :
    ((room.addPlayer userId displayName).playerCount : ℤ) ≤ ⌈room.maxPlayers⌉ := by
  have hlt : ((room.playerCount : ℤ) : ℚ) < room.maxPlayers := by
    simpa [isFull] using hroom
  have hceil := Int.lt_ceil.mpr hlt
  have hlen : (room.addPlayer userId displayName).playerCount ≤ room.playerCount + 1 := by
    rw [playerCount_eq, addPlayer_keys, playerCount_eq]
    split
    · exact Nat.le_succ _
    · rw [List.length_append, List.length_singleton]
  omega

end RoomEntity

end Boardgame.Lobby
