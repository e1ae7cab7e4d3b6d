import Boardgame.Lobby.Rooms

/-!
# Lobby.Access

What somebody outside a room can do to it. `leaveRoom` asks only that its caller is not the host.

* `stranger_iff`: the room of others stays untouched exactly when the operation is not to leave it.
-/

namespace Boardgame.Lobby

variable {l l' : LobbyService} {r : RoomId} {room : RoomEntity} {u : UserId} {op : Op}

/-- The room is as it was, and nothing is published about it. -/
def Untouched (c : Record LobbyService Op) (r : RoomId) (room : RoomEntity) : Prop :=
  c.after.rooms.get? r = some room ∧ ∀ e ∈ news c, e.roomId ≠ r

theorem Sees.untouched_iff {after : Option RoomEntity} {told : List LobbyEvent}
    (h : Sees l l' r after told) :
    Untouched ⟨l, op, l'⟩ r room ↔ after = some room ∧ told = [] := by
  obtain ⟨hafter, all, hall, rfl⟩ := h
  rw [Untouched, hafter, news, hall, List.drop_left, List.filter_eq_nil_iff]
  simp only [decide_eq_true_eq]

/-- **A stranger's operation** other than `joinRoom` leaves a room alone exactly when it is not
`leaveRoom` of that room. -/
theorem stranger_iff {rs : List (Record LobbyService Op)} (h : LobbyRun rs l)
    (hroom : l.rooms.get? r = some room) (hmember : u ∉ room.roster) (hhost : room.hostId ≠ u)
    (huser : op.user = some u) (hjoin : ∀ name r', op ≠ .joinRoom u name r')
    (hstep : Step l op l') :
    Untouched ⟨l, op, l'⟩ r room ↔ op ≠ .leaveRoom u r := by
  obtain ⟨after, told, hsees, hchange⟩ := room_change (sound_reachable h) hstep hroom
  rw [hsees.untouched_iff]
  cases hchange with
  | same _ hleave => exact ⟨fun _ hop => hhost (hleave u hop), fun _ => ⟨rfl, rfl⟩⟩
  | joined =>
    cases huser
    exact absurd rfl (hjoin _ _)
  | readied hready =>
    cases huser
    exact absurd (RoomEntity.setReady_ok hready).1 hmember
  | started hmay =>
    cases huser
    exact absurd hmay.host hhost
  | left =>
    cases huser
    simp
  | emptied =>
    cases huser
    simp
  | closed hclose =>
    cases huser
    exact absurd hclose hhost
  | expired => cases huser

/-- A host waits alone. -/
def waiting : List Op := [.createRoom "room" 0 "ann" "Ann" ⟨"Evening", "kingdoms-v1", 2⟩]

def waitingRoom : RoomEntity :=
  (RoomEntity.new ⟨"room", "Evening", "kingdoms-v1", "ann", 2⟩ 0).addPlayer "ann" "Ann"

theorem waiting_found : (replay {} waiting).2.rooms.get? "room" = some waitingRoom := rfl

theorem waiting_fresh : allFresh {} waiting = true := by decide +kernel

theorem waiting_stranger : Untouched ⟨(replay {} waiting).2, .closeRoom "eve" "room",
      (Op.closeRoom "eve" "room").exec (replay {} waiting).2⟩ "room" waitingRoom ↔
    Op.closeRoom "eve" "room" ≠ .leaveRoom "eve" "room" :=
  stranger_iff (replay_trace waiting_fresh) waiting_found (by decide) (by decide) rfl (by simp)
  (.mk trivial)

/-- She is not in the room, leaves it, and the room is gone. -/
theorem waiting_left : ∃ rs l room l', LobbyRun rs l ∧ l.rooms.get? "room" = some room ∧
    "eve" ∉ room.roster ∧
    room.hostId ≠ "eve" ∧ Step l (.leaveRoom "eve" "room") l' ∧ l'.rooms.get? "room" = none ∧
    news ⟨l, .leaveRoom "eve" "room", l'⟩ =
      [.playerLeft "room" "eve", .roomClosed "room" "host-closed"] :=
  ⟨_, _, waitingRoom, _, replay_trace waiting_fresh, waiting_found, by decide, by decide,
    .mk trivial, by decide +kernel, by decide +kernel⟩

end Boardgame.Lobby
