import Boardgame.Lobby.Rooms

/-!
# Lobby.Starts

The games a room starts. `startGame` asks who the caller is, how many members there are and whether
they are ready; it does not ask whether the room is still open.

* `Bound`: the invariant. An open room has started no game; any other has the last it started as its
  `gameId`.
* `one_game_iff`: a room starts one game at most exactly when nobody may start it again.
-/

namespace Boardgame.Lobby

/-- The games started for a room, in that order. -/
def gamesOf (r : RoomId) (events : List LobbyEvent) : List String :=
  (events.filter fun e => e.roomId = r).filterMap LobbyEvent.startedGame

theorem gamesOf_append (r : RoomId) (events all : List LobbyEvent) :
    gamesOf r (events ++ all) = gamesOf r events ++ gamesOf r all := by
  rw [gamesOf, List.filter_append, List.filterMap_append]
  rfl

theorem gamesOf_none {r : RoomId} {all : List LobbyEvent} (h : ∀ e ∈ all, e.startedGame = none) :
    gamesOf r all = [] :=
  List.filterMap_eq_nil_iff.mpr fun e he => h e (List.mem_filter.mp he).1

/-- Nothing was ever published about the room. -/
theorem gamesOf_unknown {r : RoomId} {events : List LobbyEvent}
    (h : r ∉ events.map LobbyEvent.roomId) :
    gamesOf r events = [] := by
  rw [gamesOf, List.filter_eq_nil_iff.mpr, List.filterMap_nil]
  intro e he heq
  exact h (List.mem_map.mpr ⟨e, he, of_decide_eq_true heq⟩)

variable {l l' : LobbyService} {op : Op} {r : RoomId} {room : RoomEntity}

/-! ## The invariant -/

structure RoomBound (r : RoomId) (l : LobbyService) (room : RoomEntity) : Prop where
  whenOpen : room.status = RoomStatus.open → gamesOf r l.published = []
  left : room.status ≠ RoomStatus.open → ∃ g, room.gameId = some g ∧
    (gamesOf r l.published).getLast? = some g

def Bound (r : RoomId) (l : LobbyService) : Prop :=
  ∀ room, l.rooms.get? r = some room → RoomBound r l room

/-- Another room takes the place of one like it. -/
theorem RoomBound.like {room' : RoomEntity} (h : RoomBound r l room)
    (hstatus : room'.status = room.status) (hgame : room'.gameId = room.gameId)
    (hsame : gamesOf r l'.published = gamesOf r l.published) :
    RoomBound r l' room' where
  whenOpen := by rw [hstatus, hsame]; exact h.whenOpen
  left := by rw [hstatus, hgame, hsame]; exact h.left

theorem addPlayer_like (room : RoomEntity) (u : UserId) (name : String) :
    (room.addPlayer u name).status = room.status ∧
    (room.addPlayer u name).gameId = room.gameId := by
  unfold RoomEntity.addPlayer
  split <;> exact ⟨rfl, rfl⟩

/-- A room that was not there before is new. -/
theorem room_appears (h : Step l op l') (hnone : l.rooms.get? r = none)
    (hroom : l'.rooms.get? r = some room) :
    r ∉ l.published.map LobbyEvent.roomId ∧ room.status = RoomStatus.open := by
  have hfresh := h.fresh
  have hput : ∀ {r' : RoomId} {was is : RoomEntity} {P : Prop}, l.rooms.get? r' = some was →
      (l.rooms.set r' is).get? r = some room → P := by
    intro r' was is P hwas hget
    rw [OrderedMap.get?_set] at hget
    split at hget
    · rename_i heq
      rw [heq, hwas] at hnone
      cases hnone
    · rw [hnone] at hget
      cases hget
  have herase : ∀ {r' : RoomId} {P : Prop}, (l.rooms.erase r').get? r = some room → P := by
    intro r' P hget
    rw [OrderedMap.get?_erase] at hget
    split at hget
    · cases hget
    · rw [hnone] at hget
      cases hget
  cases h.effect with
  | refused =>
    rw [hnone] at hroom
    cases hroom
  | @created uuid now u name req =>
    simp only [LobbyService.publish, LobbyService.putRoom, OrderedMap.get?_set] at hroom
    split at hroom
    · rename_i heq
      cases hroom
      exact ⟨heq ▸ hfresh, (addPlayer_like _ u name).1⟩
    · rw [hnone] at hroom
      cases hroom
  | joined hwas => exact hput hwas hroom
  | readied hwas => exact hput hwas hroom
  | started hmay => exact hput hmay.found hroom
  | left hwas => exact hput hwas hroom
  | emptied hwas =>
    simp only [LobbyService.publish, LobbyService.putRoom, LobbyService.dropRoom,
      OrderedMap.get?_erase] at hroom
    split at hroom
    · cases hroom
    · exact hput hwas hroom
  | closed => exact herase hroom
  | purged =>
    rw [(Sees.expire r _ (Sees.expired_nodup l _) l).1] at hroom
    split at hroom
    · cases hroom
    · rw [hnone] at hroom
      cases hroom

/-- What an operation adds to the games of a room. -/
theorem games_step (h : Step l op l') :
    (gamesOf r l'.published = gamesOf r l.published ∧ ∀ uuid u room, op = .startGame uuid u r →
      ¬ MayStart l u r room) ∨
    ∃ uuid u room, op = .startGame uuid u r ∧ MayStart l u r room ∧
      gamesOf r l'.published = gamesOf r l.published ++ [uuid] ∧
      l'.rooms.get? r = some (room.markStarting uuid) := by
  rcases h.effect.starts_or with ⟨all, hall, hnone, hno⟩ | ⟨uuid, u, r', room, rfl, hmay, rfl⟩
  · exact .inl ⟨by rw [hall, gamesOf_append, gamesOf_none hnone, List.append_nil], fun uuid u =>
      hno uuid u r⟩
  · by_cases hr : r' = r
    · subst hr
      refine .inr ⟨uuid, u, room, rfl, hmay,
        ?_, by simp [LobbyService.publish, LobbyService.putRoom]⟩
      rw [LobbyService.publish, gamesOf_append]
      simp [gamesOf, LobbyEvent.roomId, LobbyEvent.startedGame, LobbyService.putRoom]
    · refine .inl ⟨?_, fun uuid u room hop => ?_⟩
      · rw [LobbyService.publish, gamesOf_append]
        simp [gamesOf, LobbyEvent.roomId, hr, LobbyService.putRoom]
      · cases hop
        exact absurd rfl hr

theorem bound_empty (r : RoomId) : Bound r {} := fun _ h => by cases h

theorem bound_step (hs : Sound l) (hb : Bound r l) (h : Step l op l') : Bound r l' := by
  intro room' hroom'
  rcases games_step (r := r) h with ⟨hsame, hno⟩ | ⟨uuid, u, room, rfl, hmay, hgames, hroom⟩
  · cases hroom : l.rooms.get? r with
    | none =>
      obtain ⟨hunknown, hopen⟩ := room_appears h hroom hroom'
      exact ⟨fun _ => hsame.trans (gamesOf_unknown hunknown), fun hleft => absurd hopen hleft⟩
    | some room =>
      obtain ⟨after, news, hsees, hchange⟩ := room_change hs h hroom
      have hafter := hsees.1.symm.trans hroom'
      cases hchange with
      | same => cases hafter; exact (hb _ hroom).like rfl rfl hsame
      | joined =>
        cases hafter
        exact (hb _ hroom).like (addPlayer_like _ _ _).1 (addPlayer_like _ _ _).2 hsame
      | readied hready =>
        cases hafter
        obtain ⟨_, _, _, rfl⟩ := RoomEntity.setReady_ok hready
        exact (hb _ hroom).like rfl rfl hsame
      | started hmay => exact absurd hmay (hno _ _ _ rfl)
      | left => cases hafter; exact (hb _ hroom).like rfl rfl hsame
      | emptied => cases hafter
      | closed => cases hafter
      | expired => cases hafter
  · rw [hroom] at hroom'
    cases hroom'
    refine ⟨nofun, fun _ => ⟨uuid, rfl, ?_⟩⟩
    rw [hgames, List.getLast?_append]
    rfl

/-! ## Along a run -/

/-- The host starts a room that is no longer open. -/
def Restarts (r : RoomId) (c : Record LobbyService Op) : Prop :=
  ∃ uuid u room, c.label = .startGame uuid u r ∧ MayStart c.before u r room ∧
    room.status ≠ RoomStatus.open

/-- One game at most, and the room is bound to it. -/
structure OneGame (r : RoomId) (l : LobbyService) : Prop where
  once : (gamesOf r l.published).length ≤ 1
  bound : ∀ room, l.rooms.get? r = some room → ∀ g ∈ gamesOf r l.published, room.gameId = some g

theorem Bound.oneGame_iff (h : Bound r l) : OneGame r l ↔ (gamesOf r l.published).length ≤ 1 := by
  refine ⟨OneGame.once, fun hle => ⟨hle, fun room hroom g hg => ?_⟩⟩
  obtain ⟨hopen, hleft⟩ := h room hroom
  have hne : room.status ≠ RoomStatus.open := fun ho => by rw [hopen ho] at hg; cases hg
  obtain ⟨g', hgame, hlast⟩ := hleft hne
  obtain ⟨g'', hone⟩ := List.length_eq_one_iff.mp (Nat.le_antisymm hle (List.length_pos_of_mem hg))
  rw [hone] at hlast hg
  rw [List.mem_singleton] at hg
  rw [List.getLast?_singleton] at hlast
  rw [hgame, hg, hlast]

/-- One more operation. -/
theorem once_step (hb : Bound r l) (h : Step l op l') :
    (gamesOf r l'.published).length ≤ 1 ↔ (gamesOf r l.published).length ≤ 1 ∧
    ¬ Restarts r ⟨l, op, l'⟩ := by
  rcases games_step (r := r) h with ⟨hsame, hno⟩ | ⟨uuid, u, room, rfl, hmay, hgames, -⟩
  · have hnot : ¬ Restarts r ⟨l, op, l'⟩ :=
      fun ⟨uuid, u, room, hop, hmay, _⟩ => hno uuid u room hop hmay
    rw [hsame, and_iff_left hnot]
  · obtain ⟨hopen, hleft⟩ := hb room hmay.found
    rw [hgames, List.length_append, List.length_singleton]
    by_cases ho : room.status = RoomStatus.open
    · have hnot : ¬ Restarts r ⟨l, .startGame uuid u r, l'⟩ := by
        rintro ⟨_, _, room', _, hmay', hne⟩
        have hroom := hmay.found.symm.trans hmay'.found
        cases hroom
        exact hne ho
      rw [and_iff_left hnot, hopen ho]
      simp
    · have hre : Restarts r ⟨l, .startGame uuid u r, l'⟩ := ⟨uuid, u, room, rfl, hmay, ho⟩
      obtain ⟨_, _, hlast⟩ := hleft ho
      have hpos : (gamesOf r l.published) ≠ [] := fun hnil => by rw [hnil] at hlast; cases hlast
      have := List.length_pos_iff.mpr hpos
      constructor
      · intro hle
        omega
      · exact fun hh => absurd hre hh.2

/-- **How many games a room starts**: one at most, to which it is then bound, exactly when no host
with everybody ready asks for a game after the room has left `open`. -/
theorem one_game_iff {rs : List (Record LobbyService Op)} (h : LobbyRun rs l) (r : RoomId) :
    OneGame r l ↔ ∀ c ∈ rs, ¬ Restarts r c := by
  have hrun := Trace.inv_labels (I := fun rs l => Sound l ∧ Bound r l ∧
    ((gamesOf r l.published).length ≤ 1 ↔ ∀ c ∈ rs, ¬ Restarts r c)) ?_ h []
    ⟨sound_empty, bound_empty r, by simp [gamesOf]⟩
  · obtain ⟨-, hbound, hiff⟩ := hrun
    rw [hbound.oneGame_iff, hiff, List.nil_append]
  · rintro pre s c t ⟨hs, hb, hiff⟩ hrec
    obtain ⟨rfl, rfl, hstep⟩ := Recorded.step_of hrec
    refine ⟨sound_step hs hstep, bound_step hs hb hstep, ?_⟩
    rw [once_step hb hstep, hiff]
    simp [List.mem_append, or_imp, forall_and]

/-- The host asks twice. -/
def twice : List Op :=
  [.createRoom "room" 0 "ann" "Ann" ⟨"Evening", "kingdoms-v1", 2⟩, .joinRoom "ben" "Ben" "room",
    .setReady "ann" "room" true, .setReady "ben" "room" true, .startGame "first" "ann" "room",
    .startGame "second" "ann" "room"]

theorem twice_starts : OneGame "room" (replay {} (twice.take 5)).2 ↔
    ∀ c ∈ (replay {} (twice.take 5)).1, ¬ Restarts "room" c :=
  one_game_iff (replay_trace (by decide +kernel)) "room"

theorem twice_two_games : ∃ rs l, LobbyRun rs l ∧ gamesOf "room" l.published = ["first", "second"] ∧
    ¬ OneGame "room" l := by
  have hgames : gamesOf "room" (replay {} twice).2.published = ["first", "second"] := by
    decide +kernel
  refine ⟨_, _, replay_trace (by decide +kernel), hgames, fun h => ?_⟩
  have hle := h.once
  rw [hgames] at hle
  exact absurd hle (by decide)

end Boardgame.Lobby
