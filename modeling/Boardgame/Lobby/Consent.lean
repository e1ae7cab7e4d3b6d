import Mathlib.Data.List.Induction
import Boardgame.Lobby.Starts

/-!
# Lobby.Consent

How somebody comes to be in a game. An event of the lobby names who asked for it; the players of a
game that starts are the members of its room, and the room knows of each that he came and said he
was ready.

* `started_agreed`: along a run, for every game that has started.
-/

namespace Boardgame.Lobby

variable {l l' : LobbyService} {op : Op} {r : RoomId} {room : RoomEntity}

/-- The operation is the one that publishes the event, asked for by the user the event names. -/
def Op.Tells (op : Op) : LobbyEvent → Prop
  | .roomCreated r u => ∃ now name req, op = .createRoom r now u name req
  | .playerJoined r u => ∃ name, op = .joinRoom u name r
  | .playerReady r u ready => op = .setReady u r ready
  | .gameStarting r g _ ps => ∃ u ∈ ps.map Prod.fst, op = .startGame g u r
  | .playerLeft r u => op = .leaveRoom u r
  | .roomClosed r _ => (∃ u, op = .leaveRoom u r ∨ op = .closeRoom u r) ∨ ∃ now, op = .purge now

theorem RoomSound.players {events : List LobbyEvent} (h : RoomSound r events room) :
    room.players.map Prod.fst = room.roster := by
  rw [RoomEntity.players, List.map_map]
  exact values_keyed h.keyed

theorem Effect.told (hs : Sound l) (h : Effect l op l') :
    ∃ all, l'.published = l.published ++ all ∧ ∀ e ∈ all, op.Tells e := by
  cases h with
  | refused => exact ⟨[], (List.append_nil _).symm, by simp⟩
  | created => exact ⟨_, rfl, by simp [Op.Tells]⟩
  | joined => exact ⟨_, rfl, by simp [Op.Tells]⟩
  | readied => exact ⟨_, rfl, by simp [Op.Tells]⟩
  | @started uuid u r room hmay =>
    refine ⟨_, rfl, fun e he => ?_⟩
    cases List.mem_singleton.mp he
    have hsound := hs r room hmay.found
    exact ⟨u, by rw [hsound.players, ← hmay.host]; exact hsound.host, rfl⟩
  | left => exact ⟨_, rfl, by simp [Op.Tells]⟩
  | emptied => exact ⟨_, List.append_assoc _ _ _, by simp [Op.Tells]⟩
  | closed => exact ⟨_, rfl, by simp [Op.Tells]⟩
  | purged =>
    refine ⟨_, expire_published _ l, fun e he => ?_⟩
    obtain ⟨r, -, rfl⟩ := List.mem_map.mp he
    exact .inr ⟨_, rfl⟩

/-! ## Coming and being ready -/

/-- Whoever is a member has come. -/
theorem came_of_told {events : List LobbyEvent} {u : UserId} (h : u ∈ membersTold r events) :
    .roomCreated r u ∈ events ∨ .playerJoined r u ∈ events := by
  induction events using List.reverseRecOn with
  | nil => cases h
  | append_singleton events e ih =>
    have hold : u ∈ membersTold r events →
        .roomCreated r u ∈ events ++ [e] ∨ .playerJoined r u ∈ events ++ [e] := fun hu =>
      (ih hu).imp (List.mem_append_left _) (List.mem_append_left _)
    rw [membersTold_append] at h
    cases e with
    | roomCreated r' host =>
      simp only [memberStep] at h
      split at h
      · rename_i hr
        rw [List.mem_singleton.mp h, ← hr]
        exact .inl (by simp)
      · exact hold h
    | playerJoined r' u' =>
      simp only [memberStep] at h
      split at h
      · rename_i hr
        rcases List.mem_append.mp h with h | h
        · exact hold h
        · rw [List.mem_singleton.mp h, ← hr.1]
          exact .inr (by simp)
      · exact hold h
    | playerLeft r' u' =>
      simp only [memberStep] at h
      split at h
      · exact hold (List.mem_of_mem_filter h)
      · exact hold h
    | playerReady | gameStarting | roomClosed => exact hold h

/-- A member who is ready has said so. -/
def RoomSaid (r : RoomId) (events : List LobbyEvent) (room : RoomEntity) : Prop :=
  ∀ u m, room.members.get? u = some m → m.ready = true → .playerReady r u true ∈ events

def Said (l : LobbyService) : Prop := ∀ r room, l.rooms.get? r = some room →
    RoomSaid r l.published room

theorem RoomSaid.later {events : List LobbyEvent} (h : RoomSaid r events room) (e : LobbyEvent) :
    RoomSaid r (events ++ [e]) room := fun u m hm hready => List.mem_append_left _ (h u m hm hready)

theorem Said.change (h : Said l) {e : LobbyEvent} (hroom : RoomSaid r (l.published ++ [e]) room) :
    Said ((l.putRoom r room).publish e) := by
  intro r' room' h'
  simp only [LobbyService.publish, LobbyService.putRoom, OrderedMap.get?_set] at h'
  split at h'
  · rename_i hr
    cases h'
    rw [hr]
    exact hroom
  · exact (h r' room' h').later e

theorem Said.drop (h : Said l) (e : LobbyEvent) : Said ((l.dropRoom r).publish e) := by
  intro r' room' h'
  simp only [LobbyService.publish, LobbyService.dropRoom, OrderedMap.get?_erase] at h'
  split at h'
  · cases h'
  · exact (h r' room' h').later e

theorem Said.expire (rs : List RoomId) : ∀ {l : LobbyService}, Said l →
    Said (rs.foldl (fun l r => expire r l) l) := by
  induction rs with
  | nil => exact fun h => h
  | cons r rs ih => exact fun h => ih (h.drop _)

/-- Who joins is not ready yet. -/
theorem RoomSaid.joined {events : List LobbyEvent} (h : RoomSaid r events room) (u : UserId)
    (name : String) :
    RoomSaid r events (room.addPlayer u name) := by
  intro u' m hm hready
  unfold RoomEntity.addPlayer at hm
  split at hm
  · exact h u' m hm hready
  · rw [OrderedMap.get?_set] at hm
    split at hm
    · cases hm
      cases hready
    · exact h u' m hm hready

theorem said_step (h : Said l) (hstep : Step l op l') : Said l' := by
  cases hstep.effect with
  | refused => exact h
  | @created uuid now u name req =>
    refine h.change (RoomSaid.later ?_ _)
    exact RoomSaid.joined (fun u m hm => by cases hm) u name
  | joined hroom => exact h.change (((h _ _ hroom).joined _ _).later _)
  | @readied u r ready room room' hroom hready =>
    obtain ⟨-, m, hm, rfl⟩ := RoomEntity.setReady_ok hready
    refine h.change fun u' m' hm' hm'ready => ?_
    rw [OrderedMap.get?_set] at hm'
    split at hm'
    · rename_i hu
      cases hm'
      rw [hu, show ready = true from hm'ready]
      exact List.mem_append_right _ (List.mem_singleton_self _)
    · exact List.mem_append_left _ (h _ _ hroom u' m' hm' hm'ready)
  | started hmay => exact h.change (RoomSaid.later (h _ _ hmay.found) _)
  | @left u r room hroom =>
    refine h.change (RoomSaid.later (fun u' m hm => ?_) _)
    rw [RoomEntity.removePlayer, OrderedMap.get?_erase] at hm
    split at hm
    · cases hm
    · exact h _ _ hroom u' m hm
  | @emptied u r room hroom =>
    have hput : Said ((l.putRoom r (room.removePlayer u)).publish (.playerLeft r u)) := by
      refine h.change (RoomSaid.later (fun u' m hm => ?_) _)
      rw [RoomEntity.removePlayer, OrderedMap.get?_erase] at hm
      split at hm
      · cases hm
      · exact h _ _ hroom u' m hm
    exact hput.drop _
  | closed => exact h.drop _
  | purged => exact h.expire _

/-! ## Games that have started -/

/-- The players of a game are distinct, and each has come to its room and has said that he is
ready. -/
structure Agreed (events : List LobbyEvent) (r : RoomId) (ps : List (UserId × String)) : Prop where
  distinct : (ps.map Prod.fst).Nodup
  came : ∀ u ∈ ps.map Prod.fst, .roomCreated r u ∈ events ∨ .playerJoined r u ∈ events
  ready : ∀ u ∈ ps.map Prod.fst, .playerReady r u true ∈ events

theorem Agreed.later {events : List LobbyEvent} {ps : List (UserId × String)}
    (h : Agreed events r ps) (all : List LobbyEvent) : Agreed (events ++ all) r ps where
  distinct := h.distinct
  came u hu := (h.came u hu).imp (List.mem_append_left _) (List.mem_append_left _)
  ready u hu := List.mem_append_left _ (h.ready u hu)

/-- A run of the lobby, seen through what it has published: each event was asked for by the user it
names, no game id is given twice, and the players of every game have agreed to it. -/
structure Published (rs : List (Record LobbyService Op)) (l : LobbyService) : Prop where
  sound : Sound l
  said : Said l
  asked : ∀ e ∈ l.published, ∃ c ∈ rs, c.label.Tells e
  ids : (l.published.filterMap LobbyEvent.startedGame).Nodup
  agreed : ∀ r g sc ps, .gameStarting r g sc ps ∈ l.published → Agreed l.published r ps

theorem starting_agreed (hs : Sound l) (h : Said l) {u : UserId} (hmay : MayStart l u r room) :
    Agreed l.published r room.players := by
  have hsound := hs r room hmay.found
  have hready : ∀ m ∈ room.members.values, m.ready = true := by
    have hall := hmay.ready
    rw [RoomEntity.allReady, Bool.and_eq_true, List.all_eq_true] at hall
    exact hall.2
  refine ⟨hsound.players ▸ room.roster_nodup, fun u hu => ?_, fun u hu => ?_⟩
  · rw [hsound.players, hsound.told] at hu
    exact came_of_told hu
  · rw [hsound.players, RoomEntity.roster] at hu
    obtain ⟨m, hm⟩ := OrderedMap.mem_keys.mp hu
    exact h r room hmay.found u m hm (hready m (OrderedMap.mem_values.mpr ⟨u, hm⟩))

theorem published_step {rs : List (Record LobbyService Op)} (h : Published rs l)
    (hstep : Step l op l') :
    Published (rs ++ [⟨l, op, l'⟩]) l' := by
  obtain ⟨all, hall, htells⟩ := hstep.effect.told h.sound
  refine ⟨sound_step h.sound hstep, said_step h.said hstep, fun e he => ?_, ?_, ?_⟩
  · rw [hall] at he
    rcases List.mem_append.mp he with he | he
    · obtain ⟨c, hc, hasked⟩ := h.asked e he
      exact ⟨c, List.mem_append_left _ hc, hasked⟩
    · exact ⟨_, List.mem_append_right _ (List.mem_singleton_self _), htells e he⟩
  · have hfresh := hstep.fresh
    rcases hstep.effect.starts_or with ⟨all, hall, hnone, -⟩ | ⟨uuid, u, r, room, rfl, -, rfl⟩
    · rw [hall, List.filterMap_append, List.filterMap_eq_nil_iff.mpr hnone, List.append_nil]
      exact h.ids
    · simp only [LobbyService.publish, LobbyService.putRoom, List.filterMap_append]
      refine List.Nodup.append h.ids (List.nodup_singleton uuid) fun g hg hg' => ?_
      exact hfresh (List.mem_singleton.mp hg' ▸ hg)
  · intro r g sc ps he
    rcases hstep.effect.starts_or with ⟨all, hall, hnone, -⟩ | ⟨uuid, u, r', room, rfl, hmay, rfl⟩
    · rw [hall] at he ⊢
      rcases List.mem_append.mp he with he | he
      · exact (h.agreed r g sc ps he).later all
      · cases hnone _ he
    · have hpub : ((l.putRoom r' (room.markStarting uuid)).publish
          (.gameStarting r' uuid room.scenarioId room.players)).published =
          l.published ++ [.gameStarting r' uuid room.scenarioId room.players] := rfl
      rw [hpub] at he ⊢
      rcases List.mem_append.mp he with he | he
      · exact (h.agreed r g sc ps he).later _
      · cases List.mem_singleton.mp he
        exact (starting_agreed h.sound h.said hmay).later _

theorem started_agreed {rs : List (Record LobbyService Op)} (h : LobbyRun rs l) :
    Published rs l := by
  have hrun := h.inv_labels (I := Published) (fun pre s c t hI hrec => ?_) []
    ⟨sound_empty, fun _ _ h => (by cases h), by simp, List.nodup_nil, by simp⟩
  · exact hrun
  · obtain ⟨rfl, rfl, hstep⟩ := Recorded.step_of hrec
    exact published_step hI hstep

end Boardgame.Lobby
