import Boardgame.Engine.Create
import Boardgame.Lobby.Rooms

/-!
# Lobby.Launch

Whether the games the lobby starts come to be. The lobby bounds a room by the `maxPlayers` of its
request, the scenario by its own.

* `launches_iff`: every started game is one the engine makes exactly when no game is started with
  more members than its scenario takes.
-/

namespace Boardgame.Lobby

open Engine

variable (R : Type) [Strength R] {l l' : LobbyService} {op : Op} {r : RoomId}

/-- The game an event starts is within the bounds of its scenario, and the engine makes it. -/
def Launched (e : LobbyEvent) : Prop :=
  ∀ r g sc ps b, e = .gameStarting r g sc ps → bounds R sc = some b →
    (b.1 ≤ ps.length ∧ ps.length ≤ b.2) ∧ ∃ game, createGame R (startingOptions g ps) sc = .ok game

def Launches (l : LobbyService) : Prop := ∀ e ∈ l.published, Launched R e

/-- The host starts a game of a known scenario with more members than it takes. -/
def Overbooks (c : Record LobbyService Op) : Prop :=
  ∃ uuid u r room b, c.label = .startGame uuid u r ∧ MayStart c.before u r room ∧
    bounds R room.scenarioId = some b ∧ b.2 < room.playerCount

variable {R}

theorem bounds_two {sc : String} {b : Nat × Nat} (h : bounds R sc = some b) : b.1 = 2 := by
  unfold bounds at h
  split at h
  · cases h
    rfl
  · split at h
    · cases h
      rfl
    · cases h

theorem launched_other {e : LobbyEvent} (h : e.startedGame = none) : Launched R e := by
  rintro r g sc ps b rfl
  cases h

/-- The game of a room with two members or more. -/
theorem launched_room {room : RoomEntity} (htwo : 2 ≤ room.playerCount) (r : RoomId) (g : String) :
    Launched R (.gameStarting r g room.scenarioId room.players) ↔
      ∀ b, bounds R room.scenarioId = some b → room.playerCount ≤ b.2 := by
  have hlen : room.players.length = room.playerCount := by
    simp only [RoomEntity.players, OrderedMap.values, List.length_map, RoomEntity.playerCount]
  constructor
  · intro h b hb
    exact hlen ▸ (h _ _ _ _ b rfl hb).1.2
  · rintro h _ _ _ _ b ⟨⟩ hb
    have hwithin : b.1 ≤ room.players.length ∧ room.players.length ≤ b.2 := by
      rw [hlen, bounds_two hb]
      exact ⟨htwo, h b hb⟩
    exact ⟨hwithin, (createGame_returns_iff hb _).mpr hwithin⟩

theorem launches_step (h : Step l op l') : Launches R l' ↔
    Launches R l ∧ ¬ Overbooks R ⟨l, op, l'⟩ := by
  rcases h.effect.starts_or with ⟨all, hall, hnone, hno⟩ | ⟨uuid, u, r, room, rfl, hmay, rfl⟩
  · have hnot : ¬ Overbooks R ⟨l, op, l'⟩ :=
      fun ⟨uuid, u, r, room, _, hop, hmay, _⟩ => hno uuid u r room hop hmay
    rw [and_iff_left hnot, Launches, hall]
    simp only [List.mem_append, or_imp, forall_and, Launches]
    exact and_iff_left fun e he => launched_other (hnone e he)
  · have hlaunch : Launches R ((l.putRoom r (room.markStarting uuid)).publish
        (.gameStarting r uuid room.scenarioId room.players)) ↔
        Launches R l ∧ Launched R (.gameStarting r uuid room.scenarioId room.players) := by
      simp [Launches, LobbyService.publish, LobbyService.putRoom, or_imp, forall_and]
    rw [hlaunch, launched_room hmay.two]
    refine and_congr_right fun _ => ⟨?_, fun hno b hb => ?_⟩
    · rintro hle ⟨uuid', u', r', room', b, hop, hmay', hb, hover⟩
      cases hop
      have hroom := hmay.found.symm.trans hmay'.found
      cases hroom
      exact absurd (hle b hb) (not_le.mpr hover)
    · by_contra hover
      exact hno ⟨uuid, u, r, room, b, rfl, hmay, hb, not_le.mp hover⟩

/-- **Whether started games come to be**: each has a roster its scenario takes, and the engine makes
it, exactly when no host starts a game with more members than the scenario takes. -/
theorem launches_iff {rs : List (Record LobbyService Op)} (h : LobbyRun rs l) :
    Launches R l ↔ ∀ c ∈ rs, ¬ Overbooks R c := by
  have hrun := Trace.inv_labels (I := fun rs l => Launches R l ↔ ∀ c ∈ rs, ¬ Overbooks R c) ?_ h []
    (by simp [Launches])
  · rw [hrun, List.nil_append]
  · intro pre s c t hiff hrec
    obtain ⟨rfl, rfl, hstep⟩ := Recorded.step_of hrec
    rw [launches_step hstep, hiff]
    simp [List.mem_append, or_imp, forall_and]

/-- A room of `n` at most, which the host and `guests` fill. -/
def evening (n : ℚ) (guests : List UserId) : List Op :=
  [.createRoom "room" 0 "ann" "Ann" ⟨"Evening", "kingdoms-v1", n⟩] ++
  guests.map (fun u => .joinRoom u u "room") ++
    ("ann" :: guests).map (fun u => .setReady u "room" true) ++ [.startGame "game" "ann" "room"]

theorem evening_launches : Launches ℚ (replay {} (evening 2 ["ben"])).2 ↔
    ∀ c ∈ (replay {} (evening 2 ["ben"])).1, ¬ Overbooks ℚ c :=
  launches_iff (replay_trace (by decide +kernel))

/-- The fifth player is one too many for the engine. -/
theorem evening_never_begins : ∃ rs l r g sc ps, LobbyRun rs l ∧
    LobbyEvent.gameStarting r g sc ps ∈ l.published ∧
    bounds ℚ sc = some (2, 4) ∧ ps.length = 5 ∧ ¬ ∃ game, createGame ℚ (startingOptions g ps) sc =
      .ok game := by
  have hstarted : LobbyEvent.gameStarting "room" "game" "kingdoms-v1"
      [("ann", "Ann"), ("ben", "ben"),
      ("cid", "cid"), ("dan", "dan"), ("eve", "eve")] ∈
      (replay {} (evening 5 ["ben", "cid", "dan", "eve"])).2.published := by decide +kernel
  have hb : bounds ℚ "kingdoms-v1" = some (2, 4) := rfl
  refine ⟨_, _, _, _, _, _, replay_trace (by decide +kernel), hstarted, hb, rfl, ?_⟩
  rw [createGame_returns_iff hb]
  decide

end Boardgame.Lobby
