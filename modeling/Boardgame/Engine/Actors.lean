import Boardgame.Engine.Isolation
import Boardgame.Frontier.Journal
import Boardgame.Kingdoms.Journal

/-!
# Engine.Actors

Who has acted in a game the engine made of a roster: its journal holds commands of the roster's
players.
-/

namespace Boardgame

theorem Frontier.Effect.roster {s s' : Frontier.FState} {p : PlayerId}
    {payload : Frontier.FrontierPayload} {evs : List Frontier.FEvent}
    (h : Frontier.Effect s p payload evs s') :
    s'.players.bySeat.map Player.id = s.players.bySeat.map Player.id := by
  rw [h.players]

theorem Kingdoms.Effect.roster {R : Type} [Strength R] {s s' : Kingdoms.KState R} {p : PlayerId}
    {payload : Kingdoms.KingdomsPayload} {evs : List (Kingdoms.KEvent R)} (hs : Kingdoms.Sound s)
    (h : Kingdoms.Effect s p payload evs s') :
    s'.players.bySeat.map Player.id = s.players.bySeat.map Player.id := by
  rcases h.players hs with hsame | ⟨o, t, htop⟩
  · rw [hsame]
  · rw [htop.players, PlayerManager.marked_ids]

namespace Game

variable {X P E : Type} [HasType P] (sc : Scenario X P E)

def Request.action? : Request P → Option (Action P)
  | .start => none
  | .submit a => some a

theorem respond_action (g : Game X P E) (r : Request P) :
    (respond sc g r).1.action? = r.action? := by
  cases r with
  | start => rfl
  | submit a =>
    simp only [respond]
    split <;> rfl

theorem replay_actions (rs : List (Request P)) :
    ∀ g : Game X P E, (replay sc g rs).1.filterMap Call.action? = rs.filterMap Request.action? := by
  induction rs with
  | nil => intro g; rfl
  | cons r rs ih => intro g; simp [replay, List.filterMap_cons, respond_action, ih]

variable {sc} in
theorem play_actions {opts : GameSetupOptions} {rs : List (Request P)} {calls : List (Call P E)}
    {g : Game X P E} (h : play sc opts rs = .ok (calls, g)) :
    RunFrom sc opts calls g ∧ calls.filterMap Call.action? = rs.filterMap Request.action? := by
  cases hs : createGameState sc opts with
  | error e =>
    rw [play, hs] at h
    cases h
  | ok s =>
    have hreplay : replay sc (new s) rs = (calls, g) := by
      rw [play, hs] at h
      exact Except.ok.inj h
    have htrace : Trace (Step sc) (new s) _ _ := replay_trace rs (new s)
    have hactions := replay_actions sc rs (new s)
    rw [hreplay] at htrace hactions
    exact ⟨⟨s, hs, htrace⟩, hactions⟩

end Game

namespace Engine

namespace Registered

/-- The state is one of the scenario's, of a game between these players. -/
def Seated {R : Type} [Strength R] (opts : GameSetupOptions) :
    (id : Registered) → GameState id.Extras id.Payload (id.Event R) → Prop
  | .frontier, s => Frontier.Sound s ∧ (s.players.bySeat.map Player.id).Perm
      (opts.players.map Player.id)
  | .kingdoms, s => Kingdoms.Sound s ∧ (s.players.bySeat.map Player.id).Perm
      (opts.players.map Player.id)

variable {R : Type} [Strength R] {opts : GameSetupOptions}

theorem steady (id : Registered) (hid : (opts.players.map Player.id).Nodup)
    (hseat : (opts.players.map Player.seat).Nodup) :
    Game.Steady (id.scenario R) opts (Seated opts id) := by
  cases id with
  | frontier =>
    have hsteady := Frontier.frontier_steady opts
    refine ⟨hsteady.rules, fun s hs => ?_, fun s status history hs =>
      ⟨hsteady.frame s status history hs.1, hs.2⟩, ?_⟩
    · obtain ⟨hstatus, hhist, hsound⟩ := hsteady.opens s hs
      refine ⟨hstatus, hhist, hsound, ?_⟩
      rw [(Frontier.fresh_state hs).players]
      exact PlayerManager.new_ids opts.players
    · rintro s a ⟨hs, hroster⟩ hv
      obtain ⟨evs, s', hx, hact, hne, heff⟩ := Frontier.acted_on hs hv
      exact ⟨evs, s', hx, heff.status, heff.history, heff.sound hs hs.turn, heff.roster ▸ hroster⟩
  | kingdoms =>
    have hsteady := Kingdoms.kingdoms_steady (R := R) hid hseat
    refine ⟨hsteady.rules, fun s hs => ?_, fun s status history hs =>
      ⟨hsteady.frame s status history hs.1, hs.2⟩, ?_⟩
    · obtain ⟨hstatus, hhist, hsound⟩ := hsteady.opens s hs
      refine ⟨hstatus, hhist, hsound, ?_⟩
      rw [(Kingdoms.fresh_state hs).players]
      exact PlayerManager.new_ids opts.players
    · rintro s a ⟨hs, hroster⟩ hv
      obtain ⟨_, _, evs, s', hx, heff⟩ := Kingdoms.accepted_effect hs hv
      obtain ⟨hstatus, hhist, -⟩ := heff.frame
      exact ⟨evs, s', hx, hstatus, hhist, heff.sound hs, heff.roster hs ▸ hroster⟩

/-- Only the players of a game act in it. -/
theorem acts (id : Registered) {s : GameState id.Extras id.Payload (id.Event R)}
    {a : Action id.Payload} (hs : Seated opts id s) (hv : (id.scenario R).validate s a = .ok ()) :
    ∃ u ∈ opts.players.map Player.id, a.playerId = some u := by
  cases id with
  | frontier =>
    obtain ⟨hs, hroster⟩ := hs
    obtain ⟨hact, -, -⟩ := Frontier.accepted_effect hs hv
    exact ⟨_, hroster.mem_iff.mp hs.turn, hact⟩
  | kingdoms =>
    obtain ⟨hs, hroster⟩ := hs
    obtain ⟨hact, -, -⟩ := Kingdoms.accepted_effect hs hv
    obtain ⟨p, hp, -, hcur⟩ := hs.turn
    exact ⟨_, hroster.mem_iff.mp (hcur ▸ List.mem_map_of_mem hp), hact⟩

/-- The journal of a game the engine made: each entry is one of the commands, in their order, and of
a player of the roster. -/
theorem journal (id : Registered) {gameId : String} {ps : List (PlayerId × String)}
    (hid : (ps.map Prod.fst).Nodup) {msgs : List CommandMessage}
    {calls : List (Game.Call id.Payload (id.Event R))} {g : Game id.Extras id.Payload (id.Event R)}
    (h : Game.play (id.scenario R) (startingOptions gameId ps) (.start :: asked id msgs) =
      .ok (calls, g)) :
    (g.state.history.map ActionHistoryEntry.action).Sublist
      (msgs.map fun msg => (msg.command id).action) ∧
      ∀ entry ∈ g.state.history, ∃ u ∈ ps.map Prod.fst, entry.action.playerId = some u := by
  obtain ⟨hrun, hactions⟩ := Game.play_actions h
  have hids : (startingOptions gameId ps).players.map Player.id = ps.map Prod.fst :=
    gamePlayers_ids ps
  have hsteady := id.steady (R := R) (hids ▸ hid) (gamePlayers_seats ps)
  obtain ⟨hsub, hall⟩ := hsteady.journal_calls (fun s a hs hv => id.acts hs hv) hrun
  have hasked : (asked id msgs).filterMap Game.Request.action? = msgs.map fun msg =>
      (msg.command id).action := by
    simp [asked, List.filterMap_map, Function.comp_def, Game.Request.action?]
  rw [hactions, List.filterMap_cons_none rfl, hasked] at hsub
  exact ⟨hsub, hids ▸ hall⟩

end Registered

end Engine

end Boardgame
