import Boardgame.Core.Frozen
import Boardgame.Kingdoms.Turns
import Boardgame.Kingdoms.Safety

/-!
# Kingdoms.Survivor

A Kingdoms game after its end. The last player standing stays on turn, and what they do is still
accepted: it changes the state, is recorded, and then the status machine throws.

* `decided_iff`: when the victory condition holds.
* `survivor_acts`: what every accepted action does after the end.
-/

namespace Boardgame.Kingdoms

variable {R : Type} {s s' : KState R} {payload : KingdomsPayload} {evs : List (KEvent R)}

/-- The player on turn is the only one left. -/
structure Alone (s : KState R) : Prop where
  roster : 2 ≤ s.players.count
  only : ∀ pl ∈ s.players.active, pl.id = s.rounds.turn.activePlayer

theorem Sound.on_turn (hs : Sound s) :
    ∃ pl ∈ s.players.active, pl.id = s.rounds.turn.activePlayer := by
  obtain ⟨pl, hpl, hact, hcur⟩ := hs.turn
  exact ⟨pl, List.mem_filter.mpr ⟨hpl, hact⟩, hcur⟩

theorem Sound.active_nodup (hs : Sound s) : (s.players.active.map Player.id).Nodup :=
  hs.ids.sublist ((List.filter_sublist).map _)

theorem decided_iff (hs : Sound s) : (lastPlayerStanding s).isSome = true ↔ Alone s := by
  obtain ⟨pl, hpl, hcur⟩ := hs.on_turn
  have hnd := hs.active_nodup
  unfold lastPlayerStanding
  split
  · rename_i hfew
    exact ⟨fun h => by simp at h, fun h => absurd h.roster (by omega)⟩
  · rename_i hmany
    split
    · rename_i hnil
      rw [hnil] at hpl
      cases hpl
    · rename_i survivor hone
      rw [hone, List.mem_singleton] at hpl
      subst hpl
      refine ⟨fun _ => ⟨by omega, fun q hq => ?_⟩, fun _ => rfl⟩
      rw [hone, List.mem_singleton] at hq
      rw [hq, hcur]
    · rename_i h₀ h₁
      refine ⟨fun h => by simp at h, fun h => ?_⟩
      match hact : s.players.active with
      | [] => exact absurd hact h₀
      | [q] => exact absurd hact (h₁ q)
      | q :: q' :: rest =>
        rw [hact] at hnd
        have hq := h.only q (by simp [hact])
        have hq' := h.only q' (by simp [hact])
        simp [hq, hq'] at hnd

theorem Effect.count (hs : Sound s) (h : Effect s s.rounds.turn.activePlayer payload evs s') :
    s'.players.count = s.players.count := by
  cases h with
  | @attacked f t _ _ _ _ _ _ _ _ _ _ _ _ _ _ hafter =>
    cases hafter with
    | @toppled _ o players _ ho _ _ hel =>
      have hel' : s.players.eliminate o = .ok players := hel
      rw [PlayerManager.eliminate_ok hs.ids (hs.owners t o ho), Except.ok.injEq] at hel'
      subst hel'
      exact List.length_map _
    | _ => rfl
  | wrapped _ hs₁ => subst hs₁; rfl
  | _ => rfl

/-- The roster of a game with one player left. -/
theorem Alone.ids (hs : Sound s) (ha : Alone s) :
    s.players.active.map Player.id = [s.rounds.turn.activePlayer] := by
  obtain ⟨pl, hpl, hcur⟩ := hs.on_turn
  refine List.perm_singleton.mp
    ((List.perm_ext_iff_of_nodup hs.active_nodup (List.nodup_singleton _)).mpr fun id => ?_)
  rw [List.mem_singleton]
  constructor
  · intro hid
    obtain ⟨q, hq, rfl⟩ := List.mem_map.mp hid
    exact ha.only q hq
  · rintro rfl
    exact hcur ▸ List.mem_map_of_mem hpl

/-- The survivor stays alone, and on turn. -/
theorem Effect.alone (hs : Sound s) (h : Effect s s.rounds.turn.activePlayer payload evs s')
    (ha : Alone s) : Alone s' ∧ s'.rounds.turn.activePlayer = s.rounds.turn.activePlayer := by
  have hcount := h.count hs
  rcases h.turn hs with ⟨_, hrounds, hsub⟩ | ⟨_, p, q, hpass⟩
  · exact ⟨⟨hcount ▸ ha.roster, fun pl hpl => hrounds ▸ ha.only pl (hsub pl hpl)⟩, by rw [hrounds]⟩
  · obtain ⟨pl, hpl, hcur⟩ := (h.sound hs).on_turn
    have hsame : s'.rounds.turn.activePlayer = s.rounds.turn.activePlayer := by
      rw [← hcur]
      exact ha.only pl (hpass.players ▸ hpl)
    exact ⟨⟨hcount ▸ ha.roster, fun pl hpl => hsame ▸ ha.only pl (hpass.players ▸ hpl)⟩, hsame⟩

/-- Who is left alone had the turn before. -/
theorem Effect.same_turn (hs : Sound s) (h : Effect s s.rounds.turn.activePlayer payload evs s')
    (ha : Alone s') : s'.rounds.turn.activePlayer = s.rounds.turn.activePlayer := by
  rcases h.turn hs with ⟨_, hrounds, _⟩ | ⟨_, p, q, hpass⟩
  · rw [hrounds]
  · obtain ⟨pl, hpl, hcur⟩ := hs.on_turn
    rw [← hcur, ha.only pl (hpass.players.symm ▸ hpl)]

variable [Strength R]

/-- The status machine has ended only on a game with one player left, who can act. -/
structure Settled (g : KGame R) : Prop where
  sound : Sound g.state
  alone : g.machine = .ended → Alone g.state ∧ g.state.rounds.turn.activePlayer ≠ ""

theorem settled_step {g g' : KGame R} {c : KCall R} (hg : Settled g)
    (h : Game.Step (kingdomsScenario R) g c g') : Settled g' := by
  obtain ⟨hs, ha⟩ := hg
  have hafter : ∀ {a : KAction} {evs s'}, ActedOn g.state a evs s' → g.machine = .ended →
      Alone s' ∧ s'.rounds.turn.activePlayer ≠ "" := by
    rintro a evs s' ⟨_, hne, heff⟩ hm
    obtain ⟨halone, hsame⟩ := heff.alone hs (ha hm).1
    exact ⟨halone, hsame ▸ hne⟩
  cases h.outcome no_rules with
  | started =>
    unfold Game.start
    split
    · exact ⟨sound_frame hs _ _, fun h => by cases h⟩
    · exact ⟨hs, ha⟩
  | rejected => exact ⟨hs, ha⟩
  | refused => exact ⟨hs, ha⟩
  | crashed hv hx => exact absurd hx (not_crashed hs hv)
  | played hv hx =>
    have hacted := acted_of_run hs hv hx
    refine ⟨sound_frame (hacted.2.2.sound hs) _ _, fun hm => ?_⟩
    obtain ⟨halone, hne'⟩ := hafter hacted hm
    exact ⟨⟨halone.roster, halone.only⟩, hne'⟩
  | @won a primary s victory hv hx hev =>
    obtain ⟨_, hne, heff⟩ := acted_of_run hs hv hx
    have hsound : Sound (g.executed a primary s).state := sound_frame (heff.sound hs) _ _
    have hsome : (lastPlayerStanding (g.executed a primary s).state).isSome = true := by
      rw [← evaluate_eq, hev]
      rfl
    obtain ⟨hroster, honly⟩ := (decided_iff hsound).mp hsome
    have hsame := heff.same_turn hs ⟨hroster, honly⟩
    exact ⟨sound_frame hsound _ _, fun _ => ⟨⟨hroster, honly⟩, hsame ▸ hne⟩⟩
  | stuck hv hx =>
    have hacted := acted_of_run hs hv hx
    refine ⟨sound_frame (hacted.2.2.sound hs) _ _, fun hm => ?_⟩
    obtain ⟨halone, hne'⟩ := hafter hacted hm
    exact ⟨⟨halone.roster, halone.only⟩, hne'⟩

theorem settled_reachable {opts : GameSetupOptions} (hid : (opts.players.map Player.id).Nodup)
    (hseat : (opts.players.map Player.seat).Nodup) {calls : List (KCall R)} {g : KGame R}
    (h : Game.RunFrom (kingdomsScenario R) opts calls g) : Settled g := by
  obtain ⟨s, hs, htr⟩ := h
  have hf := fresh_state hs
  refine htr.inv (fun _ _ _ hg hstep => settled_step hg hstep)
    ⟨fresh_sound hf hid hseat, fun hm => ?_⟩
  have hst : s.status = .ended := hm
  rw [hf.status] at hst
  cases hst

omit [Strength R] in
theorem guard_onTurn (hs : Sound s) (hne : s.rounds.turn.activePlayer ≠ "") :
    guardActivePlayer s (some s.rounds.turn.activePlayer) = .ok () := by
  obtain ⟨pl, hpl, hact, hcur⟩ := hs.turn
  refine guard_ok.mpr ⟨rfl, hne, ?_⟩
  rw [PlayerManager.isEliminated, (PlayerManager.get_eq_some hs.ids).mpr ⟨hpl, hcur⟩]
  simpa [Player.isActive] using hact

theorem accepted_overruns {g : KGame R} (hg : Settled g) (hm : g.machine = .ended) {a : KAction}
    (hv : (kingdomsScenario R).validate g.state a = .ok ()) :
    Game.Overruns (kingdomsScenario R) g a := by
  obtain ⟨hs, ha⟩ := hg
  obtain ⟨_, _, evs, s', hx, heff⟩ := accepted_effect hs hv
  refine Game.overruns no_rules hm hv hx heff.frame.2.1 ?_
  rw [evaluate_eq]
  exact (decided_iff (heff.sound hs)).mpr (heff.alone hs (ha hm).1).1

/-- After the end of a Kingdoms game the survivor is on turn and can still end it, nobody else can
act, and every accepted action is recorded before the submit throws. -/
theorem survivor_acts {g : KGame R} (hg : Settled g) (hm : g.machine = .ended) :
    g.state.players.active.map Player.id = [g.state.rounds.turn.activePlayer] ∧
      accepts g ⟨some g.state.rounds.turn.activePlayer, .endTurn, none⟩ = true ∧
      ∀ a, accepts g a = true → a.playerId = some g.state.rounds.turn.activePlayer ∧
        Game.Overruns (kingdomsScenario R) g a := by
  obtain ⟨halone, hne⟩ := hg.alone hm
  refine ⟨halone.ids hg.sound, ?_, fun a hacc => ?_⟩
  · refine Game.accepts_iff.mpr ?_
    rw [validate_eq]
    exact guard_onTurn hg.sound hne
  · have hv := Game.accepts_iff.mp hacc
    exact ⟨(accepted_effect hg.sound hv).1, accepted_overruns hg hm hv⟩

end Boardgame.Kingdoms
