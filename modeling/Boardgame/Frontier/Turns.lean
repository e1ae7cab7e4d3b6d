import Boardgame.Frontier.Setup

/-!
# Frontier.Turns

The turn goes round the table, and a player with an empty id can do nothing with it, not even end
it. So no round ends with such a player at the table.

* `Seated`: the turn has not got past them.
-/

namespace Boardgame.Frontier

structure Seated (s : FState) : Prop where
  sorted : SeatSorted s.players.bySeat
  ids : (s.players.bySeat.map Player.id).Nodup
  blank : ∀ b ∈ s.players.bySeat, b.id = "" →
    ∀ p ∈ s.players.bySeat, p.id = s.rounds.turn.activePlayer →
    p.seat ≤ b.seat

theorem Seated.congr {s s' : FState} (h : Seated s) (hplayers : s'.players = s.players)
    (hturn : s'.rounds.turn.activePlayer = s.rounds.turn.activePlayer) : Seated s' :=
  ⟨hplayers ▸ h.sorted, hplayers ▸ h.ids, by rw [hplayers, hturn]; exact h.blank⟩

/-- The end of a turn that is not an empty-named player's. -/
theorem Seated.endTurn {s : FState} (h : Seated s) (hs : Sound s)
    (hne : s.rounds.turn.activePlayer ≠ "") {q : PlayerId} {wrapped : Bool} {rounds : RoundManager}
    (hend : s.rounds.endTurn s.players.all "turn" = .ok (⟨q, wrapped⟩, rounds)) :
    Seated { s with rounds } ∧ (wrapped = true → "" ∉ s.players.bySeat.map Player.id) := by
  obtain ⟨p, hp, hcur⟩ := List.mem_map.mp hs.turn
  obtain ⟨q', hq', -, hsucc, hend'⟩ := RoundManager.endTurn_spec h.sorted h.ids hs.clockwise hp
    (hs.active p hp) hcur.symm "turn"
  have hall : s.players.bySeat.filter Player.isActive = s.players.bySeat :=
    List.filter_eq_self.mpr fun a ha => hs.active a ha
  have heq : s.rounds.endTurn s.players.bySeat "turn" = .ok (⟨q, wrapped⟩, rounds) := hend
  rw [hend', Except.ok.injEq, Prod.mk.injEq, RoundManager.TurnEnd.mk.injEq] at heq
  obtain ⟨⟨rfl, rfl⟩, rfl⟩ := heq
  rw [hall] at hsucc
  -- the empty seat is above the one whose turn ends
  have habove : ∀ b ∈ s.players.bySeat, b.id = "" → p.seat < b.seat := by
    intro b hb hid
    have hle := h.blank b hb hid p hp hcur
    refine lt_of_le_of_ne hle fun heq => ?_
    rw [h.sorted.eq_of_seat hp hb heq, hid] at hcur
    exact hne hcur.symm
  constructor
  · refine ⟨h.sorted, h.ids, fun b hb hid p' hp' hturn => ?_⟩
    have hpq : p' = q' := List.inj_on_of_nodup_map h.ids hp' hq' hturn
    rw [hpq]
    rcases hsucc with ⟨_, hleast⟩ | ⟨hmost, _⟩
    · exact hleast b hb (habove b hb hid)
    · exact absurd (hmost b hb) (not_le.mpr (habove b hb hid))
  · intro hwrap hin
    obtain ⟨b, hb, hid⟩ := List.mem_map.mp hin
    have hback : q'.seat ≤ p.seat := of_decide_eq_true hwrap
    rcases hsucc with ⟨hlt, _⟩ | ⟨hmost, _⟩
    · omega
    · exact absurd (hmost b hb) (not_le.mpr (habove b hb hid))

theorem Effect.seated {s s' : FState} {payload : FrontierPayload} {evs : List FEvent} (hs : Sound s)
    (hne : s.rounds.turn.activePlayer ≠ "") (h : Effect s s.rounds.turn.activePlayer payload evs s')
    (hseated : Seated s) : Seated s' := by
  cases h with
  | turned hend => exact (hseated.endTurn hs hne hend).1
  | wrapped hend => exact (hseated.endTurn hs hne hend).1.congr rfl rfl
  | _ => exact hseated.congr rfl rfl

/-- At first it is the turn of the lowest seat. -/
theorem fresh_seated {opts : GameSetupOptions} {s : FState}
    (hs : createGameState frontierScenario opts = .ok s) (hid : (opts.players.map Player.id).Nodup)
    (hseat : (opts.players.map Player.seat).Nodup) (hactive : ∀ p ∈ opts.players, p.isActive = true)
      : Seated s := by
  obtain ⟨_, rounds, hrounds, hset⟩ := createGameState_ok hs
  obtain ⟨s', hrun, hplacing⟩ := onSetup_placing opts rounds
  have hset' : (onSetup opts.players).run (freshState frontierScenario opts rounds) =
      .ok () s := hset
  rw [hrun] at hset'
  cases hset'
  obtain ⟨first, hfirst, hturn, hlowest⟩ := RoundManager.new_first hseat hrounds
  have hplayers : s.players = .new opts.players := hplacing.players
  have hids : (s.players.bySeat.map Player.id).Nodup := by
    rw [hplayers]
    exact (PlayerManager.new_ids opts.players).nodup_iff.mpr hid
  have hmem : ∀ {p}, p ∈ s.players.bySeat → ∃ q ∈ opts.players, q.id = p.id ∧ q.seat = p.seat := by
    intro p hp
    rw [hplayers, PlayerManager.new, List.mem_map] at hp
    obtain ⟨q, hq, rfl⟩ := hp
    exact ⟨q, mem_sortBySeat.mp hq, rfl, rfl⟩
  refine ⟨by rw [hplayers]; exact PlayerManager.new_sorted hseat, hids, fun b hb _ p hp hcur => ?_⟩
  obtain ⟨b', hb', -, hbseat⟩ := hmem hb
  obtain ⟨p', hp', hpid, hpseat⟩ := hmem hp
  have hsame : p' = first := by
    refine List.inj_on_of_nodup_map hid hp' hfirst ?_
    rw [hpid, hcur, hplacing.rounds, hturn]
    rfl
  rw [← hpseat, ← hbseat, hsame]
  exact hlowest b' hb' (hactive b' hb')

theorem seated_reachable {opts : GameSetupOptions} (hid : (opts.players.map Player.id).Nodup)
    (hseat : (opts.players.map Player.seat).Nodup) (hactive : ∀ p ∈ opts.players, p.isActive = true)
    {calls : List FCall} {g : FGame} (h : Game.RunFrom frontierScenario opts calls g) :
    Seated g.state := by
  obtain ⟨s, hs, htr⟩ := h
  refine (Game.state_inv no_rules (I := fun s => Sound s ∧ Seated s)
    (fun s st hi hI => ⟨sound_frame hI.1 st hi, hI.2.congr rfl rfl⟩) ?_ htr
    ⟨fresh_sound (fresh_state hs), fresh_seated hs hid hseat hactive⟩).2
  rintro s a ⟨hs, hseated⟩ hv
  obtain ⟨evs, s', hx, _, hne, heff⟩ := acted_on hs hv
  exact ⟨evs, s', hx, heff.sound hs hs.turn, heff.seated hs hne hseated⟩

end Boardgame.Frontier
