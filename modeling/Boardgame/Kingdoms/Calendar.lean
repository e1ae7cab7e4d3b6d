import Boardgame.Kingdoms.Turns

/-!
# Kingdoms.Calendar

The numbers under which the rounds of a Kingdoms game are reported. The round end reads the round
after the turn has advanced it, so every report is one too high.

* `wraps_iff`: a round ends when the last seat in the game ends its turn.
* `Chronicle`: the reports so far, from the round the game is in.
* `round_numbers`: the reports are numbered right if and only if there are none.
-/

namespace Boardgame.Kingdoms

open Game (newEvents)

variable {R : Type}

/-- The rounds a game has reported the end of, in order. -/
def roundEnds (g : KGame R) : List Nat := g.events.emitted.filterMap roundEndOf

/-- The `i`-th report, counted from one, names the round `i`. -/
def Numbered (ns : List Nat) : Prop := ∀ i n, ns[i]? = some n → n = i + 1

/-- The player whose id is on turn is in the game. -/
theorem Sound.mem_active {s : KState R} (hs : Sound s) {pl : Player} (hpl : pl ∈ s.players.bySeat)
    (hcur : pl.id = s.rounds.turn.activePlayer) : pl ∈ s.players.active := by
  obtain ⟨pl', hpl', hact, hcur'⟩ := hs.turn
  have heq : pl = pl' := List.inj_on_of_nodup_map hs.ids hpl hpl' (hcur.trans hcur'.symm)
  subst heq
  exact List.mem_filter.mpr ⟨hpl', hact⟩

variable [Strength R] {g g' : KGame R} {c : KCall R}

/-- The call is the end of the turn of the last seat in the game. -/
def EndsRound (r : KRecord R) : Prop :=
  endsTurn r = true ∧ ∀ pl ∈ r.before.state.players.active, pl.seat ≤ seatOnTurn r.before.state

theorem wraps_iff (hs : Sound g.state) (hs' : Sound g'.state)
    (h : Game.Step (kingdomsScenario R) g c g') :
    Wraps ⟨g, c, g'⟩ ↔ EndsRound ⟨g, c, g'⟩ := by
  rcases call_turn hs h with ⟨hno, hr, _⟩ | ⟨hyes, p, q, hpass⟩
  · refine ⟨fun hw => absurd (by rw [hr]) hw, fun hends => ?_⟩
    rw [hends.1] at hno
    cases hno
  · have hp := hs.mem_active hpass.cur.1 hpass.cur.2
    have hq : q ∈ g.state.players.active := by
      have := hs'.mem_active (by rw [hpass.players]; exact hpass.nxt.1) hpass.nxt.2
      rwa [hpass.players] at this
    have hwrap : Wraps ⟨g, c, g'⟩ ↔ q.seat ≤ p.seat := by
      rw [Wraps, hpass.round]
      split <;> simp_all
    rw [hwrap, EndsRound, seatOnTurn_eq hs hpass.cur.1 hpass.cur.2]
    rcases hpass.succ with ⟨hlt, _⟩ | ⟨hmost, hleast⟩
    · exact ⟨fun hle => absurd hlt hle.not_gt, fun hall => hall.2 q hq⟩
    · exact ⟨fun _ => ⟨hyes, hmost⟩, fun _ => hleast p hp⟩

theorem emitted_append (hs : Sound g.state) (h : Game.Step (kingdomsScenario R) g c g') :
    g'.events.emitted = g.events.emitted ++ newEvents g g' := by
  cases move_of_step hs h with
  | idle _ _ hev => rw [Game.newEvents_idle hev, hev, List.append_nil]
  | acted _ _ _ hnew => rw [Game.newEvents_append hnew, hnew]

/-- A call that ends a round reports the number of the next one. -/
theorem roundEnds_step (hs : Sound g.state) (h : Game.Step (kingdomsScenario R) g c g') :
    (g'.state.rounds.round = g.state.rounds.round ∧ roundEnds g' = roundEnds g) ∨
      (g'.state.rounds.round = g.state.rounds.round + 1 ∧
        roundEnds g' = roundEnds g ++ [g.state.rounds.round + 1]) := by
  have hrep := congrArg Prod.snd (call_reports hs h)
  have happ : roundEnds g' = roundEnds g ++ (reports (newEvents g g')).2 := by
    rw [roundEnds, emitted_append hs h, List.filterMap_append]
    rfl
  by_cases hr : g'.state.rounds.round = g.state.rounds.round
  · rw [if_pos hr] at hrep
    exact .inl ⟨hr, by rw [happ, hrep, List.append_nil]⟩
  · have hsucc : g'.state.rounds.round = g.state.rounds.round + 1 := by
      rcases call_turn hs h with ⟨_, heq, _⟩ | ⟨_, p, q, hpass⟩
      · exact absurd (by rw [heq]) hr
      · have := hpass.round
        split at this
        · exact this
        · exact absurd this hr
    rw [if_neg hr, hsucc] at hrep
    exact .inr ⟨hsucc, by rw [happ, hrep]⟩

/-- What a run has reported by the time it reaches `g`: the rounds `2, 3, …` up to the one it is in,
none if and only if no call of it ended a round. -/
structure Chronicle (rs : List (KRecord R)) (g : KGame R) : Prop where
  first : 1 ≤ g.state.rounds.round
  quiet : g.state.rounds.round = 1 ↔ ∀ r ∈ rs, ¬ EndsRound r
  reported : roundEnds g = (List.range (g.state.rounds.round - 1)).map (· + 2)

theorem Chronicle.step {rs : List (KRecord R)} (hc : Chronicle rs g) (hs : Sound g.state)
    (hs' : Sound g'.state) (h : Game.Step (kingdomsScenario R) g c g') :
    Chronicle (rs ++ [⟨g, c, g'⟩]) g' := by
  obtain ⟨hfirst, hquiet, hrep⟩ := hc
  have hends := wraps_iff hs hs' h
  rcases roundEnds_step hs h with ⟨hr, hsame⟩ | ⟨hr, hnew⟩
  · have hno : ¬ EndsRound ⟨g, c, g'⟩ := fun he => hends.mpr he hr
    refine ⟨hr ▸ hfirst, ?_, by rw [hsame, hr, hrep]⟩
    rw [hr, hquiet]
    simp [or_imp, forall_and, hno]
  · have hyes : EndsRound ⟨g, c, g'⟩ := hends.mp (by rw [Wraps, hr]; exact Nat.succ_ne_self _)
    refine ⟨by omega, ⟨fun h1 => by omega, fun hall => absurd hyes (hall _ (by simp))⟩, ?_⟩
    obtain ⟨n, hn⟩ : ∃ n, g.state.rounds.round = n + 1 := ⟨_, (Nat.sub_add_cancel hfirst).symm⟩
    rw [hnew, hrep, hr, hn]
    simp [List.range_succ]

theorem chronicle_reachable {opts : GameSetupOptions} (hid : (opts.players.map Player.id).Nodup)
    (hseat : (opts.players.map Player.seat).Nodup) {s : KState R}
    (hs : createGameState (kingdomsScenario R) opts = .ok s) {rs : List (KRecord R)}
    (h : KRun (Game.new s) rs g) : Chronicle rs g := by
  have hf := fresh_state hs
  have hround : (Game.new s).state.rounds.round = 1 := hf.round
  have hrun := h.inv_labels (I := fun rs g => Chronicle rs g ∧
      ∃ calls, Game.RunFrom (kingdomsScenario R) opts calls g) ?_ []
      ⟨⟨hround.ge, by simp [hround], ?_⟩,
        [], s, hs, .nil⟩
  · exact hrun.1
  · rintro pre g r g' ⟨hc, calls, hcalls⟩ hstep
    have hcalls' := hcalls.extend (Trace.single hstep)
    obtain ⟨rfl, rfl, hstep⟩ := Recorded.step_of hstep
    exact ⟨hc.step (board_reachable hid hseat hcalls).1 (board_reachable hid hseat hcalls').1 hstep,
      _, hcalls'⟩
  · rw [hround]
    rfl

/-- The `i`-th report of a run names round `i + 1`; so the reports name the rounds that ended if and
only if no round has ended. -/
theorem round_numbers {opts : GameSetupOptions} (hid : (opts.players.map Player.id).Nodup)
    (hseat : (opts.players.map Player.seat).Nodup) {s : KState R}
    (hs : createGameState (kingdomsScenario R) opts = .ok s) {rs : List (KRecord R)}
    (h : KRun (Game.new s) rs g) :
    (∀ i n, (roundEnds g)[i]? = some n → n = i + 2) ∧
      (Numbered (roundEnds g) ↔ ∀ r ∈ rs, ¬ EndsRound r) := by
  obtain ⟨hfirst, hquiet, hrep⟩ := chronicle_reachable hid hseat hs h
  have hnumber : ∀ i n, (roundEnds g)[i]? = some n → n = i + 2 := by
    intro i n hn
    rw [hrep, List.getElem?_map] at hn
    obtain ⟨j, hj, rfl⟩ := Option.map_eq_some_iff.mp hn
    obtain ⟨_, rfl⟩ := List.getElem?_eq_some_iff.mp hj
    simp
  refine ⟨hnumber, ?_⟩
  rw [← hquiet]
  constructor
  · intro hnum
    by_contra hne
    obtain ⟨n, hn⟩ : ∃ n, (roundEnds g)[0]? = some n := by
      rw [hrep, List.getElem?_map, List.getElem?_range (by omega)]
      exact ⟨_, rfl⟩
    have h₁ := hnum 0 n hn
    have h₂ := hnumber 0 n hn
    omega
  · intro h1 i n hn
    rw [hrep, h1] at hn
    cases hn

theorem threeHits_ends : (Game.play (kingdomsScenario ℚ) duel threeHits).toOption.map
    (fun r => roundEnds r.2) = some [2, 3, 4] := by decide +kernel

theorem threeHits_numbers : ∃ r, Game.play (kingdomsScenario ℚ) duel threeHits = .ok r ∧
    roundEnds r.2 = [2, 3, 4] ∧ ∀ i n, (roundEnds r.2)[i]? = some n → n = i + 2 := by
  obtain ⟨r, hr, ⟨s, hs, hrun⟩, hlist⟩ := Game.play_observed threeHits_ends
  obtain ⟨rs, _, hrs⟩ := Recorded.of_trace hrun
  exact ⟨r, hr, hlist, (round_numbers (by decide) (by decide) hs hrs).1⟩

theorem threeHits_misnumbered : ∃ r, Game.play (kingdomsScenario ℚ) duel threeHits = .ok r ∧
    ¬ Numbered (roundEnds r.2) := by
  obtain ⟨r, hr, -, hlist⟩ := Game.play_observed threeHits_ends
  refine ⟨r, hr, fun hnum => ?_⟩
  have hfirst : 2 = 0 + 1 := hnum 0 2 (by rw [hlist]; rfl)
  omega

end Boardgame.Kingdoms
