import Boardgame.Lib.Rotation
import Boardgame.Kingdoms.Moves

/-!
# Kingdoms.Turns

Turns and rounds of a Kingdoms game: the seats of the players in the game form a `Rotation`, and a
round is a lap of it.

* `Effect.turn`: what an accepted action does to the turn and the roster.
* `turn_step`: a call that does not wrap is a step of the rotation.
* `Effect.reports`: the round end is reported in a wrap, once for each player, and nowhere else.
* `turns_fair`: turns, rounds and incomes along every run.
-/

namespace Boardgame.Kingdoms

open Game (newEvents Emits)

variable {R : Type} {s s' : KState R} {payload : KingdomsPayload} {evs : List (KEvent R)}

/-- The seat of the player on turn. -/
def seatOnTurn (s : KState R) : Int :=
  RoundManager.seatOf s.players.bySeat s.rounds.turn.activePlayer (-1)

/-- The seats of the players in the game, and the one on turn. -/
def rotation (s : KState R) : Rotation Int :=
  ⟨{x | ∃ pl ∈ s.players.active, pl.seat = x}, seatOnTurn s⟩

theorem seatOnTurn_eq (hs : Sound s) {pl : Player} (hpl : pl ∈ s.players.bySeat)
    (hcur : pl.id = s.rounds.turn.activePlayer) : seatOnTurn s = pl.seat := by
  rw [seatOnTurn, ← hcur, seatOf_eq hs.ids hpl]

theorem rotation_succ {ps : List Player} {p q : Player} (h : ClockwiseSucc ps p q) :
    Rotation.Succ {x | ∃ pl ∈ ps, pl.seat = x} p.seat q.seat := by
  rcases h with ⟨hlt, hleast⟩ | ⟨hmost, hleast⟩
  · exact .inl ⟨hlt, by rintro _ ⟨pl, hpl, rfl⟩ hc; exact hleast pl hpl hc⟩
  · exact .inr ⟨by rintro _ ⟨pl, hpl, rfl⟩; exact hmost pl hpl,
      by rintro _ ⟨pl, hpl, rfl⟩; exact hleast pl hpl⟩

/-! ## One action -/

/-- The turn passes to `q`, the clockwise successor of `p`, and the round counts the wraps. -/
structure Passes (s s' : KState R) (p q : Player) : Prop where
  players : s'.players = s.players
  cur : p ∈ s.players.bySeat ∧ p.id = s.rounds.turn.activePlayer
  nxt : q ∈ s.players.bySeat ∧ q.id = s'.rounds.turn.activePlayer
  succ : ClockwiseSucc s.players.active p q
  round : s'.rounds.round = if q.seat ≤ p.seat then s.rounds.round + 1 else s.rounds.round

theorem Effect.turn (hs : Sound s) (h : Effect s s.rounds.turn.activePlayer payload evs s') :
    (payload ≠ .endTurn ∧ s'.rounds = s.rounds ∧
      (∀ pl ∈ s'.players.active, pl ∈ s.players.active)) ∨
      (payload = .endTurn ∧ ∃ p q, Passes s s' p q) := by
  have hpass : ∀ {q b rounds}, s.rounds.endTurn s.players.all "command" = .ok (⟨q, b⟩, rounds) →
      s'.players = s.players → s'.rounds = rounds → ∃ p q, Passes s s' p q := by
    intro q b rounds hend hpl hr
    obtain ⟨p, hp, ql, hql, _, _, hcur, hq, hsucc, hb, _, hact, hround⟩ := endTurn_facts hs hend
    refine ⟨p, ql, hpl, ⟨hp, hcur⟩, ⟨hql, by rw [hq, hr, hact]⟩, hsucc, ?_⟩
    rw [hr, hround, hb]
    simp only [decide_eq_true_eq]
  cases h with
  | turned hend => exact .inr ⟨rfl, hpass hend rfl rfl⟩
  | wrapped hend hs₁ => subst hs₁; exact .inr ⟨rfl, hpass hend rfl rfl⟩
  | @attacked f t ids losses survivor rng battle aftermath s₂ _ _ _ _ _ _ _ hafter =>
    refine .inl ⟨by simp, ?_⟩
    cases hafter with
    | @toppled n o players _ ho _ _ hel =>
      have hel' : s.players.eliminate o = .ok players := hel
      rw [PlayerManager.eliminate_ok hs.ids (hs.owners t o ho), Except.ok.injEq] at hel'
      subst hel'
      refine ⟨rfl, fun pl hpl => ?_⟩
      obtain ⟨hm, hact, _⟩ := PlayerManager.mem_marked_active.mp (List.mem_filter.mp hpl)
      exact List.mem_filter.mpr ⟨hm, hact⟩
    | _ => exact ⟨rfl, fun _ h => h⟩
  | _ => exact .inl ⟨by simp, rfl, fun _ h => h⟩

/-- The player whose income an event reports. -/
def incomeOf (e : KEvent R) : Option PlayerId :=
  match e.body with
  | .scenario (.incomeCollected _) => e.playerId
  | _ => none

/-- The round whose end an event reports. -/
def roundEndOf (e : KEvent R) : Option Nat :=
  match e.body with
  | .scenario (.roundEnded round) => some round
  | _ => none

/-- What the events report of a round end: the incomes, and the rounds ended. -/
def reports (evs : List (KEvent R)) : List PlayerId × List Nat :=
  (evs.filterMap incomeOf, evs.filterMap roundEndOf)

theorem reports_append (evs evs' : List (KEvent R)) :
    reports (evs ++ evs') =
      ((reports evs).1 ++ (reports evs').1, (reports evs).2 ++ (reports evs').2) := by
  simp [reports]

theorem cycleEvents_reports (s : KState R) (p : PlayerId) (inv : Inventory) :
    reports (cycleEvents s p inv) = ([p], []) := by
  unfold cycleEvents fedEvents
  split
  · dsimp only
    split <;> rfl
  · rfl

theorem reportDisconnected_reports (s : KState R) (p : PlayerId) :
    reports (reportDisconnected s p) = ([], []) := by
  unfold reportDisconnected
  dsimp only
  split <;> rfl

theorem flatMap_reports {α : Type} {f : α → List (KEvent R)} {a : α → List PlayerId}
    (h : ∀ x, reports (f x) = (a x, [])) (l : List α) :
    reports (l.flatMap f) = (l.flatMap a, []) := by
  induction l with
  | nil => rfl
  | cons x xs ih => rw [List.flatMap_cons, reports_append, h, ih]; simp

/-- The round end reports one income for each player in the game and the end of the round. -/
theorem roundEndEvents_report (s : KState R) :
    reports (roundEndEvents s) = (s.players.active.map Player.id, [s.rounds.round]) := by
  have hcycles := flatMap_reports (f := fun pl : Player =>
    cycleEvents s pl.id ((s.inventories.get? pl.id).getD .empty))
    (fun pl => cycleEvents_reports s pl.id _) s.players.active
  have hgaps := flatMap_reports (f := fun pl : Player => reportDisconnected s pl.id)
    (fun pl => reportDisconnected_reports s pl.id) s.players.active
  rw [roundEndEvents, reports_append, reports_append, hcycles, hgaps]
  simp [reports, incomeOf, roundEndOf, ← List.map_eq_flatMap]

theorem Effect.reports (hs : Sound s) (h : Effect s s.rounds.turn.activePlayer payload evs s') :
    reports evs = if s'.rounds.round = s.rounds.round then ([], [])
      else (s.players.active.map Player.id, [s'.rounds.round]) := by
  cases h with
  | turned hend =>
    obtain ⟨_, _, _, _, _, _, _, _, _, _, _, _, hround⟩ := endTurn_facts hs hend
    rw [if_pos (by simpa [setExtras] using hround)]
    rfl
  | wrapped hend hs₁ =>
    subst hs₁
    obtain ⟨_, _, _, _, _, _, _, _, _, _, _, _, hround⟩ := endTurn_facts hs hend
    rw [if_neg (by simp [setExtras, hround])]
    exact roundEndEvents_report _
  | attacked _ _ _ _ _ hbat _ hafter =>
    obtain ⟨w, x, y, m, n, rfl⟩ := hbat
    cases hafter <;> exact (if_pos rfl).symm
  | _ => exact (if_pos rfl).symm

/-- A wrap takes the inventory of everyone in the game through one cycle. -/
theorem Effect.paid (hs : Sound s) (h : Effect s s.rounds.turn.activePlayer payload evs s')
    (hw : s'.rounds.round ≠ s.rounds.round) {pl : Player} (hpl : pl ∈ s.players.active)
    {inv : Inventory} (hinv : s.inventories.get? pl.id = some inv) :
    ∃ inv', s'.inventories.get? pl.id = some inv' ∧ inv'.get = cycleCount s pl.id inv := by
  rcases h.turn hs with ⟨_, hr, _⟩ | ⟨rfl, _⟩
  · exact absurd (by rw [hr]) hw
  · cases h with
    | turned hend =>
      obtain ⟨_, _, _, _, _, _, _, _, _, _, _, _, hround⟩ := endTurn_facts hs hend
      exact absurd hround hw
    | wrapped _ hs₁ _ hin =>
      subst hs₁
      exact hin pl hpl inv hinv

/-! ## One call -/

section Calls

variable [Strength R]

/-- The call is an accepted end of turn. -/
def endsTurn (r : KRecord R) : Bool :=
  match r.label with
  | .start => false
  | .submit a _ => accepts r.before a && a.payload = .endTurn

/-- The round number goes up. -/
def Wraps (r : KRecord R) : Prop :=
  r.after.state.rounds.round ≠ r.before.state.rounds.round

variable {g g' : KGame R} {c : KCall R}

theorem call_turn (hs : Sound g.state) (h : Game.Step (kingdomsScenario R) g c g') :
    (endsTurn ⟨g, c, g'⟩ = false ∧ g'.state.rounds = g.state.rounds ∧
        ∀ pl ∈ g'.state.players.active, pl ∈ g.state.players.active) ∨
      (endsTurn ⟨g, c, g'⟩ = true ∧ ∃ p q, Passes g.state g'.state p q) := by
  cases move_of_step hs h with
  | idle hno hstate _ =>
    refine .inl ⟨?_, by rw [hstate], by rw [hstate]; exact fun _ h => h⟩
    cases c with
    | start => rfl
    | submit a r => simp [endsTurn, hno a r rfl]
  | acted hacc hF hstate =>
    obtain ⟨_, _, heff⟩ := hF
    rcases heff.turn hs with ⟨hne, hr, hpl⟩ | ⟨hend, p, q, hpass⟩
    · exact .inl ⟨by simp [endsTurn, hne], by rw [hstate]; exact hr, by rw [hstate]; exact hpl⟩
    · refine .inr ⟨by simp [endsTurn, hacc, hend], p, q, ?_⟩
      rw [hstate]
      exact { hpass with }

theorem wrap_passes (hs : Sound g.state) (h : Game.Step (kingdomsScenario R) g c g')
    (hw : Wraps ⟨g, c, g'⟩) : ∃ p q, Passes g.state g'.state p q ∧ q.seat ≤ p.seat := by
  rcases call_turn hs h with ⟨_, hr, _⟩ | ⟨_, p, q, hpass⟩
  · exact absurd (by rw [hr]) hw
  · refine ⟨p, q, hpass, not_lt.mp fun hlt => hw ?_⟩
    rw [hpass.round, if_neg hlt.not_ge]

/-- A call that does not wrap is a step of the lap. -/
theorem turn_step (hs : Sound g.state) (hs' : Sound g'.state)
    (h : Game.Step (kingdomsScenario R) g c g') (hw : ¬ Wraps ⟨g, c, g'⟩) :
    Rotation.Step (rotation g.state)
      (if endsTurn ⟨g, c, g'⟩ then some (seatOnTurn g'.state) else none) (rotation g'.state) := by
  rcases call_turn hs h with ⟨hends, hr, hpl⟩ | ⟨hends, p, q, hpass⟩
  · obtain ⟨pl, hin, hact, hcur⟩ := hs'.turn
    have hold : pl ∈ g.state.players.bySeat :=
      active_sublist.subset (hpl pl (List.mem_filter.mpr ⟨hin, hact⟩))
    have hseat : seatOnTurn g'.state = seatOnTurn g.state := by
      rw [seatOnTurn_eq hs' hin hcur, seatOnTurn_eq hs hold (hcur.trans (by rw [hr]))]
    rw [hends, rotation, rotation, hseat]
    refine .stay ?_
    rintro _ ⟨pl, hpl', rfl⟩
    exact ⟨pl, hpl pl hpl', rfl⟩
  · have hp := seatOnTurn_eq hs hpass.cur.1 hpass.cur.2
    have hq : seatOnTurn g'.state = q.seat :=
      seatOnTurn_eq hs' (by rw [hpass.players]; exact hpass.nxt.1) hpass.nxt.2
    have hlt : p.seat < q.seat := by
      by_contra hle
      exact hw (by rw [Wraps, hpass.round, if_pos (not_lt.mp hle)]; exact Nat.succ_ne_self _)
    rw [hends, rotation, rotation, hp, hq, hpass.players]
    exact .pass (rotation_succ hpass.succ) hlt

theorem call_reports (hs : Sound g.state) (h : Game.Step (kingdomsScenario R) g c g') :
    reports (newEvents g g') = if g'.state.rounds.round = g.state.rounds.round then ([], [])
      else (g.state.players.active.map Player.id, [g'.state.rounds.round]) := by
  cases move_of_step hs h with
  | idle _ hstate hev =>
    rw [Game.newEvents_idle hev, if_pos (by rw [hstate])]
    rfl
  | @acted a r _ evs s' status history tail _ hF hstate hnew htail =>
    obtain ⟨_, _, heff⟩ := hF
    have hrounds : g'.state.rounds = s'.rounds := by rw [hstate]
    have hend : ∀ e : KEvent R, (∃ victory, e.body = .gameEnded victory) →
        incomeOf e = none ∧ roundEndOf e = none := by
      rintro e ⟨v, hv⟩
      simp [incomeOf, roundEndOf, hv]
    have hstamp : reports (Game.stamp g.events.nextSeq evs) = reports evs := Prod.ext
      (Game.filterMap_stamp incomeOf (fun _ _ => rfl) evs)
      (Game.filterMap_stamp roundEndOf (fun _ _ => rfl) evs)
    have htail' : reports tail = ([], []) := Prod.ext
      (List.filterMap_eq_nil_iff.mpr fun e he => (hend e (htail e he)).1)
      (List.filterMap_eq_nil_iff.mpr fun e he => (hend e (htail e he)).2)
    rw [Game.newEvents_append hnew, reports_append, hstamp, htail', List.append_nil,
      List.append_nil, hrounds]
    exact heff.reports hs

theorem call_paid (hs : Sound g.state) (h : Game.Step (kingdomsScenario R) g c g')
    (hw : Wraps ⟨g, c, g'⟩) {pl : Player} (hpl : pl ∈ g.state.players.active) {inv : Inventory}
    (hinv : g.state.inventories.get? pl.id = some inv) :
    ∃ inv', g'.state.inventories.get? pl.id = some inv' ∧
      inv'.get = cycleCount g.state pl.id inv := by
  cases move_of_step hs h with
  | idle _ hstate _ => exact absurd (by rw [hstate]) hw
  | acted _ hF hstate =>
    obtain ⟨_, _, heff⟩ := hF
    rw [Wraps, hstate] at hw
    rw [hstate]
    exact heff.paid hs hw hpl hinv

end Calls

/-! ## Runs -/

variable [Strength R]

/-- The turns of a game from `g` on. -/
structure FairTurns (g : KGame R) : Prop where
  /-- The player on turn is in the game. -/
  onTurn : ∃ pl ∈ g.state.players.active, pl.id = g.state.rounds.turn.activePlayer
  /-- The turn stays with them until they end it. -/
  holds : ∀ c g', Game.Step (kingdomsScenario R) g c g' → endsTurn ⟨g, c, g'⟩ = false →
    g'.state.rounds.turn.activePlayer = g.state.rounds.turn.activePlayer
  /-- Between two wraps the seats on turn go up, and everyone in the game at the end had one
  turn. -/
  rounds : ∀ w₁ mid w₂ g', KRun g (w₁ :: (mid ++ [w₂])) g' →
    Wraps w₁ → (∀ r ∈ mid, ¬ Wraps r) → Wraps w₂ →
    (seatOnTurn w₁.after.state ::
      (mid.filter endsTurn).map fun r => seatOnTurn r.after.state).Pairwise (· < ·) ∧
    ∀ pl ∈ w₂.before.state.players.active,
      (seatOnTurn w₁.after.state ::
        (mid.filter endsTurn).map fun r => seatOnTurn r.after.state).count pl.seat = 1
  /-- A wrap ends one round and pays everyone in the game once; no other call does. -/
  incomes : ∀ c g', Game.Step (kingdomsScenario R) g c g' →
    (Wraps ⟨g, c, g'⟩ → reports (newEvents g g') =
        (g.state.players.active.map Player.id, [g'.state.rounds.round]) ∧
      ∀ pl ∈ g.state.players.active, ∀ inv, g.state.inventories.get? pl.id = some inv →
        ∃ inv', g'.state.inventories.get? pl.id = some inv' ∧
          inv'.get = cycleCount g.state pl.id inv) ∧
    (¬ Wraps ⟨g, c, g'⟩ → reports (newEvents g g') = ([], []))

theorem turns_of_calls (rs : List (KRecord R)) :
    (rs.map fun r => if endsTurn r then some (seatOnTurn r.after.state) else none).reduceOption =
      (rs.filter endsTurn).map fun r => seatOnTurn r.after.state := by
  induction rs with
  | nil => rfl
  | cons r rs ih =>
    cases hr : endsTurn r <;> simp [hr, ih]

theorem turns_fair {opts : GameSetupOptions} (hid : (opts.players.map Player.id).Nodup)
    (hseat : (opts.players.map Player.seat).Nodup) {calls : List (KCall R)} {g : KGame R}
    (h : Game.RunFrom (kingdomsScenario R) opts calls g) : FairTurns g := by
  have hs : Sound g.state := (board_reachable hid hseat h).1
  refine
    { onTurn := ?_
      holds := fun c g' hstep hends => ?_
      rounds := fun w₁ mid w₂ g' hrun hw₁ hmid hw₂ => ?_
      incomes := fun c g' hstep => ⟨fun hw => ?_, fun hw => ?_⟩ }
  · obtain ⟨pl, hpl, hact, hcur⟩ := hs.turn
    exact ⟨pl, List.mem_filter.mpr ⟨hpl, hact⟩, hcur⟩
  · rcases call_turn hs hstep with ⟨_, hr, _⟩ | ⟨hends', _⟩
    · rw [hr]
    · rw [hends] at hends'
      cases hends'
  · -- the round is a lap: it starts with the first seat, and its last turn is the last seat's
    obtain ⟨g₁, h₁, hrest⟩ := Trace.cons_iff.mp hrun
    obtain ⟨g₂, hlap, h₂⟩ := Trace.snoc_iff.mp hrest
    obtain ⟨rfl, rfl, hstep₁⟩ := Recorded.step_of h₁
    obtain ⟨rfl, rfl, hstep₂⟩ := Recorded.step_of h₂
    have hrun₁ := h.extend (Trace.single h₁)
    have hs₁ : Sound w₁.after.state := (board_reachable hid hseat hrun₁).1
    have hs₂ : Sound w₂.before.state := (board_reachable hid hseat (hrun₁.extend hlap)).1
    obtain ⟨p₁, q₁, hpass₁, hle₁⟩ := wrap_passes hs hstep₁ hw₁
    obtain ⟨p₂, q₂, hpass₂, hle₂⟩ := wrap_passes hs₂ hstep₂ hw₂
    have hsim := (hlap.restrict hmid).simulate
      (I := fun g => ∃ calls, Game.RunFrom (kingdomsScenario R) opts calls g)
      (R := Rotation.Step) (f := fun g : KGame R => rotation g.state)
      (k := fun r => if endsTurn r then some (seatOnTurn r.after.state) else none)
      (fun g r g' hI hr => by
        obtain ⟨calls, hI⟩ := hI
        exact ⟨_, hI.extend (Trace.single hr.1)⟩)
      (fun g r g' hI hr => by
        obtain ⟨calls, hI⟩ := hI
        obtain ⟨rfl, rfl, hstep⟩ := Recorded.step_of hr.1
        exact turn_step (board_reachable hid hseat hI).1
          (board_reachable hid hseat (hI.extend (Trace.single hr.1))).1 hstep hr.2)
      ⟨_, hrun₁⟩
    have hfirst : ∀ x ∈ (rotation w₁.after.state).members, (rotation w₁.after.state).current ≤
        x := by
      have hq₁ : seatOnTurn w₁.after.state = q₁.seat :=
        seatOnTurn_eq hs₁ (by rw [hpass₁.players]; exact hpass₁.nxt.1) hpass₁.nxt.2
      rintro _ ⟨pl, hpl, rfl⟩
      rw [hpass₁.players] at hpl
      simp only [rotation, hq₁]
      rcases hpass₁.succ with ⟨hlt, _⟩ | ⟨_, hleast⟩
      · exact absurd hle₁ hlt.not_ge
      · exact hleast pl hpl
    have hp₂ : seatOnTurn w₂.before.state = p₂.seat := seatOnTurn_eq hs₂ hpass₂.cur.1 hpass₂.cur.2
    have hsorted := (Rotation.lap hsim hfirst).1
    have hall := Rotation.lap_complete hsim hfirst
      (by simp only [rotation, hp₂]; exact rotation_succ hpass₂.succ)
      (by simpa [rotation, hp₂] using hle₂)
    rw [turns_of_calls] at hsorted hall
    refine ⟨hsorted, fun pl hpl => ?_⟩
    exact List.count_eq_one_of_mem (hsorted.imp fun hlt => hlt.ne) (hall _ ⟨pl, hpl, rfl⟩)
  · exact ⟨by rw [call_reports hs hstep, if_neg hw],
      fun pl hpl inv hinv => call_paid hs hstep hw hpl hinv⟩
  · rw [call_reports hs hstep, if_pos (not_not.mp hw)]

theorem threeHits_fair : ∃ r, Game.play (kingdomsScenario ℚ) duel threeHits = .ok r ∧
    r.2.state.rounds.round = 4 ∧ FairTurns r.2 := by
  have hround : (Game.play (kingdomsScenario ℚ) duel threeHits).toOption.map
      (fun r => r.2.state.rounds.round) = some 4 := by decide +kernel
  obtain ⟨r, hr, hrun, hfour⟩ := Game.play_observed hround
  exact ⟨r, hr, hfour, turns_fair (by decide) (by decide) hrun⟩

end Boardgame.Kingdoms
