import Boardgame.Kingdoms.Survivor

/-!
# Kingdoms.Ending

The end of a Kingdoms game.

* `Effect.conquest`: only the capture of the last rival's capital leaves one player.
* `ends_iff`: a call returns the end of the game when it leaves one player and found more.
* `ends_right`: the same along every run, with the winner and the capture that ended it.
-/

namespace Boardgame.Kingdoms

variable {R : Type} {s s' : KState R} {p : PlayerId} {payload : KingdomsPayload}
  {evs : List (KEvent R)}

/-- Exactly one player is not eliminated. -/
def Sole (s : KState R) : Prop := ∃ pl, s.players.active = [pl]

theorem alone_iff_sole (hs : Sound s) (hroster : 2 ≤ s.players.count) : Alone s ↔ Sole s := by
  constructor
  · intro ha
    obtain ⟨pl, hpl, _⟩ := List.map_eq_singleton_iff.mp (ha.ids hs)
    exact ⟨pl, hpl⟩
  · rintro ⟨pl, hpl⟩
    obtain ⟨cur, hcur, hid⟩ := hs.on_turn
    rw [hpl, List.mem_singleton] at hcur
    subst hcur
    refine ⟨hroster, fun q hq => ?_⟩
    rw [hpl, List.mem_singleton] at hq
    rw [hq, hid]

/-- The victory check names the player left. -/
theorem standing_winner (hs : Sound s) (ha : Alone s) {victory : VictoryResult}
    (h : lastPlayerStanding s = some victory) :
    victory.winner = some s.rounds.turn.activePlayer := by
  obtain ⟨pl, hpl, hid⟩ := List.map_eq_singleton_iff.mp (ha.ids hs)
  rw [lastPlayerStanding, if_neg (not_lt.mpr ha.roster), hpl] at h
  cases h
  rw [hid]

/-! ## One action -/

/-- The capital `t` of `o` falls to `p`, and `o` is out. -/
structure Toppling (s : KState R) (p o : PlayerId) (t : TileId) (payload : KingdomsPayload)
    (evs : List (KEvent R)) (s' : KState R) : Prop where
  attack : ∃ f ids, payload = .attackTile f t ids
  owned : s.extras.ownership.get? t = some o
  capital : s.extras.capitals.get? o = some t
  rival : o ≠ p
  players : s'.players = s.players.marked o
  captured : ∃ e ∈ evs, e.body = .scenario (.tileCaptured t (some o))
  eliminated : ∃ e ∈ evs, e.body = .scenario (.playerEliminated o p)

/-- Players leave in one way. -/
theorem Effect.players (hs : Sound s) (h : Effect s p payload evs s') :
    s'.players = s.players ∨ ∃ o t, Toppling s p o t payload evs s' := by
  cases h with
  | wrapped _ hs₁ => subst hs₁; exact .inl rfl
  | @attacked f t ids _ _ _ battle _ _ _ ht _ _ _ _ _ hafter =>
    cases hafter with
    | @toppled n o players _ ho hne hc hel =>
      have hel' : s.players.eliminate o = .ok players := hel
      rw [PlayerManager.eliminate_ok hs.ids (hs.owners t o ho), Except.ok.injEq] at hel'
      subst hel'
      rw [ho] at ht
      exact .inr ⟨o, t, ⟨f, ids, rfl⟩, ho, hc, fun h => ht (by rw [h]), rfl,
        ⟨kEvent p (.tileCaptured t (s.extras.ownership.get? t)), by simp, by rw [kEvent, ho]⟩,
        ⟨{ body := .scenario (.playerEliminated o p) }, by simp, rfl⟩⟩
    | _ => exact .inl rfl
  | _ => exact .inl rfl

theorem Effect.capitals (h : Effect s p payload evs s') :
    s'.extras.capitals = s.extras.capitals := by
  cases h with
  | wrapped _ hs₁ => subst hs₁; rfl
  | attacked _ _ _ _ _ _ _ hafter => cases hafter <;> rfl
  | _ => rfl

/-- Executors report scenario events only. -/
theorem Effect.quiet (h : Effect s p payload evs s') : evs.any Game.isGameEnded = false := by
  cases h with
  | wrapped =>
    rw [List.any_cons, Bool.or_eq_false_iff]
    refine ⟨rfl, ?_⟩
    rw [List.any_eq_false]
    intro e he
    obtain ⟨x, hx, _⟩ := roundEndEvents_reports e he
    simp [Game.isGameEnded, hx]
  | attacked _ _ _ _ _ hbat _ hafter =>
    obtain ⟨w, x, y, m, n, rfl⟩ := hbat
    cases hafter <;> rfl
  | _ => rfl

/-- Who is left alone by an action toppled the last rival. -/
theorem Effect.conquest (hs : Sound s) (h : Effect s s.rounds.turn.activePlayer payload evs s')
    (hbefore : ¬ Alone s) (hafter : Alone s') :
    ∃ o t, Toppling s s.rounds.turn.activePlayer o t payload evs s' := by
  rcases h.players hs with hsame | htop
  · refine absurd ⟨h.count hs ▸ hafter.roster, fun pl hpl => ?_⟩ hbefore
    rw [← h.same_turn hs hafter]
    exact hafter.only pl (hsame ▸ hpl)
  · exact htop

/-- The player toppled last and the survivor were the only ones in the game. -/
theorem Toppling.last {o : PlayerId} {t : TileId} (hs : Sound s) (hb : Board s)
    (h : Effect s s.rounds.turn.activePlayer payload evs s')
    (htop : Toppling s s.rounds.turn.activePlayer o t payload evs s') (hafter : Alone s')
    (id : PlayerId) :
    id ∈ s.players.active.map Player.id ↔ id = s.rounds.turn.activePlayer ∨ id = o := by
  constructor
  · intro hid
    obtain ⟨pl, hpl, rfl⟩ := List.mem_map.mp hid
    by_cases ho : pl.id = o
    · exact .inr ho
    · have hleft : pl ∈ s'.players.active := by
        rw [htop.players]
        obtain ⟨hin, hact⟩ := List.mem_filter.mp hpl
        exact List.mem_filter.mpr (PlayerManager.mem_marked_active.mpr ⟨hin, hact, ho⟩)
      exact .inl ((hafter.only pl hleft).trans (h.same_turn hs hafter))
  · rintro (rfl | rfl)
    · obtain ⟨pl, hpl, hcur⟩ := hs.on_turn
      exact List.mem_map.mpr ⟨pl, hpl, hcur⟩
    · obtain ⟨pl, hpl, hid, hact⟩ := hb.ruled t id htop.owned
      exact List.mem_map.mpr ⟨pl, List.mem_filter.mpr ⟨hpl, hact⟩, hid⟩

/-! ## One call -/

variable [Strength R] {g g' : KGame R} {c : KCall R}

/-- The status machine has ended exactly on the games with one player left. -/
structure Verdict (g : KGame R) : Prop extends Settled g where
  roster : 2 ≤ g.state.players.count
  decided : Alone g.state → g.machine = .ended

theorem verdict_step (hg : Verdict g) (h : Game.Step (kingdomsScenario R) g c g') : Verdict g' := by
  have hset := settled_step hg.toSettled h
  obtain ⟨⟨hs, ha⟩, hroster, hover⟩ := hg
  cases h.outcome no_rules with
  | started =>
    by_cases hm : g.machine = .setup
    · have hstart : g.start =
          { g with machine := .playing, state := { g.state with status := .playing } } :=
        if_pos hm
      rw [hstart] at hset ⊢
      refine ⟨hset, hroster, fun halone => ?_⟩
      have hend := hover ⟨hroster, halone.only⟩
      rw [hm] at hend
      cases hend
    · rw [Game.start, if_neg hm] at hset ⊢
      exact ⟨hset, hroster, hover⟩
  | rejected => exact ⟨hset, hroster, hover⟩
  | refused => exact ⟨hset, hroster, hover⟩
  | crashed hv hx => exact absurd hx (not_crashed hs hv)
  | @played a primary s₁ hv hx hev =>
    obtain ⟨_, _, heff⟩ := acted_of_run hs hv hx
    refine ⟨hset, (heff.count hs).symm ▸ hroster, fun halone => ?_⟩
    have hsome := (decided_iff hset.sound).mpr halone
    rw [← evaluate_eq, hev] at hsome
    cases hsome
  | won hv hx =>
    obtain ⟨_, _, heff⟩ := acted_of_run hs hv hx
    exact ⟨hset, (heff.count hs).symm ▸ hroster, fun _ => rfl⟩
  | stuck hv hx _ hm =>
    obtain ⟨_, _, heff⟩ := acted_of_run hs hv hx
    exact ⟨hset, (heff.count hs).symm ▸ hroster, fun _ => hm⟩

theorem alone_persists (hg : Verdict g) (h : Game.Step (kingdomsScenario R) g c g')
    (ha : Alone g.state) :
    Alone g'.state := by
  cases move_of_step hg.sound h with
  | idle _ hstate =>
    rw [hstate]
    exact ⟨ha.roster, ha.only⟩
  | acted _ hF hstate =>
    obtain ⟨_, _, heff⟩ := hF
    have := (heff.alone hg.sound ha).1
    rw [hstate]
    exact ⟨this.roster, this.only⟩

omit [Strength R] in
theorem any_stamp (evs : List (KEvent R)) (n : Nat) :
    (Game.stamp n evs).any Game.isGameEnded = evs.any Game.isGameEnded := by
  induction evs generalizing n with
  | nil => rfl
  | cons e evs ih => simp only [Game.stamp, List.any_cons, ih, Game.isGameEnded]

/-- A call returns a `game-ended` event exactly when it leaves one player in a game that had
more. -/
theorem ends_iff (hg : Verdict g) (h : Game.Step (kingdomsScenario R) g c g') :
    Game.endsGame c = true ↔ Alone g'.state ∧ ¬ Alone g.state := by
  have hset := settled_step hg.toSettled h
  have hno : ∀ {c : KCall R}, Game.endsGame c = false → (Alone g'.state → Alone g.state) →
      (Game.endsGame c = true ↔ Alone g'.state ∧ ¬ Alone g.state) := by
    intro c hc himp
    rw [hc]
    exact ⟨fun h => (by cases h), fun h => absurd (himp h.1) h.2⟩
  cases h.outcome no_rules with
  | started =>
    refine hno rfl fun ha => ?_
    unfold Game.start at ha
    split at ha
    · exact ⟨ha.roster, ha.only⟩
    · exact ha
  | rejected => exact hno rfl id
  | refused => exact hno rfl id
  | crashed hv hx => exact absurd hx (not_crashed hg.sound hv)
  | played hv hx hev =>
    obtain ⟨_, _, heff⟩ := acted_of_run hg.sound hv hx
    refine hno ((any_stamp _ _).trans heff.quiet) fun halone => ?_
    have hsome := (decided_iff hset.sound).mpr halone
    rw [← evaluate_eq, hev] at hsome
    cases hsome
  | @won a primary s₁ victory hv hx hev hm =>
    have hends : (Game.stamp g.events.nextSeq (primary ++ [{ body := .gameEnded victory }])).any
        Game.isGameEnded = true := by
      rw [any_stamp, List.any_append]
      exact Bool.or_true _
    exact ⟨fun _ => ⟨(hset.alone rfl).1, fun ha => hm (hg.decided ha)⟩, fun _ => hends⟩
  | stuck _ _ _ hm => exact hno rfl fun _ => (hg.alone hm).1

/-- The call that ends a game: the capture of the capital `t` of `o`, the last rival of `p`. -/
structure Conquest (g : KGame R) (c : KCall R) (g' : KGame R) (a : KAction) (evs : List (KEvent R))
    (p o : PlayerId) (t : TileId) : Prop where
  /-- An attack of `p`, accepted, returned these events. -/
  call : c = .submit a (.ok (.ok evs))
  actor : a.playerId = some p
  attack : ∃ f ids, a.payload = .attackTile f t ids
  accepted : accepts g a = true
  /-- It captured the capital of the only other player in the game. -/
  captured : ∃ e ∈ evs, e.body = .scenario (.tileCaptured t (some o))
  eliminated : ∃ e ∈ evs, e.body = .scenario (.playerEliminated o p)
  capital : g.state.extras.capitals.get? o = some t
  rivals : o ≠ p ∧ ∀ id, id ∈ g.state.players.active.map Player.id ↔ id = p ∨ id = o
  left : g'.state.players.active.map Player.id = [p]
  /-- Every end it reports names `p` the winner. -/
  winner : ∀ e ∈ evs, ∀ victory, e.body = .gameEnded victory → victory.winner = some p
  /-- Who still owns their own capital. -/
  home : ∃ t', g.state.extras.capitals.get? p = some t' ∧
    g'.state.extras.capitals.get? p = some t' ∧
    g'.state.extras.ownership.get? t' = some p

theorem conquest_of_end (hg : Verdict g) (hb : Board g.state) (hb' : Board g'.state)
    (h : Game.Step (kingdomsScenario R) g c g') (hends : Game.endsGame c = true) :
    ∃ a evs p o t, Conquest g c g' a evs p o t := by
  obtain ⟨hafter, hbefore⟩ := (ends_iff hg h).mp hends
  have hs' := (verdict_step hg h).sound
  cases h.outcome no_rules with
  | started => cases hends
  | rejected => cases hends
  | refused => cases hends
  | crashed => cases hends
  | played hv hx =>
    obtain ⟨_, _, heff⟩ := acted_of_run hg.sound hv hx
    have hquiet := (any_stamp _ g.events.nextSeq).trans heff.quiet
    rw [Game.endsGame, hquiet] at hends
    cases hends
  | stuck => cases hends
  | @won a primary s₁ victory hv hx hev hm =>
    obtain ⟨hact, _, heff⟩ := acted_of_run hg.sound hv hx
    have halone : Alone s₁ := ⟨hafter.roster, hafter.only⟩
    obtain ⟨o, t, htop⟩ := heff.conquest hg.sound hbefore halone
    have hsame := heff.same_turn hg.sound halone
    have hids := hafter.ids hs'
    refine ⟨a, _, g.state.rounds.turn.activePlayer, o, t,
      { call := rfl, actor := hact, attack := htop.attack, accepted := Game.accepts_iff.mpr hv
        captured := ?_, eliminated := ?_, capital := htop.capital
        rivals := ⟨htop.rival, htop.last hg.sound hb heff halone⟩
        left := by rw [← hsame]; exact hids
        winner := ?_, home := ?_ }⟩
    · obtain ⟨e, he, hbody⟩ := htop.captured
      obtain ⟨e', he', hbody'⟩ := Game.stamp_of_mem (List.mem_append_left _ he)
      exact ⟨e', he', hbody'.trans hbody⟩
    · obtain ⟨e, he, hbody⟩ := htop.eliminated
      obtain ⟨e', he', hbody'⟩ := Game.stamp_of_mem (List.mem_append_left _ he)
      exact ⟨e', he', hbody'.trans hbody⟩
    · intro e he v hv'
      obtain ⟨e₀, he₀, hbody⟩ := Game.mem_stamp he
      rw [hv'] at hbody
      rcases List.mem_append.mp he₀ with hin | hin
      · have hnot := List.any_eq_false.mp heff.quiet e₀ hin
        simp [Game.isGameEnded, ← hbody] at hnot
      · rw [List.mem_singleton] at hin
        subst hin
        cases hbody
        rw [evaluate_eq] at hev
        rw [← hsame]
        exact standing_winner (sound_frame (heff.sound hg.sound) _ _)
          ⟨halone.roster, halone.only⟩ hev
    · obtain ⟨pl, hpl, hcur⟩ := hs'.on_turn
      obtain ⟨hin, hin'⟩ := List.mem_filter.mp hpl
      obtain ⟨t', _, _, hcap, hown, _⟩ := hb'.crown pl hin hin'
      have hpid : pl.id = g.state.rounds.turn.activePlayer := hcur.trans hsame
      rw [hpid] at hcap hown
      exact ⟨t', heff.capitals ▸ hcap, hcap, hown⟩

/-! ## Runs -/

theorem fresh_verdict {opts : GameSetupOptions} (hid : (opts.players.map Player.id).Nodup)
    (hseat : (opts.players.map Player.seat).Nodup) {s : KState R}
    (h : createGameState (kingdomsScenario R) opts = .ok s) :
    Verdict (Game.new s) ∧ ¬ Sole s := by
  have hf := fresh_state h
  have hs := fresh_sound hf hid hseat
  have hset : Settled (Game.new s) := settled_reachable hid hseat ⟨s, h, .nil⟩
  have hperm : (s.players.bySeat.map Player.id).Perm (opts.players.map Player.id) :=
    (List.perm_ext_iff_of_nodup hs.ids hid).mpr fun _ => hf.roster
  have hcount : s.players.bySeat.length = opts.players.length := by simpa using hperm.length_eq
  have hact : s.players.active = s.players.bySeat :=
    List.filter_eq_self.mpr fun _ hp => hf.active hp
  have hroster : 2 ≤ s.players.count := hf.size.1.trans hcount.ge
  have hsole : ¬ Sole s := by
    rintro ⟨pl, hpl⟩
    have hone : s.players.bySeat.length = 1 := by rw [← hact, hpl]; rfl
    have := hf.size.1
    omega
  exact ⟨⟨hset, hroster, fun ha => absurd ((alone_iff_sole hs hroster).mp ha) hsole⟩, hsole⟩

theorem verdict_reachable {opts : GameSetupOptions} (hid : (opts.players.map Player.id).Nodup)
    (hseat : (opts.players.map Player.seat).Nodup) {calls : List (KCall R)}
    (h : Game.RunFrom (kingdomsScenario R) opts calls g) : Verdict g := by
  obtain ⟨s, hs, htr⟩ := h
  exact htr.inv (fun _ _ _ hg hstep => verdict_step hg hstep) (fresh_verdict hid hseat hs).1

/-- One player is left at the end of a run exactly when some call of it left one. -/
theorem sole_history {opts : GameSetupOptions} (hid : (opts.players.map Player.id).Nodup)
    (hseat : (opts.players.map Player.seat).Nodup) {s : KState R}
    (hs : createGameState (kingdomsScenario R) opts = .ok s) {rs : List (KRecord R)}
    (h : KRun (Game.new s) rs g) : Sole g.state ↔ ∃ r ∈ rs, Sole r.after.state := by
  obtain ⟨hfresh, hmany⟩ := fresh_verdict hid hseat hs
  have hrun := h.inv_labels (I := fun rs g => Verdict g ∧
    (Sole g.state ↔ ∃ r ∈ rs, Sole r.after.state)) ?_ []
    ⟨hfresh, ⟨fun h => absurd h hmany, fun ⟨_, hr, _⟩ => by cases hr⟩⟩
  · exact hrun.2
  · rintro pre g r g' ⟨hg, hsole⟩ hstep
    obtain ⟨rfl, rfl, hstep⟩ := Recorded.step_of hstep
    have hg' := verdict_step hg hstep
    refine ⟨hg', fun hlast => ⟨r, by simp, hlast⟩, ?_⟩
    rintro ⟨r', hr', hlast⟩
    rcases List.mem_append.mp hr' with hpre | hnew
    · have halone := (alone_iff_sole hg.sound hg.roster).mpr (hsole.mpr ⟨r', hpre, hlast⟩)
      exact (alone_iff_sole hg'.sound hg'.roster).mp (alone_persists hg hstep halone)
    · rw [List.mem_singleton] at hnew
      exact hnew ▸ hlast

/-- The end of a game, over the calls of a run. -/
structure EndsRight (rs : List (KRecord R)) : Prop where
  /-- A call returns the end exactly when it is the first submit after which one player is left. -/
  first : ∀ pre r post, rs = pre ++ r :: post → (Game.endsGame r.label = true ↔
    (∃ a res, r.label = .submit a res) ∧ Sole r.after.state ∧ ∀ r' ∈ pre, ¬ Sole r'.after.state)
  /-- It is the capture of the last rival's capital. -/
  conquest : ∀ r ∈ rs, Game.endsGame r.label = true →
    ∃ a evs p o t, Conquest r.before r.label r.after a evs p o t
  /-- Nobody left is never the case. -/
  peopled : ∀ r ∈ rs, r.after.state.players.active ≠ []

theorem ends_right {opts : GameSetupOptions} (hid : (opts.players.map Player.id).Nodup)
    (hseat : (opts.players.map Player.seat).Nodup) {s : KState R}
    (hs : createGameState (kingdomsScenario R) opts = .ok s) {rs : List (KRecord R)}
    (h : KRun (Game.new s) rs g) : EndsRight rs := by
  have hstep : ∀ r ∈ rs, (∃ calls, Game.RunFrom (kingdomsScenario R) opts calls r.before) ∧
      Game.Step (kingdomsScenario R) r.before r.label r.after :=
    Recorded.forall_inv (I := fun g => ∃ calls, Game.RunFrom (kingdomsScenario R) opts calls g)
      (fun _ _ _ ⟨_, hrun⟩ hstep => ⟨_, hrun.extend (Trace.single (.mk hstep))⟩) h ⟨[], s, hs, .nil⟩
  refine ⟨fun pre r post hrs => ?_, fun r hr hends => ?_, fun r hr hnil => ?_⟩
  · obtain ⟨⟨_, hrun⟩, hr⟩ := hstep r (by simp [hrs])
    have hg := verdict_reachable hid hseat hrun
    have hg' := verdict_step hg hr
    subst hrs
    obtain ⟨g₁, hpre, hrest⟩ := Trace.append_iff.mp h
    obtain ⟨_, hone, _⟩ := Trace.cons_iff.mp hrest
    obtain ⟨hbefore, _⟩ := Recorded.step_of hone
    have hhist : Sole r.before.state ↔ ∃ r' ∈ pre, Sole r'.after.state :=
      hbefore ▸ sole_history hid hseat hs hpre
    rw [ends_iff hg hr, alone_iff_sole hg'.sound hg'.roster,
      alone_iff_sole hg.sound hg.roster, hhist]
    constructor
    · rintro ⟨hsole, hno⟩
      refine ⟨?_, hsole, fun r' hr' hs' => hno ⟨r', hr', hs'⟩⟩
      have hends := (ends_iff hg hr).mpr ⟨(alone_iff_sole hg'.sound hg'.roster).mpr hsole,
        fun ha => hno (hhist.mp ((alone_iff_sole hg.sound hg.roster).mp ha))⟩
      cases hlabel : r.label with
      | start =>
        rw [hlabel] at hends
        cases hends
      | submit a res => exact ⟨a, res, rfl⟩
    · rintro ⟨_, hsole, hall⟩
      exact ⟨hsole, fun ⟨r', hr', hs'⟩ => hall r' hr' hs'⟩
  · obtain ⟨⟨_, hrun⟩, hr'⟩ := hstep r hr
    have hb' := (board_reachable hid hseat (hrun.extend (Trace.single (.mk hr')))).2.1
    exact conquest_of_end (verdict_reachable hid hseat hrun)
      (board_reachable hid hseat hrun).2.1 hb' hr' hends
  · obtain ⟨⟨_, hrun⟩, hr'⟩ := hstep r hr
    obtain ⟨pl, hpl, _⟩ := (verdict_step (verdict_reachable hid hseat hrun) hr').sound.on_turn
    rw [hnil] at hpl
    cases hpl

/-- The march goes on to the capital of `p2`, who has left it. -/
def campaign : List (Game.Request KingdomsPayload) :=
  let attack := KingdomsPayload.attackTile "-3,3" "-4,4" (some ["noble-p1-0", "sp-p1-1"])
  advance ++ turns [.moveUnit "noble-p1-0" "-3,3", .moveUnit "sp-p1-1" "-3,3", attack] [] ++
    turns [attack] [] ++ [request "p1" attack]

/-- The last call of the campaign ends the game. -/
theorem campaign_ends_right : ∃ r, Game.play (kingdomsScenario ℚ) duel campaign = .ok r ∧
    r.1.map Game.endsGame = List.replicate 93 false ++ [true] ∧
    ∃ rs, rs.map Record.label = r.1 ∧ EndsRight rs := by
  have hends : (Game.play (kingdomsScenario ℚ) duel campaign).toOption.map
      (fun r => r.1.map Game.endsGame) = some (List.replicate 93 false ++ [true]) := by
        decide +kernel
  obtain ⟨r, hr, ⟨s, hs, htr⟩, hlast⟩ := Game.play_observed hends
  obtain ⟨rs, hlabels, hrs⟩ := Recorded.of_trace htr
  exact ⟨r, hr, hlast, rs, hlabels, ends_right (by decide) (by decide) hs hrs⟩

end Boardgame.Kingdoms
