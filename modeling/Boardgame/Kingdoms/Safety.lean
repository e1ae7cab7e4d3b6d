import Boardgame.Kingdoms.Consistent

/-!
# Kingdoms.Safety

A call on a Kingdoms game in play never throws.

* `machine_status`: the status machine and the state agree in every reachable game.
* `Effect.unmortgaged`, `Effect.unmortgaged_events`: no city is ever mortgaged.
* `submit_safe`: what a submit does while the game is on.
-/

namespace Boardgame.Kingdoms

variable {R : Type} {s s' : KState R} {p : PlayerId} {payload : KingdomsPayload}
  {evs : List (KEvent R)}

/-! ## What no action touches -/

theorem Aftermath.frame {t : TileId} {owner : Option PlayerId} {d : Option (PieceId × Piece)}
    {n : Option PieceId} (h : Aftermath s p t owner d n evs s') :
    s'.status = s.status ∧ s'.history = s.history ∧
      s'.extras.mortgagedCities = s.extras.mortgagedCities := by
  cases h <;> exact ⟨rfl, rfl, rfl⟩

theorem Effect.frame (h : Effect s p payload evs s') :
    s'.status = s.status ∧ s'.history = s.history ∧
      s'.extras.mortgagedCities = s.extras.mortgagedCities := by
  cases h with
  | attacked _ _ _ _ _ _ _ hafter => exact hafter.frame
  | wrapped _ hs₁ => subst hs₁; exact ⟨rfl, rfl, rfl⟩
  | _ => exact ⟨rfl, rfl, rfl⟩

/-- The events that report no mortgage. -/
def Unmortgaged (e : KEvent R) : Prop := ∀ id, e.body ≠ .scenario (.cityMortgaged id)

theorem roundEndEvents_unmortgaged : ∀ e ∈ roundEndEvents s, Unmortgaged e := by
  intro e he id hid
  obtain ⟨x, hx, hreport⟩ := roundEndEvents_reports e he
  rw [hid] at hx
  cases hx
  exact hreport

theorem Aftermath.unmortgaged {t : TileId} {owner : Option PlayerId} {d : Option (PieceId × Piece)}
    {n : Option PieceId} (h : Aftermath s p t owner d n evs s') : ∀ e ∈ evs, Unmortgaged e := by
  intro e he id hid
  cases h with
  | repelled => cases he
  | toppled =>
    simp only [List.mem_cons, List.not_mem_nil, or_false] at he
    rcases he with rfl | rfl <;> cases hid
  | _ =>
    rw [List.mem_singleton.mp he] at hid
    cases hid

theorem Effect.unmortgaged (h : Effect s p payload evs s') : ∀ e ∈ evs, Unmortgaged e := by
  intro e he
  cases h with
  | attacked _ _ _ _ _ hbattle _ hafter =>
    obtain ⟨w, x, y, m, n, rfl⟩ := hbattle
    rcases List.mem_cons.mp he with rfl | he
    · intro id hid
      cases hid
    · exact hafter.unmortgaged e he
  | wrapped =>
    rcases List.mem_cons.mp he with rfl | he
    · intro id hid
      cases hid
    · exact roundEndEvents_unmortgaged e he
  | _ =>
    intro id hid
    rw [List.mem_singleton.mp he] at hid
    cases hid

/-! ## No validator throws -/

theorem guard_answers (s : KState R) (playerId : Option PlayerId) :
    Answers (guardActivePlayer s playerId) :=
  .bind (.rejectIf _ _ _) fun _ _ => .bind (.rejectIf _ _ _) fun _ _ => .rejectIf _ _ _

/-- A kind the validator has let pass is in the registry. -/
theorem require_answers {k : String} {ks : List String} (hks : ∀ k ∈ ks, k ∈ pieceKinds)
    {code message : String} {u : Unit} (h : rejectIf (k ∉ ks) code message = .ok u) :
    Answers (orThrow (kingdomsPieces.require k)) := by
  obtain ⟨d, hd, -⟩ := require_ok (hks k (not_not.mp (rejectIf_eq_ok.mp h)))
  rw [hd]
  exact .ok d

theorem recruitUnit_answers (s : KState R) (p : Option PlayerId) (t : TileId) (k : String) :
    Answers (recruitUnitValidator s p t k) := by
  refine .bind (guard_answers s p) fun _ _ => .bind (.rejectIf _ _ _) fun _ hk => ?_
  refine .bind (.rejectIf _ _ _) fun _ _ => .bind (.rejectIf _ _ _) fun _ _ => ?_
  refine .bind (.rejectIf _ _ _) fun _ _ => .bind ?_ fun _ _ => ?_
  · exact require_answers (fun k hk => List.mem_append_right _ hk) hk
  · exact .bind (.rejectIf _ _ _) fun _ _ => .bind (checkCost_answers _ _) fun _ _ =>
      .rejectIf _ _ _

theorem buildStructure_answers (s : KState R) (p : Option PlayerId) (t : TileId) (k : String) :
    Answers (buildStructureValidator s p t k) := by
  refine .bind (guard_answers s p) fun _ _ => .bind (.rejectIf _ _ _) fun _ hk => ?_
  refine .bind (.rejectIf _ _ _) fun _ _ => .bind (.rejectIf _ _ _) fun _ _ => ?_
  refine .bind (.rejectIf _ _ _) fun _ _ => .bind ?_ fun _ _ => ?_
  · exact require_answers (fun k hk => List.mem_append_left _ (buildable_structure hk).1) hk
  · exact .bind (.rejectIf _ _ _) fun _ _ => checkCost_answers _ _

theorem attackTile_answers (s : KState R) (p : Option PlayerId) (f t : TileId)
    (ids : Option (List PieceId)) : Answers (attackTileValidator s p f t ids) := by
  refine .bind (guard_answers s p) fun _ _ => .bind (.rejectIf _ _ _) fun _ _ => ?_
  refine .bind (.rejectIf _ _ _) fun _ _ => .bind (.rejectIf _ _ _) fun _ _ => ?_
  refine .bind (.rejectIf _ _ _) fun _ _ => .bind (.rejectIf _ _ _) fun _ _ => ?_
  refine .bind (.rejectIf _ _ _) fun _ _ => ?_
  cases ids with
  | none => exact .rejectIf _ _ _
  | some ids =>
    exact .bind (.rejectIf _ _ _) fun _ _ => .bind (.rejectIf _ _ _) fun _ _ => .rejectIf _ _ _

theorem validate_answers [Strength R] (s : KState R) (a : KAction) :
    Answers ((kingdomsScenario R).validate s a) := by
  rw [validate_eq]
  cases a.payload with
  | recruitUnit t k => exact recruitUnit_answers s _ t k
  | buildStructure t k => exact buildStructure_answers s _ t k
  | attackTile f t ids => exact attackTile_answers s _ f t ids
  | moveUnit id t =>
    exact .bind (guard_answers s _) fun _ _ => .bind (.orReject _ _ _) fun _ _ =>
      .bind (.rejectIf _ _ _) fun _ _ => .bind (.rejectIf _ _ _) fun _ _ =>
      .bind (.rejectIf _ _ _) fun _ _ => .bind (.rejectIf _ _ _) fun _ _ => .rejectIf _ _ _
  | demolishStructure t =>
    exact .bind (guard_answers s _) fun _ _ => .bind (.rejectIf _ _ _) fun _ _ =>
      .bind (.orReject _ _ _) fun _ _ => .bind (.rejectIf _ _ _) fun _ _ => .rejectIf _ _ _
  | developTile t =>
    exact .bind (guard_answers s _) fun _ _ => .bind (.rejectIf _ _ _) fun _ _ =>
      .bind (.rejectIf _ _ _) fun _ _ => .bind (.rejectIf _ _ _) fun _ _ =>
      .bind (.orReject _ _ _) fun _ _ => .bind (.rejectIf _ _ _) fun _ _ => .rejectIf _ _ _
  | endTurn => exact guard_answers s _
  | unregistered t => intro e h; simp [validatePayload] at h

/-! ## Runs -/

variable [Strength R]

theorem unmortgaged_reachable {opts : GameSetupOptions} (hid : (opts.players.map Player.id).Nodup)
    (hseat : (opts.players.map Player.seat).Nodup) {calls : List (KCall R)} {g : KGame R}
    (h : Game.RunFrom (kingdomsScenario R) opts calls g) : g.state.extras.mortgagedCities = [] := by
  refine (kingdoms_inv (I := fun s => s.extras.mortgagedCities = []) (fun _ _ _ h => h) ?_ hid hseat
    ?_ h).2
  · exact fun s payload evs s' _ _ hI heff => heff.frame.2.2.trans hI
  · exact fun s hf _ => by rw [hf.extras]

/-- The machine of a reachable game shows the status of its state. -/
theorem machine_status {opts : GameSetupOptions} (hid : (opts.players.map Player.id).Nodup)
    (hseat : (opts.players.map Player.seat).Nodup) {calls : List (KCall R)} {g : KGame R}
    (h : Game.RunFrom (kingdomsScenario R) opts calls g) : g.machine = g.state.status := by
  obtain ⟨s, hs, htr⟩ := h
  have hsound := fresh_sound (fresh_state hs) hid hseat
  have hkeep : ∀ (s : KState R) a evs s', Sound s → (kingdomsScenario R).validate s a = .ok () →
      ((kingdomsScenario R).execute a).run s = .ok evs s' → Sound s' ∧ s'.status = s.status := by
    intro s a evs s' hs hv hx
    obtain ⟨_, _, evs₁, s₁, hx₁, heff⟩ := accepted_effect hs hv
    rw [hx] at hx₁
    cases hx₁
    exact ⟨heff.sound hs, heff.frame.1⟩
  refine (htr.inv (I := fun g => Sound g.state ∧ g.machine = g.state.status)
    (fun g c g' ⟨hs, hm⟩ hstep => ?_) ⟨hsound, rfl⟩).2
  cases hstep.outcome no_rules with
  | started =>
    unfold Game.start
    split
    · exact ⟨sound_frame hs _ _, rfl⟩
    · exact ⟨hs, hm⟩
  | rejected => exact ⟨hs, hm⟩
  | refused => exact ⟨hs, hm⟩
  | crashed hv hx =>
    obtain ⟨_, _, _, _, hx', -⟩ := accepted_effect hs hv
    rw [hx] at hx'
    cases hx'
  | played hv hx =>
    obtain ⟨hs', hst⟩ := hkeep _ _ _ _ hs hv hx
    exact ⟨sound_frame hs' _ _, hm.trans hst.symm⟩
  | won hv hx =>
    obtain ⟨hs', _⟩ := hkeep _ _ _ _ hs hv hx
    exact ⟨sound_frame hs' _ _, rfl⟩
  | stuck hv hx =>
    obtain ⟨hs', hst⟩ := hkeep _ _ _ _ hs hv hx
    exact ⟨sound_frame hs' _ _, hm.trans hst.symm⟩

/-- The submit returns. A rejection changes nothing. An accepted action keeps every count a natural
number, mortgages nothing and is recorded once. -/
def SubmitsSafely (g : KGame R) (a : KAction) : Prop :=
  ∃ r g', (Game.submit (kingdomsScenario R) a).run g = .ok r g' ∧
    match r with
    | .error _ => g' = g
    | .ok events =>
      (∀ pl ∈ g'.state.players.bySeat, ∃ inv, g'.state.inventories.get? pl.id = some inv) ∧
        (∀ id inv, g'.state.inventories.get? id = some inv → inv.Whole) ∧
        g'.state.extras.mortgagedCities = [] ∧ (∀ e ∈ events, Unmortgaged e) ∧
        ∃ recorded, g'.state.history =
          g.state.history ++ [⟨g.state.history.length + 1, a, recorded⟩]

theorem submit_safe {opts : GameSetupOptions} (hid : (opts.players.map Player.id).Nodup)
    (hseat : (opts.players.map Player.seat).Nodup) {calls : List (KCall R)} {g : KGame R}
    (h : Game.RunFrom (kingdomsScenario R) opts calls g) (hplay : g.state.status = .playing)
    (a : KAction) : SubmitsSafely g a := by
  have hs : Sound g.state := (board_reachable hid hseat h).1
  have hm : g.machine = .playing := (machine_status hid hseat h).trans hplay
  have hnone : g.state.extras.mortgagedCities = [] := unmortgaged_reachable hid hseat h
  cases hv : (kingdomsScenario R).validate g.state a with
  | error r =>
    cases r with
    | rejected e => exact ⟨_, g, Game.submit_rejected hv, rfl⟩
    | threw e => exact absurd hv (validate_answers _ _ _)
  | ok u =>
    obtain ⟨_, _, evs, s', hx, heff⟩ := accepted_effect hs hv
    obtain ⟨_, hhist, hmort⟩ := heff.frame
    have hs' := heff.sound hs
    have hevents : ∀ n, ∀ e ∈ Game.stamp n evs, Unmortgaged e := by
      intro n e he id hbody
      obtain ⟨e', he', hb⟩ := Game.mem_stamp he
      exact heff.unmortgaged e' he' id (hb ▸ hbody)
    have hrun := Game.submit_no_rules (g := g) no_rules hv hx
    simp only [hm] at hrun
    cases hev : (kingdomsScenario R).evaluate (g.executed a evs s').state with
    | none =>
      rw [hev] at hrun
      exact ⟨_, _, hrun, hs'.purses, hs'.whole, hmort.trans hnone, hevents _, _, by
        rw [← hhist]; rfl⟩
    | some victory =>
      rw [hev] at hrun
      refine ⟨_, _, hrun, hs'.purses, hs'.whole, hmort.trans hnone, ?_, _, by rw [← hhist]; rfl⟩
      intro e he
      rcases List.mem_append.mp he with he | he
      · exact hevents _ e he
      · intro id hbody
        rw [List.mem_singleton.mp he] at hbody
        cases hbody

theorem threeHits_safe : ∃ r, Game.play (kingdomsScenario ℚ) duel threeHits = .ok r ∧
    r.2.state.status = .playing ∧
    SubmitsSafely r.2 ⟨some "p1", .moveUnit "noble-p1-0" "3,-4", none⟩ := by
  have hplay : (Game.play (kingdomsScenario ℚ) duel threeHits).toOption.map
      (fun r => r.2.state.status) = some .playing := by decide +kernel
  obtain ⟨r, hr, hrun, hst⟩ := Game.play_observed hplay
  exact ⟨r, hr, hst, submit_safe (by decide) (by decide) hrun hst _⟩

end Boardgame.Kingdoms
