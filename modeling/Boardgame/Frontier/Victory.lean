import Mathlib.Data.List.Dedup
import Mathlib.Data.List.Perm.Subperm
import Boardgame.Core.Frozen
import Boardgame.Frontier.Setup

/-!
# Frontier.Victory

The end of a Frontier game. Once a victory condition holds it holds for good: victory points are
never spent, and a full board stays full.

* `evaluate_isSome`: when a victory condition holds, in terms of the stocks and the board.
* `Effect.decided`: every accepted action keeps it.
* `accepted_throws_iff`: an accepted action throws exactly when the game has ended.
* `overtime`: a game that ended, and an action accepted after the end.
-/

namespace Boardgame.Frontier

/-- Every tile of the map carries a piece. -/
def BoardFull (s : FState) : Prop :=
  s.map.tiles.length ≤ (s.pieces.values.filterMap tileOf).dedup.length

/-- Somebody has the points, or the board is full. -/
def Decided (s : FState) : Prop := (∃ id, winVp ≤ stock s id "vp") ∨ BoardFull s

theorem firstToEighteenVP_isSome (s : FState) :
    (firstToEighteenVP s).isSome = true ↔ ∃ id, winVp ≤ stock s id "vp" := by
  rw [firstToEighteenVP, Option.isSome_map, List.find?_isSome]
  constructor
  · rintro ⟨⟨id, inv⟩, he, hvp⟩
    refine ⟨id, ?_⟩
    rw [stock, stockOf, OrderedMap.mem_entries.mp he]
    simpa using hvp
  · rintro ⟨id, hvp⟩
    cases hinv : s.inventories.get? id with
    | none =>
      have hzero : stock s id "vp" = 0 := by rw [stock, stockOf, hinv]; rfl
      rw [hzero] at hvp
      exact absurd hvp (by norm_num [winVp])
    | some inv =>
      rw [stock, stockOf, hinv] at hvp
      exact ⟨(id, inv), OrderedMap.mem_entries.mpr hinv, by simpa using hvp⟩

theorem allTilesClaimed_isSome (s : FState) : (allTilesClaimed s).isSome = true ↔ BoardFull s := by
  rw [allTilesClaimed, BoardFull, ← not_lt]
  dsimp only
  split
  · rename_i h
    simp [h]
  · rename_i h
    simp [h]

theorem evaluate_isSome (s : FState) :
    (frontierScenario.evaluate s).isSome = true ↔ Decided s := by
  rw [Decided, ← firstToEighteenVP_isSome, ← allTilesClaimed_isSome]
  simp only [Scenario.evaluate, frontierScenario, List.findSome?_cons, List.findSome?_nil]
  cases firstToEighteenVP s with
  | some v => simp
  | none =>
    cases allTilesClaimed s with
    | some v => simp
    | none => simp

/-! ## A full board -/

/-- Pieces stand on tiles of the map. -/
def AllLanded (s : FState) : Prop := ∀ id piece, s.pieces.get? id = some piece → Landed s.map piece

theorem tiles_length (m : GameMap) : m.tiles.length = m.tileMap.keys.length := by
  simp [GameMap.tiles, OrderedMap.values, OrderedMap.keys]

/-- On a full board every tile is taken. -/
theorem BoardFull.occupied {s : FState} (hl : AllLanded s) (hfull : BoardFull s) {t : TileId}
    {tile : Tile} (ht : s.map.tileById t = some tile) : isTileOccupied s t = true := by
  have hsub : (s.pieces.values.filterMap tileOf).dedup ⊆ s.map.tileMap.keys := by
    intro t' ht'
    obtain ⟨piece, hp, hpt⟩ := List.mem_filterMap.mp (List.mem_dedup.mp ht')
    obtain ⟨id, hid⟩ := OrderedMap.mem_values.mp hp
    obtain ⟨u, tile', hu, htile'⟩ := hl id piece hid
    rw [hu] at hpt
    cases hpt
    exact OrderedMap.mem_keys.mpr ⟨tile', htile'⟩
  have hperm := (List.Nodup.subperm (List.nodup_dedup _) hsub).perm_of_length_le
    (by rw [← tiles_length]; exact hfull)
  have hmem : t ∈ (s.pieces.values.filterMap tileOf).dedup :=
    hperm.mem_iff.mpr (OrderedMap.mem_keys.mpr ⟨tile, ht⟩)
  obtain ⟨piece, hp, hpt⟩ := List.mem_filterMap.mp (List.mem_dedup.mp hmem)
  exact List.any_eq_true.mpr ⟨piece, hp, by simpa using hpt⟩

section Steps

variable {s s' : FState} {p : PlayerId} {payload : FrontierPayload} {evs : List FEvent}

theorem Effect.landed (hl : AllLanded s) (h : Effect s p payload evs s') : AllLanded s' := by
  cases h with
  | claimed ht => exact landed_set hl ⟨_, _, rfl, ht⟩
  | _ => exact hl

/-- What is decided stays decided. -/
theorem Effect.decided (hs : Sound s) (hl : AllLanded s) (h : Effect s p payload evs s')
    (hd : Decided s) : Decided s' := by
  rcases hd with ⟨id, hvp⟩ | hfull
  · exact .inl ⟨id, hvp.trans (h.vp hs id)⟩
  · cases h with
    | claimed ht hfree =>
      rw [hfull.occupied hl ht] at hfree
      cases hfree
    | _ => exact .inr hfull

end Steps

/-! ## Runs -/

/-- The status machine has ended only on a decided game. -/
structure Settled (g : FGame) : Prop where
  sound : Sound g.state
  landed : AllLanded g.state
  decided : g.machine = .ended → Decided g.state

theorem settled_step {g g' : FGame} {c : FCall} (hg : Settled g)
    (h : Game.Step frontierScenario g c g') : Settled g' := by
  obtain ⟨hs, hl, hd⟩ := hg
  have hkeep : ∀ {a : FAction} {evs s'}, frontierScenario.validate g.state a = .ok () →
      (frontierScenario.execute a).run g.state = .ok evs s' →
      Sound s' ∧ AllLanded s' ∧ (Decided g.state → Decided s') := by
    intro a evs s' hv hx
    obtain ⟨evs', s'', hx', _, _, heff⟩ := acted_on hs hv
    rw [hx] at hx'
    cases hx'
    exact ⟨heff.sound hs hs.turn, heff.landed hl, heff.decided hs hl⟩
  cases h.outcome no_rules with
  | started =>
    unfold Game.start
    split
    · exact ⟨sound_frame hs _ _, hl, fun h => by cases h⟩
    · exact ⟨hs, hl, hd⟩
  | rejected => exact ⟨hs, hl, hd⟩
  | refused => exact ⟨hs, hl, hd⟩
  | crashed hv hx =>
    obtain ⟨_, _, hx', _⟩ := acted_on hs hv
    rw [hx] at hx'
    cases hx'
  | played hv hx =>
    obtain ⟨hs', hl', hd'⟩ := hkeep hv hx
    exact ⟨sound_frame hs' _ _, hl', fun hm => hd' (hd hm)⟩
  | @won a primary s _ hv hx hev =>
    obtain ⟨hs', hl', _⟩ := hkeep hv hx
    have hd' : Decided (g.executed a primary s).state := (evaluate_isSome _).mp (by rw [hev]; rfl)
    exact ⟨sound_frame hs' _ _, hl', fun _ => hd'⟩
  | stuck hv hx =>
    obtain ⟨hs', hl', hd'⟩ := hkeep hv hx
    exact ⟨sound_frame hs' _ _, hl', fun hm => hd' (hd hm)⟩

theorem settled_fresh {opts : GameSetupOptions} {s : FState} (hf : Fresh opts s) :
    Settled (Game.new s) :=
  ⟨fresh_sound hf, hf.landed, fun hm => by
    have hst : s.status = .ended := hm
    rw [hf.status] at hst
    cases hst⟩

abbrev accepts (g : FGame) (a : FAction) : Bool := Game.accepts frontierScenario g a

/-- An accepted action throws exactly when the game has ended. -/
theorem accepted_throws_iff {g g' : FGame} {a : FAction}
    {r : Except JsError (ActionResult FrontierEvent)} (hg : Settled g) (ha : accepts g a = true)
    (h : Game.Step frontierScenario g (.submit a r) g') :
    (∃ e, r = .error e) ↔ g.machine = .ended := by
  have hok := Game.accepts_iff.mp ha
  cases h.outcome no_rules with
  | rejected hv => rw [hok] at hv; cases hv
  | refused hv => rw [hok] at hv; cases hv
  | crashed hv hx =>
    obtain ⟨_, _, hx', _⟩ := acted_on hg.sound hv
    rw [hx] at hx'
    cases hx'
  | @played _ primary s hv hx hev =>
    refine ⟨fun ⟨e, he⟩ => (by cases he), fun hm => ?_⟩
    obtain ⟨evs', s'', hx', _, _, heff⟩ := acted_on hg.sound hv
    rw [hx] at hx'
    cases hx'
    have hd : Decided s := heff.decided hg.sound hg.landed (hg.decided hm)
    have hsome := (evaluate_isSome (g.executed a primary s).state).mpr hd
    rw [hev] at hsome
    cases hsome
  | won _ _ _ hm => exact ⟨fun ⟨e, he⟩ => (by cases he), fun h => absurd h hm⟩
  | stuck _ _ _ hm => exact ⟨fun _ => hm, fun _ => ⟨_, rfl⟩⟩

theorem accepted_overruns {g : FGame} (hg : Settled g) (hm : g.machine = .ended) {a : FAction}
    (hv : frontierScenario.validate g.state a = .ok ()) : Game.Overruns frontierScenario g a := by
  obtain ⟨evs, s', hx, _, _, heff⟩ := acted_on hg.sound hv
  have hd : Decided s' := heff.decided hg.sound hg.landed (hg.decided hm)
  exact Game.overruns no_rules hm hv hx heff.history ((evaluate_isSome _).mpr hd)

theorem settled_reachable {opts : GameSetupOptions} {calls : List FCall} {g : FGame}
    (h : Game.RunFrom frontierScenario opts calls g) : Settled g := by
  obtain ⟨s, hs, htr⟩ := h
  exact htr.inv (fun _ _ _ hg hstep => settled_step hg hstep) (settled_fresh (fresh_state hs))

/-- Executors report scenario events only. -/
theorem Effect.quiet {s s' : FState} {p : PlayerId} {payload : FrontierPayload} {evs : List FEvent}
    (h : Effect s p payload evs s') : evs.any Game.isGameEnded = false := by
  have hincome : ∀ {es : List FEvent}, (∀ e ∈ es, Income e) → es.any Game.isGameEnded = false := by
    intro es hes
    rw [List.any_eq_false]
    intro e he
    obtain ⟨_, _, ⟨_, hbody⟩ | ⟨_, _, _, _, hbody⟩⟩ := hes e he
    · simp [Game.isGameEnded, hbody]
    · simp [Game.isGameEnded, hbody]
  cases h with
  | wrapped _ hincomes =>
    rw [List.any_cons, List.any_cons, hincome hincomes]
    rfl
  | _ => rfl

/-! ## A game of two -/

def pair : GameSetupOptions :=
  { gameId := "game-1"
    players := [⟨"p1", "Ada", "red", 0, none⟩, ⟨"p2", "Bo", "blue", 1, none⟩]
    seed := "s8" }

def request (p : PlayerId) (payload : FrontierPayload) : Game.Request FrontierPayload :=
  .submit { playerId := some p, payload }

/-- `p1` claims a tile in each of four turns and wins with the last. -/
def fourClaims : List (Game.Request FrontierPayload) :=
  .start :: (["2,-1", "2,0", "2,1"].flatMap fun t =>
    [request "p1" (.claimTile t), request "p1" .endTurn, request "p2" .endTurn]) ++
      [request "p1" (.claimTile "1,2")]

/-- The winner ends the turn. -/
def pass : FAction := { playerId := some "p1", payload := .endTurn }

/-- After the game has ended the winner's turn can still be ended: the submit throws, with the turn
passed on, recorded and emitted. -/
theorem overtime : ∃ r, Game.play frontierScenario pair fourClaims = .ok r ∧
    Game.RunFrom frontierScenario pair r.1 r.2 ∧ Game.Ended r.1 ∧ r.2.machine = .ended ∧
    accepts r.2 pass = true ∧
    ∃ e g', (Game.submit frontierScenario pass).run r.2 = .error e g' ∧
      r.2.state.rounds.turn.activePlayer = "p1" ∧ g'.state.rounds.turn.activePlayer = "p2" ∧
      g'.state.history.length = r.2.state.history.length + 1 ∧
      g'.events.emitted.length = r.2.events.emitted.length + 1 := by
  have hseen : (Game.play frontierScenario pair fourClaims).toOption.map (fun r =>
      r.1.any Game.endsGame && decide (r.2.machine = .ended) && accepts r.2 pass &&
        match (Game.submit frontierScenario pass).run r.2 with
        | .ok _ _ => false
        | .error _ g' => decide (r.2.state.rounds.turn.activePlayer = "p1" ∧
            g'.state.rounds.turn.activePlayer = "p2" ∧
            g'.state.history.length = r.2.state.history.length + 1 ∧
            g'.events.emitted.length = r.2.events.emitted.length + 1)) = some true := by
    decide +kernel
  obtain ⟨r, hplay, hfrom, hrun⟩ := Game.play_observed hseen
  simp only [Bool.and_eq_true, decide_eq_true_eq, List.any_eq_true] at hrun
  obtain ⟨⟨⟨hend, hm⟩, ha⟩, hsub⟩ := hrun
  refine ⟨r, hplay, hfrom, hend, hm, ha, ?_⟩
  cases hx : (Game.submit frontierScenario pass).run r.2 with
  | ok _ _ => simp [hx] at hsub
  | error e g' =>
    simp only [hx, decide_eq_true_eq] at hsub
    exact ⟨e, g', rfl, hsub⟩

/-- So the game is not frozen. -/
theorem overtime_not_frozen :
    ¬ ∀ (opts : GameSetupOptions) (calls later : List FCall) (g g' : FGame),
    Game.RunFrom frontierScenario opts calls g → Game.Ended calls →
    Trace (Game.Step frontierScenario) g later g' → Game.Call.start ∉ later →
    Game.Frozen g later g' := by
  intro h
  obtain ⟨r, _, hfrom, hend, _, _, e, g', hsub, _⟩ := overtime
  have hfrozen := h pair r.1 [.submit pass (.error e)] r.2 g' hfrom hend
    (.single (.threw hsub)) (by simp)
  obtain ⟨e', he'⟩ := hfrozen.2 pass (.error e) (by simp)
  cases he'

end Boardgame.Frontier
