import Boardgame.Engine.Create
import Boardgame.Engine.Snapshot
import Boardgame.Frontier.Victory
import Boardgame.Frontier.View
import Boardgame.Kingdoms.Ending
import Boardgame.Kingdoms.View

/-!
# Engine.Concurrent

The scenarios an engine registers at boot, and what concurrent commands leave of a game of theirs.

* `final_snapshot`: every event once and in order, the last state, its view, and the result in it.
-/

namespace Boardgame.Engine

/-- `ScenarioRegistry`. -/
inductive Registered where
  | frontier
  | kingdoms
  deriving DecidableEq

namespace Registered

abbrev Extras : Registered → Type
  | .frontier => Frontier.FrontierExtras
  | .kingdoms => Kingdoms.KingdomsExtras

abbrev Payload : Registered → Type
  | .frontier => Frontier.FrontierPayload
  | .kingdoms => Kingdoms.KingdomsPayload

abbrev Event (R : Type) : Registered → Type
  | .frontier => Frontier.FrontierEvent
  | .kingdoms => Kingdoms.KingdomsEvent R

abbrev View : Registered → Type
  | .frontier => Frontier.FrontierView
  | .kingdoms => Kingdoms.KingdomsView

instance : (id : Registered) → HasType id.Payload
  | .frontier => inferInstanceAs (HasType Frontier.FrontierPayload)
  | .kingdoms => inferInstanceAs (HasType Kingdoms.KingdomsPayload)

variable (R : Type)

instance : (id : Registered) → HasType (id.Event R)
  | .frontier => inferInstanceAs (HasType Frontier.FrontierEvent)
  | .kingdoms => inferInstanceAs (HasType (Kingdoms.KingdomsEvent R))

def scenario [Strength R] : (id : Registered) → Scenario id.Extras id.Payload (id.Event R)
  | .frontier => Frontier.frontierScenario
  | .kingdoms => Kingdoms.kingdomsScenario R

/-- `EngineService.buildView`: the scenario's own view, or the fallback. -/
def buildView : (id : Registered) → GameState id.Extras id.Payload (id.Event R) → List Player →
    Option VictoryResult → id.View
  | .frontier => Frontier.buildView
  | .kingdoms => Kingdoms.buildKingdomsView

/-- The result a view carries: the winner, if there is one, and the reason. -/
def result : (id : Registered) → id.View → Option PlayerId × Option String
  | .frontier, view => (view.winner, view.winReason)
  | .kingdoms, view => (view.winner, view.winReason)

variable {R}

theorem result_buildView (id : Registered) (s : GameState id.Extras id.Payload (id.Event R))
    (players : List Player) (victory : Option VictoryResult) :
    id.result (id.buildView R s players victory) =
      (victory.bind VictoryResult.winner, victory.map VictoryResult.reason) := by
  cases id <;> rfl

/-! ## The scenarios -/

theorem plays [Strength R] (id : Registered) {opts : GameSetupOptions}
    (hid : (opts.players.map Player.id).Nodup) (hseat : (opts.players.map Player.seat).Nodup) :
    Plays (id.scenario R) opts := by
  cases id with
  | frontier =>
    refine ⟨Frontier.no_rules, fun hrun hv => ?_⟩
    obtain ⟨evs, s', hx, _, _, heff⟩ := Frontier.acted_on (Frontier.sound_reachable hrun) hv
    exact ⟨evs, s', hx, heff.quiet⟩
  | kingdoms =>
    refine ⟨Kingdoms.no_rules, fun hrun hv => ?_⟩
    obtain ⟨_, _, evs, s', hx, heff⟩ :=
      Kingdoms.accepted_effect (Kingdoms.board_reachable hid hseat hrun).1 hv
    exact ⟨evs, s', hx, heff.quiet⟩

theorem fresh [Strength R] (id : Registered) {opts : GameSetupOptions}
    {s : GameState id.Extras id.Payload (id.Event R)}
    (h : createGameState (id.scenario R) opts = .ok s) :
    s.status = .setup ∧ s.players = .new opts.players := by
  cases id with
  | frontier => exact ⟨(Frontier.fresh_state h).status, (Frontier.fresh_state h).players⟩
  | kingdoms => exact ⟨(Kingdoms.fresh_state h).status, (Kingdoms.fresh_state h).players⟩

end Registered

/-! ## The roster -/

theorem gamePlayers_sorted (ps : List (PlayerId × String)) :
    sortBySeat (gamePlayers ps) = gamePlayers ps := by
  refine List.Pairwise.insertionSort_eq ?_
  rw [List.pairwise_iff_getElem]
  intro i j hi hj hij
  simp only [gamePlayers, List.getElem_mapIdx]
  omega

theorem gamePlayers_ids (ps : List (PlayerId × String)) :
    (gamePlayers ps).map Player.id = ps.map Prod.fst := by
  refine List.ext_getElem (by simp) fun i hi _ => ?_
  simp [gamePlayers]

theorem gamePlayers_seats (ps : List (PlayerId × String)) :
    ((gamePlayers ps).map Player.seat).Nodup := by
  rw [List.Nodup, List.pairwise_iff_getElem]
  intro i j hi hj hij
  simp only [gamePlayers, List.getElem_map, List.getElem_mapIdx]
  omega

/-- The view of a game that begins shows the roster it was made of. -/
theorem first_view {R : Type} [Strength R] (id : Registered) {gameId : String}
    {ps : List (PlayerId × String)} {s : GameState id.Extras id.Payload (id.Event R)}
    (h : createGameState (id.scenario R) (startingOptions gameId ps) = .ok s) :
    id.buildView R (Game.new s).start.state (gamePlayers ps) none =
      id.buildView R (Game.new s).start.state (Game.new s).start.state.players.all none := by
  have hplayers : (Game.new s).start.state.players.all =
      (gamePlayers ps).map fun p => { p with status := some .active } := by
    have hstart : (Game.new s).start.state.players = s.players := by
      unfold Game.start
      split <;> rfl
    have hnew : s.players = .new (gamePlayers ps) := (id.fresh h).2
    rw [hstart, hnew, PlayerManager.new, gamePlayers_sorted]
    rfl
  rw [hplayers]
  cases id with
  | frontier => exact (Frontier.buildView_status _ _ _ _).symm
  | kingdoms => exact (Kingdoms.buildKingdomsView_status _ _ _ _).symm

/-! ## Concurrent commands -/

/-- **Concurrent commands leave the final snapshot.** However the handlers of the commands of a
created game are interleaved, if none is submitted after the one that ends the game: the events of
the accepted commands are published once each, numbered from 1 in the order of submission; when all
handlers have finished, the saved state is the one the accepted commands alone lead to, and the
saved view is its view, with the winner and the reason of the `game-ended` event if and only if the
game has ended. -/
theorem final_snapshot {R : Type} [Strength R] (id : Registered) {gameId : String}
    {ps : List (PlayerId × String)} (hid : (ps.map Prod.fst).Nodup)
    {r₀ r : Replica id.Extras id.Payload (id.Event R) id.View}
    (hcreated : Replica.createGame (id.scenario R) (id.buildView R)
      (startingOptions gameId ps) = .ok r₀)
    {ms : List (Moment id.Payload (id.Event R))}
    (h : Trace (Replica.Step (id.scenario R) (id.buildView R)) r₀ ms r) (hlast : NoneAfterEnd ms) :
    let events := (calls ms).flatMap Game.Call.events
    let final := alone (id.scenario R) r₀.inst.game ms
    (r.published.filter GameBusEvent.isEvent = events.map busEvent ∧
      (r.published.filter GameBusEvent.isEvent).map GameBusEvent.seq =
        List.range' 1 events.length) ∧
    (r.Idle → r.store.memory.state = some final.state ∧
      ∃ victory view, r.store.memory.view = some view ∧
        view = id.buildView R final.state final.state.players.all victory ∧
        id.result view = (victory.bind VictoryResult.winner, victory.map VictoryResult.reason) ∧
        (victory.isSome = true ↔ final.machine = .ended) ∧
        ∀ v, victory = some v → ∃ e ∈ events, e.body = .gameEnded v) := by
  intro events final
  have hplays : Plays (id.scenario R) (startingOptions gameId ps) :=
    id.plays ((gamePlayers_ids ps).symm ▸ hid) (gamePlayers_seats ps)
  obtain ⟨hlive₀, hopened⟩ := live_created hcreated fun s hs => ⟨(id.fresh hs).1, first_view id hs⟩
  have hlasting := (live_run hplays hlive₀ hopened h hlast).lasting
  refine ⟨⟨hlasting.events, ?_⟩, fun hidle => ⟨hlasting.state hidle, ?_⟩⟩
  · have hseqs := hlasting.seqs
    rwa [hlasting.events, List.length_map, ← hlasting.events] at hseqs
  · obtain ⟨victory, hview, hended, hevent⟩ := hlasting.view hidle
    exact ⟨victory, _, hview, rfl, id.result_buildView _ _ _, hended, hevent⟩

/-! ## Ten commands at once -/

/-- The commands of `Frontier.fourClaims`, and one out of turn. -/
def rushCommands : List (Input Frontier.FrontierPayload) :=
  (["2,-1", "2,0", "2,1"].flatMap fun t =>
    [.command ⟨"p1", .claimTile t, none⟩, .command ⟨"p1", .endTurn, none⟩,
      .command ⟨"p2", .endTurn, none⟩]) ++
    [.command ⟨"p2", .claimTile "0,0", none⟩, .command ⟨"p1", .claimTile "1,2", none⟩]

/-- The first views are built while later commands come in; the game has ended before most are. -/
def rush : List (Input Frontier.FrontierPayload) :=
  rushCommands.take 5 ++ [.complete, .complete, .resume] ++ rushCommands.drop 5 ++
    List.replicate 8 .complete ++ List.replicate 9 .resume ++ List.replicate 9 .complete ++
    List.replicate 9 .resume ++
    [.complete, .resume]

instance {P E : Type} (ms : List (Moment P E)) : Decidable (NoneAfterEnd ms) :=
  inferInstanceAs (Decidable ((calls ms).Pairwise fun c _ => Game.endsGame c = false))

/-- After the rush nothing waits, and the saved view names the winner. -/
theorem rush_leaves_snapshot : ∃ r₀ ms r,
    Replica.createGame (Registered.frontier.scenario ℚ) (Registered.frontier.buildView ℚ)
      (startingOptions "s8" [("p1", "Ada"), ("p2", "Bo")]) = .ok r₀ ∧
    r₀.drive (Registered.frontier.scenario ℚ) (Registered.frontier.buildView ℚ) rush =
      some (ms, r) ∧
    (r.held, (calls ms).length, (accepted ms).length) = (false, 11, 10) ∧
    (r.published.filter GameBusEvent.isEvent).map GameBusEvent.seq =
      List.range' 1 ((calls ms).flatMap Game.Call.events).length ∧
    let final := alone (Registered.frontier.scenario ℚ) r₀.inst.game ms
    r.store.memory.state = some final.state ∧
      ∃ v, r.store.memory.view =
        some (Frontier.buildView final.state final.state.players.all (some v)) := by
  have hobserved : (Replica.createGame (Registered.frontier.scenario ℚ)
      (Registered.frontier.buildView ℚ)
      (startingOptions "s8" [("p1", "Ada"), ("p2", "Bo")])).toOption.bind (fun r₀ =>
        (r₀.drive (Registered.frontier.scenario ℚ)
          (Registered.frontier.buildView ℚ) rush).map fun m =>
          (decide (NoneAfterEnd m.1), m.2.store.waiting.length,
            (alone (Registered.frontier.scenario ℚ) r₀.inst.game m.1).machine,
            m.2.held, (calls m.1).length, (accepted m.1).length)) =
      some (true, 0, .ended, false, 11, 10) := by decide +kernel
  obtain ⟨r₀, hr₀, hobserved⟩ := Option.bind_eq_some_iff.mp hobserved
  obtain ⟨⟨ms, r⟩, hdrive, hobserved⟩ := Option.map_eq_some_iff.mp hobserved
  simp only [Prod.mk.injEq, decide_eq_true_eq, List.length_eq_zero_iff] at hobserved
  obtain ⟨hlast, hidle, hended, hheld, hcalls, haccepted⟩ := hobserved
  have hcreated : Replica.createGame (Registered.frontier.scenario ℚ)
      (Registered.frontier.buildView ℚ)
      (startingOptions "s8" [("p1", "Ada"), ("p2", "Bo")]) = .ok r₀ := by
    revert hr₀
    cases Replica.createGame (Registered.frontier.scenario ℚ) (Registered.frontier.buildView ℚ)
        (startingOptions "s8" [("p1", "Ada"), ("p2", "Bo")]) with
    | error e => intro h; cases h
    | ok r₁ => intro h; rw [Option.some.inj h]
  obtain ⟨⟨-, hseqs⟩, hstore⟩ := final_snapshot .frontier (by decide) hcreated
    (Replica.drive_trace _ _ hdrive) hlast
  obtain ⟨hstate, victory, view, hview, rfl, -, hverdict, -⟩ := hstore hidle
  obtain ⟨v, rfl⟩ := Option.isSome_iff_exists.mp (hverdict.mpr hended)
  exact ⟨r₀, ms, r, hcreated, hdrive, by rw [hheld, hcalls, haccepted], hseqs, hstate, v, hview⟩

end Boardgame.Engine
