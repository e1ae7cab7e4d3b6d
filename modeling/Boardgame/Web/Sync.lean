import Boardgame.Engine.Concurrent
import Boardgame.Web.Replay

/-!
# Web.Sync

The Frontier page next to the engine: over a run of the engine, the view folded from the published
messages agrees with the view of the engine's state, as long as nothing is accepted once the game
has ended and no flag takes the name of another.

* `replay_agrees`: the same, for every run of a created game.
* `replay_strays`: a turn ended after the end of the game, which nobody is told of.
-/

namespace Boardgame.Web

open Frontier Engine

/-- The views are the same, their round numbers apart. -/
def Agrees (v w : DemoView) : Prop := v = { w with round := v.round }

instance (v w : DemoView) : Decidable (Agrees v w) := inferInstanceAs (Decidable (v = _))

theorem Agrees.of_eq {v w : DemoView} (h : v = w) : Agrees v w := by
  subst h
  rfl

/-- What the engine shows of a game. -/
def shown (g : FGame) : DemoView := buildView g.state g.state.players.all (verdict g)

theorem agrees_shown {g : FGame} {v : DemoView} :
    Agrees v (shown g) ↔
    ∃ round, v = Picture.view { Picture.of g.state (verdict g) with round } := by
  constructor
  · intro h
    exact ⟨v.round, h⟩
  · rintro ⟨round, rfl⟩
    rfl

/-! ## One command -/

/-- The flag a claim would plant has a name that no piece has. -/
def NewFlag (s : FState) (a : FAction) : Prop :=
  match a.payload with
  | .claimTile t => s.pieces.get? (flagId (actor a.playerId) t) = none
  | _ => True

instance (s : FState) (a : FAction) : Decidable (NewFlag s a) := by
  unfold NewFlag
  split
  · infer_instance
  · infer_instance

theorem findSome?_victoryOf_stamp (evs : List FEvent) : ∀ n,
    (Game.stamp n evs).findSome? victoryOf = evs.findSome? victoryOf := by
  induction evs with
  | nil => intro n; rfl
  | cons e es ih =>
    intro n
    rw [Game.stamp, List.findSome?_cons, List.findSome?_cons, ih]
    rfl

/-- **A command**: its messages change the view of the game before into that of the game after. -/
theorem command_replays {g g' : FGame} {a : FAction} {events : List FEvent} (hs : Sound g.state)
    (hseated : Seated g.state) (hnone : verdict g = none) (hflag : NewFlag g.state a)
    (hv : frontierScenario.validate g.state a = .ok ())
    (hr : Game.respond frontierScenario g (.submit a) = (.submit a (.ok (.ok events)), g'))
    (hplayed : Played g events g') {v : DemoView} (h : Agrees v (shown g)) :
    ∃ v', (events.map busEvent).foldl applyEvent (some v) = some v' ∧ Agrees v' (shown g') := by
  obtain ⟨round, rfl⟩ := agrees_shown.mp h
  obtain ⟨primary, s', hx, hact, hne, heff⟩ := acted_on hs hv
  have hquiet : primary.findSome? victoryOf = none := by
    rw [← Option.not_isSome_iff_eq_none, victoryOf_isSome, heff.quiet]
    simp
  have hnew : ∀ t, a.payload = .claimTile t →
      g.state.pieces.get? (flagId g.state.rounds.turn.activePlayer t) = none := by
    intro t ht
    have hflag' := hflag
    rw [NewFlag, ht, hact] at hflag'
    exact hflag'
  have hfold := effect_replays heff hne hnew
    (fun q rounds hend => (hseated.endTurn hs hne hend).2 rfl) none round
  have hverdict := hplayed.verdict hnone
  have hstep := Game.respond_step frontierScenario g (.submit a)
  rw [hr] at hstep
  rw [hnone]
  cases hstep.outcome no_rules with
  | played _ hx' =>
    rw [hx] at hx'
    cases hx'
    refine ⟨_, (foldl_stamp primary _ _).trans hfold, agrees_shown.mpr ⟨round, ?_⟩⟩
    rw [hverdict, findSome?_victoryOf_stamp, hquiet]
    rfl
  | @won _ _ _ victory _ hx' =>
    rw [hx] at hx'
    cases hx'
    have hlast :
        ((primary ++ [({ body := .gameEnded victory } : FEvent)]).map busEvent).foldl applyEvent
          (some (Picture.view { Picture.of g.state none with round })) =
        some (Picture.view
          { Picture.of { s' with status := .ended } (some victory) with round }) := by
      rw [List.map_append, List.foldl_append, hfold]
      rfl
    refine ⟨_, (foldl_stamp _ _ _).trans hlast, agrees_shown.mpr ⟨round, ?_⟩⟩
    rw [hverdict, findSome?_victoryOf_stamp, List.findSome?_append, hquiet]
    rfl

/-- Errors are not shown. -/
theorem foldl_errors {errors : List GameMessage}
    (h : ∀ msg ∈ errors, ∃ error, msg.payload = .error error) (v : Option DemoView) :
    errors.foldl applyEvent v = v := by
  induction errors with
  | nil => rfl
  | cons msg msgs ih =>
    obtain ⟨error, herror⟩ := h msg List.mem_cons_self
    have hsame : applyEvent v msg = v := by rw [applyEvent, herror]
    rw [List.foldl_cons, hsame]
    exact ih fun m hm => h m (List.mem_cons_of_mem _ hm)

/-! ## Runs -/

abbrev FReplica := Replica FrontierExtras FrontierPayload FrontierEvent DemoView

abbrev FMoment := Moment FrontierPayload FrontierEvent

/-- A command that is accepted comes before the end of the game, and plants no flag of a name in
use. -/
def Replayable (r : FReplica) : FMoment → Prop
  | .called (.submit a _) => accepts r.inst.game a = true →
      r.inst.game.machine ≠ .ended ∧ NewFlag r.state a
  | _ => True

instance (r : FReplica) (m : FMoment) : Decidable (Replayable r m) := by
  unfold Replayable
  split
  · infer_instance
  · infer_instance

section Created

variable {gameId : String} {ps : List (PlayerId × String)}

theorem plays_frontier (hid : (ps.map Prod.fst).Nodup) :
    Plays frontierScenario (startingOptions gameId ps) :=
  Registered.frontier.plays (R := ℚ) ((gamePlayers_ids ps).symm ▸ hid) (gamePlayers_seats ps)

theorem kept_reachable (hid : (ps.map Prod.fst).Nodup) {calls : List FCall} {g : FGame}
    (h : Game.RunFrom frontierScenario (startingOptions gameId ps) calls g) :
    Sound g.state ∧ Seated g.state := by
  refine ⟨sound_reachable h, seated_reachable ((gamePlayers_ids ps).symm ▸ hid)
    (gamePlayers_seats ps) ?_ h⟩
  intro p hp
  obtain ⟨i, _, rfl⟩ := List.mem_mapIdx.mp hp
  rfl

/-- What a step of a created game publishes changes the view as it changes the game. -/
theorem turned_replays (hid : (ps.map Prod.fst).Nodup) {g₀ : FGame} {ms : List FMoment}
    {r r' : FReplica} {m : FMoment}
    (hlive : Live frontierScenario (startingOptions gameId ps) buildView g₀ ms r)
    (hcreated : Created r) (hturn : Turned frontierScenario buildView r m r') (hm : Replayable r m)
    {v : DemoView} (hfold : r.published.foldl applyEvent none = some v)
    (hv : Agrees v (shown r.inst.game)) :
    ∃ v', r'.published.foldl applyEvent none = some v' ∧ Agrees v' (shown r'.inst.game) := by
  cases hturn with
  | @played a events g' hvalid hgoing hr hplayed =>
    obtain ⟨_, hrun⟩ := hlive.tracked.run
    obtain ⟨hs, hseated⟩ := kept_reachable hid hrun
    obtain ⟨-, hflag⟩ := hm (Game.accepts_iff.mpr hvalid)
    obtain ⟨v', hv', hagrees⟩ :=
      command_replays hs hseated (hlive.tracked.going hgoing) hflag hvalid hr hplayed hv
    exact ⟨v', by rw [List.foldl_append, hfold, hv'], hagrees⟩
  | silent _ herrors => exact ⟨v, by rw [List.foldl_append, hfold, foldl_errors herrors], hv⟩
  | completed => exact ⟨v, hfold, hv⟩
  | saved => exact ⟨v, hfold, hv⟩
  | viewed => exact ⟨v, hfold, hv⟩
  | created => exact ⟨v, hfold, hv⟩
  | @started view _ hn =>
    exact absurd (by rw [Outbox.next_waiting hn]; exact List.mem_cons_self) (hcreated.start view)

/-- The first message shows the game that begins. -/
theorem created_shown {r₀ : FReplica}
    (hcreated : Replica.createGame frontierScenario buildView (startingOptions gameId ps) =
      .ok r₀) :
    ∃ v, r₀.published.foldl applyEvent none = some v ∧ Agrees v (shown r₀.inst.game) := by
  cases hs : createGameState frontierScenario (startingOptions gameId ps) with
  | error e => simp [Replica.createGame, hs, Except.map] at hcreated
  | ok s =>
    simp only [Replica.createGame, hs, Except.map, Except.ok.injEq] at hcreated
    subst hcreated
    have hverdict : verdict (Game.new s).start = none := by
      rw [verdict, (start_fresh (fresh_state hs).status).2]
      rfl
    refine ⟨_, rfl, ?_⟩
    rw [shown, hverdict]
    exact .of_eq (first_view (R := ℚ) .frontier hs)

/-- **The replay agrees with the engine.** Over every run of a created game, however its handlers
are interleaved, if what is accepted comes before the end and plants no flag of a name in use: the
view folded from all messages published so far agrees with the view of the engine's state. -/
theorem replay_agrees (hid : (ps.map Prod.fst).Nodup) {r₀ r : FReplica}
    (hcreated : Replica.createGame frontierScenario buildView (startingOptions gameId ps) = .ok r₀)
    {rs : List (Record FReplica FMoment)}
    (h : Trace (Recorded (Replica.Step frontierScenario buildView)) r₀ rs r)
    (hrs : ∀ rec ∈ rs, Replayable rec.before rec.label) :
    ∃ v, r.published.foldl applyEvent none = some v ∧
      Agrees v (buildView r.state r.state.players.all (verdict r.inst.game)) := by
  obtain ⟨hlive₀, hcreated₀⟩ := live_created hcreated fun s hs =>
    ⟨(fresh_state hs).status, first_view (R := ℚ) .frontier hs⟩
  have hrun := (h.restrict hrs).inv_labels
    (I := fun pre r => Live frontierScenario (startingOptions gameId ps) buildView r₀.inst.game
      (pre.map Record.label) r ∧ Created r ∧
      ∃ v, r.published.foldl applyEvent none = some v ∧ Agrees v (shown r.inst.game))
    (fun pre s rec t ⟨hlive, hcreated, v, hfold, hv⟩ ⟨hrec, hm⟩ => ?_) []
      ⟨hlive₀, hcreated₀, created_shown hcreated⟩
  · obtain ⟨rfl, rfl, hstep⟩ := Recorded.step_of hrec
    have hturn := turned_step (plays_frontier hid) hlive hstep fun a res hlabel hvalid => by
      rw [hlabel] at hm
      exact (hm (Game.accepts_iff.mpr hvalid)).1
    rw [List.map_append]
    exact ⟨hturn.live hlive hcreated.greets, hturn.stays hcreated,
      turned_replays hid hlive hcreated hturn hm hfold hv⟩
  · exact hrun.2.2

end Created

/-! ## A game of two -/

def table : List (PlayerId × String) := [("p1", "Ada"), ("p2", "Bo")]

/-- `p1` claims a tile in each of four turns and wins with the last. -/
def fourCommands : List (Input FrontierPayload) :=
  (["2,-1", "2,0", "2,1"].flatMap fun t =>
    [.command ⟨"p1", .claimTile t, none⟩, .command ⟨"p1", .endTurn, none⟩,
      .command ⟨"p2", .endTurn, none⟩]) ++
    [.command ⟨"p1", .claimTile "1,2", none⟩]

/-- A created game of the two, its inputs and what is observed of their run. -/
theorem filmed {α : Type} {is : List (Input FrontierPayload)} {x : α}
    {observe : List (Record FReplica FMoment) × FReplica → α}
    (h : (Replica.createGame frontierScenario buildView (startingOptions "s8" table)).toOption.bind
      (fun r₀ =>
      (film (Replica.turn frontierScenario buildView) r₀ is).map observe) = some x) :
    ∃ r₀ rs r, Replica.createGame frontierScenario buildView (startingOptions "s8" table) = .ok r₀ ∧
      Trace (Recorded (Replica.Step frontierScenario buildView)) r₀ rs r ∧ observe (rs, r) = x :=
  film_observed (f := id) (fun hturn => .mk hturn) h

/-- Every command of the won game is shown. -/
theorem four_commands_agree : ∃ r₀ rs r,
    Replica.createGame frontierScenario buildView (startingOptions "s8" table) = .ok r₀ ∧
    Trace (Recorded (Replica.Step frontierScenario buildView)) r₀ rs r ∧ rs.length = 12 ∧
    r.inst.game.machine = .ended ∧ ∃ v, r.published.foldl applyEvent none = some v ∧
      Agrees v (buildView r.state r.state.players.all (verdict r.inst.game)) := by
  have hobserved :
      (Replica.createGame frontierScenario buildView (startingOptions "s8" table)).toOption.bind
      (fun r₀ => (film (Replica.turn frontierScenario buildView) r₀
        (fourCommands ++ [.complete, .resume])).map
        fun m => (decide (∀ rec ∈ m.1, Replayable rec.before rec.label), m.1.length,
          m.2.inst.game.machine)) =
      some (true, 12, .ended) := by decide +kernel
  obtain ⟨r₀, rs, r, hcreated, htrace, hx⟩ := filmed hobserved
  simp only [Prod.mk.injEq, decide_eq_true_eq] at hx
  exact ⟨r₀, rs, r, hcreated, htrace, hx.2.1, hx.2.2,
    replay_agrees (by decide) hcreated htrace hx.1⟩

/-- The winner ends the turn once the game has ended: the engine goes on to the other player, and
nobody is told. -/
theorem replay_strays : ∃ r₀ rs r,
    Replica.createGame frontierScenario buildView (startingOptions "s8" table) = .ok r₀ ∧
    Trace (Recorded (Replica.Step frontierScenario buildView)) r₀ rs r ∧
    ¬ ∃ v, r.published.foldl applyEvent none = some v ∧
      Agrees v (buildView r.state r.state.players.all (verdict r.inst.game)) := by
  have hobserved :
      (Replica.createGame frontierScenario buildView (startingOptions "s8" table)).toOption.bind
      (fun r₀ => (film (Replica.turn frontierScenario buildView) r₀
          (fourCommands ++ [.command ⟨"p1", .endTurn, none⟩])).map
        fun m => ((m.2.published.foldl applyEvent none).map FrontierView.currentActivePlayer,
          m.2.state.rounds.turn.activePlayer)) =
      some (some "p1", "p2") := by decide +kernel
  obtain ⟨r₀, rs, r, hcreated, htrace, hx⟩ := filmed hobserved
  simp only [Prod.mk.injEq] at hx
  refine ⟨r₀, rs, r, hcreated, htrace, fun ⟨v, hfold, hv⟩ => ?_⟩
  have hactive : v.currentActivePlayer = r.state.rounds.turn.activePlayer :=
    congrArg FrontierView.currentActivePlayer hv
  rw [hfold, Option.map_some, Option.some.injEq, hactive, hx.2] at hx
  exact absurd hx.1 (by decide)

end Boardgame.Web
