import Boardgame.Web.Erasure
import Boardgame.Web.Sync

/-!
# Web.Bootstrap

How the Frontier page comes by its view (`useGame` in `store/game.ts`): from the first of a snapshot
and a `game-started` message, and then from the events one by one. What it has to receive is
counted: `buildCounted` keeps, next to a view, the number of the events it shows, which the page
never sees.

* `serving_turned`: every view the engine has made grows into the present one by the later events.
* `view_bootstraps`: if the page takes no view but one that shows just the events it will not be
  sent, then once nothing is in flight it shows what the saved view shows.
-/

namespace Boardgame.Web

open Frontier Engine

/-- `s.view ?? snapshot`: a snapshot does not replace a view. -/
def useGame : Page DemoView FrontierEvent where
  onGameEvent view event := (applyEvent view event, false)
  fetchInit view snapshot := some (view.getD snapshot)

abbrev FHappening := Happening FrontierPayload FrontierEvent

/-! ## Counting -/

/-- A view, and how many events of the game it shows. -/
structure Counted where
  view : DemoView
  events : Nat
  deriving DecidableEq

/-- The events a state keeps: all but `game-ended`. -/
def recorded (s : FState) : List FEvent := s.history.flatMap ActionHistoryEntry.events

def buildCounted (s : FState) (players : List Player) (victory : Option VictoryResult) : Counted :=
  { view := buildView s players victory
    events := (recorded s).length + victory.toList.length }

abbrev CReplica := Replica FrontierExtras FrontierPayload FrontierEvent Counted

abbrev CSession := Session FrontierExtras FrontierPayload FrontierEvent Counted

/-- The count of a view after a message. -/
def counted (view : Option Counted) (event : GameBusEvent Counted FrontierEvent) : Nat :=
  match event.payload with
  | .started w => w.events
  | .event _ => (view.map Counted.events).getD 0 + 1
  | .error _ => (view.map Counted.events).getD 0

def useGameCounted : Page Counted FrontierEvent where
  onGameEvent view event :=
    ((applyEvent (view.map Counted.view) (event.mapView Counted.view)).map fun v =>
      { view := v, events := counted view event }, false)
  fetchInit view snapshot := some (view.getD snapshot)

theorem buildCounted_view (s : FState) (players : List Player) (victory : Option VictoryResult) :
    buildView s players victory = (buildCounted s players victory).view := rfl

theorem useGame_sees : useGameCounted.Sees useGame Counted.view := by
  constructor
  · intro view msg
    simp [useGame, useGameCounted, Function.comp_def]
  · intro view snapshot
    cases view <;> rfl

/-! ## Views that grow into the present one -/

/-- The later events make the view of the game of it. -/
structure Replays (w : Counted) (g : FGame) : Prop where
  le : w.events ≤ g.events.emitted.length
  agrees : ∃ v, ((g.events.emitted.drop w.events).map busEvent).foldl applyEvent
    (some w.view) = some v ∧
    Agrees v (shown g)

/-- The log of a game: what its state keeps, and then the end. -/
structure Logged (g : FGame) : Prop where
  going : verdict g = none → g.events.emitted = recorded g.state
  ended : ∀ v, verdict g = some v → g.state.status = .ended ∧
    ∃ e, g.events.emitted = recorded g.state ++ [e] ∧ e.body = .gameEnded v

/-- A view the engine builds. -/
theorem Logged.replays {g : FGame} (h : Logged g) {victory : Option VictoryResult}
    (hvictory : ∀ v, victory = some v → verdict g = some v) :
    Replays (buildCounted g.state g.state.players.all victory) g := by
  cases hverdict : verdict g with
  | none =>
    obtain rfl : victory = none := Option.eq_none_iff_forall_ne_some.mpr fun v hv => by
      rw [hvictory v hv] at hverdict
      cases hverdict
    have hemitted := h.going hverdict
    refine ⟨by simp [buildCounted, hemitted], _, ?_, .of_eq (by rw [shown, hverdict])⟩
    simp [buildCounted, hemitted]
  | some v =>
    obtain ⟨hstatus, e, hemitted, hbody⟩ := h.ended v hverdict
    cases victory with
    | some v' =>
      obtain rfl : v = v' := Option.some.inj (hverdict.symm.trans (hvictory v' rfl))
      refine ⟨by simp [buildCounted, hemitted], _, ?_, .of_eq (by rw [shown, hverdict])⟩
      simp [buildCounted, hemitted]
    | none =>
      refine ⟨by simp [buildCounted, hemitted], buildView g.state g.state.players.all (some v), ?_,
        .of_eq (by rw [shown, hverdict])⟩
      have hdrop : g.events.emitted.drop (buildCounted g.state g.state.players.all none).events =
          [e] := by
        simp [buildCounted, hemitted]
      rw [hdrop]
      simp [applyEvent, busEvent, hbody, buildCounted, buildView, hstatus]

theorem Replays.grows {w : Counted} {g g' : FGame} {events : List FEvent} (h : Replays w g)
    (hemitted : g'.events.emitted = g.events.emitted ++ events)
    (hgrow : ∀ v, Agrees v (shown g) →
      ∃ v', (events.map busEvent).foldl applyEvent (some v) = some v' ∧ Agrees v' (shown g')) :
      Replays w g' := by
  obtain ⟨v, hv, hagrees⟩ := h.agrees
  obtain ⟨v', hv', hagrees'⟩ := hgrow v hagrees
  refine ⟨by rw [hemitted, List.length_append]; exact Nat.le_add_right_of_le h.le, v', ?_, hagrees'⟩
  rw [hemitted, List.drop_append_of_le_length h.le, List.map_append, List.foldl_append, hv, hv']

theorem stamp_told {evs : List FEvent} (h : ∀ e ∈ evs, e.privateTo = none) :
    ∀ n, ∀ e ∈ Game.stamp n evs, e.privateTo = none := by
  induction evs with
  | nil => exact fun n e he => nomatch he
  | cons e es ih =>
    intro n e' he'
    rcases List.mem_cons.mp he' with rfl | he'
    · exact h e List.mem_cons_self
    · exact ih (fun e he => h e (List.mem_cons_of_mem _ he)) (n + 1) e' he'

/-- What a command does to the log. -/
theorem command_logged {g g' : FGame} {a : FAction} {events : List FEvent} (hs : Sound g.state)
    (h : Logged g) (hnone : verdict g = none) (hv : frontierScenario.validate g.state a = .ok ())
    (hr : Game.respond frontierScenario g (.submit a) = (.submit a (.ok (.ok events)), g'))
    (hplayed : Played g events g') :
    Logged g' ∧ ∀ e ∈ events, e.privateTo = none := by
  obtain ⟨primary, s', hx, hact, hne, heff⟩ := acted_on hs hv
  have hquiet : primary.findSome? victoryOf = none := by
    rw [← Option.not_isSome_iff_eq_none, victoryOf_isSome, heff.quiet]
    simp
  have htold : ∀ e ∈ primary, e.privateTo = none := by
    rw [execute_eq] at hx
    exact (executePayload_told _ _ _ _ _ trivial hx).2
  have hverdict := hplayed.verdict hnone
  have hstep := Game.respond_step frontierScenario g (.submit a)
  rw [hr] at hstep
  have hrecorded : ∀ evs, recorded (Game.record a evs s') = recorded g.state ++ evs := by
    intro evs
    simp [recorded, Game.record, heff.history]
  cases hstep.outcome no_rules with
  | played _ hx' =>
    rw [hx] at hx'
    cases hx'
    rw [findSome?_victoryOf_stamp, hquiet] at hverdict
    refine ⟨⟨fun _ => ?_, fun v hv => ?_⟩, stamp_told htold _⟩
    · show g.events.emitted ++ Game.stamp g.events.nextSeq primary = recorded (Game.record a _ s')
      rw [hrecorded, h.going hnone]
    · rw [hverdict] at hv
      cases hv
  | @won _ _ _ victory _ hx' =>
    rw [hx] at hx'
    cases hx'
    rw [findSome?_victoryOf_stamp, List.findSome?_append, hquiet] at hverdict
    refine ⟨⟨fun hgoing => ?_, fun v hv => ⟨rfl, ?_⟩⟩, stamp_told ?_ _⟩
    · rw [hverdict] at hgoing
      cases hgoing
    · obtain rfl : victory = v := Option.some.inj (hverdict.symm.trans hv)
      refine ⟨{ body := .gameEnded victory, seq := some (g.events.nextSeq + primary.length) },
        ?_, rfl⟩
      show (g.events.emitted ++ Game.stamp g.events.nextSeq primary) ++ [_] =
          recorded (Game.record a _ s') ++ [_]
      rw [hrecorded, h.going hnone]
      rfl
    · intro e he
      rcases List.mem_append.mp he with he | he
      · exact htold e he
      · rw [List.mem_singleton.mp he]

/-! ## The replica -/

section Created

variable {gameId : String} {ps : List (PlayerId × String)} {g₀ : FGame} {ms : List FMoment}

/-- The replica holds the view, or is about to save or to publish it. -/
def Holds (r : CReplica) (w : Counted) : Prop :=
  r.store.memory.view = some w ∨ (∃ k, (.saveView w, k) ∈ r.store.writes) ∨
  .start w ∈ r.store.waiting

/-- A game, and the views the engine has made of it. -/
structure Serving (gameId : String) (ps : List (PlayerId × String)) (g₀ : FGame) (ms : List FMoment)
    (r : CReplica) :
    Prop where
  live : Live frontierScenario (startingOptions gameId ps) buildCounted g₀ ms r
  opening : Opening r
  roster : ∀ players, .create players ∈ r.store.waiting → players = gamePlayers ps
  truthful : ∀ k ∈ r.store.waiting, ∀ v, k.victory = some v → verdict r.inst.game = some v
  logged : Logged r.inst.game
  holds : ∀ w, Holds r w → Replays w r.inst.game

theorem players_reachable {calls : List FCall} {g : FGame}
    (h : Game.RunFrom frontierScenario (startingOptions gameId ps) calls g) :
    g.state.players = .new (gamePlayers ps) :=
  (frontier_inv (I := fun s => s.players = .new (gamePlayers ps)) (fun _ _ _ hI => hI)
    (fun _ _ _ _ _ hI heff => heff.players.trans hI) (fun _ hs => hs.players) h).2

theorem Serving.greets {r : CReplica} (h : Serving gameId ps g₀ ms r) : Greets buildCounted r := by
  intro players hin
  obtain rfl := h.roster players hin
  obtain ⟨_, hrun⟩ := h.live.tracked.run
  have hplayers : r.state.players.all = (gamePlayers ps).map fun p =>
      { p with status := some .active } := by
    have hnew : r.state.players = .new (gamePlayers ps) := players_reachable hrun
    rw [hnew, PlayerManager.new, gamePlayers_sorted]
    rfl
  rw [hplayers]
  exact congrArg (fun view => (⟨view, _⟩ : Counted)) (buildView_status _ _ _ _).symm

/-- A view the replica holds it has held before, or has just built. -/
theorem holds_turned {r r' : CReplica} {m : FMoment}
    (hturn : Turned frontierScenario buildCounted r m r') {w : Counted} (h : Holds r' w) :
    Holds r w ∨ (∃ victory, .save victory ∈ r.store.waiting ∧
      w = buildCounted r.state r.state.players.all victory) ∨
      ∃ players, .create players ∈ r.store.waiting ∧ w = buildCounted r.state players none := by
  have hnext :
      ∀ {k : Await Counted} {store : Channel FrontierExtras FrontierPayload FrontierEvent Counted},
      r.store.next = some (k, store) → k ∈ r.store.waiting ∧
        (store.memory.view = some w → Holds r w) ∧
        (∀ k', (.saveView w, k') ∈ store.writes → Holds r w) ∧
        (.start w ∈ store.waiting → Holds r w) := by
    intro k store hn
    obtain ⟨-, hwrites, hmemory⟩ := Outbox.next_cases hn
    have hwaiting := Outbox.next_waiting hn
    refine ⟨hwaiting ▸ List.mem_cons_self, fun hw => .inl (hmemory ▸ hw), fun k' hk' =>
      .inr (.inl ⟨k', hwrites ▸ hk'⟩), fun hw => .inr (.inr (hwaiting ▸ List.mem_cons_of_mem _ hw))⟩
  cases hturn with
  | played =>
    left
    rcases h with hw | ⟨k, hk⟩ | hw
    · exact .inl hw
    · exact .inr (.inl ⟨k, (List.mem_append.mp hk).resolve_right (by simp)⟩)
    · rw [Outbox.waiting_issue] at hw
      exact .inr (.inr ((List.mem_append.mp hw).resolve_right (by simp)))
  | silent => exact .inl h
  | completed hc =>
    obtain ⟨x, k, hwrites, hmemory, -⟩ := Outbox.complete_cases hc
    left
    rcases h with hw | ⟨k', hk'⟩ | hw
    · cases x with
      | save state => exact .inl ((congrArg GameStore.view hmemory).symm.trans hw)
      | saveView v =>
        obtain rfl : v = w := Option.some.inj ((congrArg GameStore.view hmemory).symm.trans hw)
        exact .inr (.inl ⟨k, hwrites ▸ List.mem_cons_self⟩)
    · exact .inr (.inl ⟨k', hwrites ▸ List.mem_cons_of_mem _ hk'⟩)
    · exact .inr (.inr ((Outbox.complete_same hc).1 ▸ hw))
  | @saved victory store hn =>
    obtain ⟨hin, hmemory, hwrites, hstart⟩ := hnext hn
    rcases h with hw | ⟨k', hk'⟩ | hw
    · exact .inl (hmemory hw)
    · rcases List.mem_append.mp hk' with hk' | hk'
      · exact .inl (hwrites k' hk')
      · cases List.mem_singleton.mp hk'
        exact .inr (.inl ⟨victory, hin, rfl⟩)
    · rw [Outbox.waiting_issue] at hw
      exact .inl (hstart ((List.mem_append.mp hw).resolve_right (by simp)))
  | viewed hn =>
    obtain ⟨-, hmemory, hwrites, hstart⟩ := hnext hn
    exact .inl (h.elim hmemory (Or.rec (fun ⟨k', hk'⟩ => hwrites k' hk') hstart))
  | @created players store hn =>
    obtain ⟨hin, hmemory, hwrites, hstart⟩ := hnext hn
    rcases h with hw | ⟨k', hk'⟩ | hw
    · exact .inl (hmemory hw)
    · rcases List.mem_append.mp hk' with hk' | hk'
      · exact .inl (hwrites k' hk')
      · cases List.mem_singleton.mp hk'
        exact .inr (.inr ⟨players, hin, rfl⟩)
    · rw [Outbox.waiting_issue] at hw
      rcases List.mem_append.mp hw with hw | hw
      · exact .inl (hstart hw)
      · cases List.mem_singleton.mp hw
        exact .inr (.inr ⟨players, hin, rfl⟩)
  | started hn =>
    obtain ⟨-, hmemory, hwrites, hstart⟩ := hnext hn
    exact .inl (h.elim hmemory (Or.rec (fun ⟨k', hk'⟩ => hwrites k' hk') hstart))

/-- What a step of the replica publishes, and the events among it. -/
structure Sends (r r' : CReplica) (new : List (GameBusEvent Counted FrontierEvent))
    (evs : List FEvent) : Prop where
  published : r'.published = r.published ++ new
  emitted : r'.inst.game.events.emitted = r.inst.game.events.emitted ++ evs
  events : new.filter GameBusEvent.isEvent = evs.map busEvent
  told : ∀ e ∈ evs, e.privateTo = none
  grows : ∀ w, Replays w r.inst.game → Replays w r'.inst.game
  snapshots : ∀ msg ∈ new, ∀ w, snapshot? msg = some w → Holds r w

/-- A step that leaves the game alone. -/
theorem Sends.silent {r r' : CReplica} {new : List (GameBusEvent Counted FrontierEvent)}
    (hpublished : r'.published = r.published ++ new) (hgame : r'.inst.game = r.inst.game)
    (hevents : new.filter GameBusEvent.isEvent = [])
    (hsnapshots : ∀ msg ∈ new, ∀ w, snapshot? msg = some w → Holds r w) : Sends r r' new [] :=
  { published := hpublished
    emitted := by rw [hgame, List.append_nil]
    events := hevents
    told := by simp
    grows := by rw [hgame]; exact fun _ h => h
    snapshots := hsnapshots }

theorem Serving.sends (hid : (ps.map Prod.fst).Nodup) {r r' : CReplica} {m : FMoment}
    (h : Serving gameId ps g₀ ms r) (hturn : Turned frontierScenario buildCounted r m r')
    (hm : Replayable (r.mapView Counted.view) m) :
    ∃ new evs, Sends r r' new evs ∧
      (evs = [] ∨ ∃ a res, m = .called (.submit a res) ∧ accepts r.inst.game a = true) ∧
      Logged r'.inst.game := by
  cases hturn with
  | @played a events g' hvalid hgoing hr hplayed =>
    obtain ⟨_, hrun⟩ := h.live.tracked.run
    obtain ⟨hs, hseated⟩ := kept_reachable hid hrun
    have haccepted : accepts r.inst.game a = true := Game.accepts_iff.mpr hvalid
    obtain ⟨-, hflag⟩ := hm haccepted
    have hnone := h.live.tracked.going hgoing
    obtain ⟨hlogged, htold⟩ := command_logged hs h.logged hnone hvalid hr hplayed
    have hemitted : g'.events.emitted = r.inst.game.events.emitted ++ events := by rw [hplayed.log]
    refine ⟨events.map busEvent, events,
      ⟨rfl, hemitted, filter_busEvent events, htold, fun w hw => ?_, fun msg hmsg w hw => ?_⟩,
      .inr ⟨a, _, rfl, haccepted⟩, hlogged⟩
    · exact hw.grows hemitted fun v hv =>
        command_replays hs hseated hnone hflag hvalid hr hplayed hv
    · rw [busEvent_plain events msg hmsg] at hw
      cases hw
  | @silent _ errors _ herrors =>
    refine ⟨errors, [], .silent rfl rfl (filter_errors herrors) fun msg hmsg w hw => ?_,
      .inl rfl, h.logged⟩
    obtain ⟨error, herror⟩ := herrors msg hmsg
    simp [snapshot?, herror] at hw
  | completed =>
    exact ⟨[], [], .silent (List.append_nil _).symm rfl rfl (by simp), .inl rfl, h.logged⟩
  | saved => exact ⟨[], [], .silent (List.append_nil _).symm rfl rfl (by simp), .inl rfl, h.logged⟩
  | viewed => exact ⟨[], [], .silent (List.append_nil _).symm rfl rfl (by simp), .inl rfl, h.logged⟩
  | created =>
    exact ⟨[], [], .silent (List.append_nil _).symm rfl rfl (by simp), .inl rfl, h.logged⟩
  | @started view store hn =>
    refine ⟨[_], [], .silent rfl rfl rfl fun msg hmsg w hw => ?_, .inl rfl, h.logged⟩
    rw [List.mem_singleton.mp hmsg] at hw
    cases hw
    refine .inr (.inr ?_)
    rw [Outbox.next_waiting hn]
    exact List.mem_cons_self

/-- What a handler has found is the result of the game. -/
theorem Serving.truthful_turned {r r' : CReplica} {m : FMoment} (h : Serving gameId ps g₀ ms r)
    (hturn : Turned frontierScenario buildCounted r m r') {k : Await Counted}
    (hk : k ∈ r'.store.waiting) {v : VictoryResult} (hv : k.victory = some v) :
    verdict r'.inst.game = some v := by
  have hrest :
      ∀ {k' : Await Counted} {store : Channel FrontierExtras FrontierPayload FrontierEvent Counted},
      r.store.next = some (k', store) → k ∈ store.waiting → verdict r.inst.game = some v :=
    fun hn hin => h.truthful k ((Outbox.next_waiting hn) ▸ List.mem_cons_of_mem _ hin) v hv
  cases hturn with
  | played _ hgoing _ hplayed =>
    rw [Outbox.waiting_issue] at hk
    rcases List.mem_append.mp hk with hk | hk
    · exact absurd (h.live.stored.ended k hk (by rw [hv]; simp)) hgoing
    · rw [List.mem_singleton.mp hk] at hv
      exact (hplayed.verdict (h.live.tracked.going hgoing)).trans hv
  | silent => exact h.truthful k hk v hv
  | completed hc => exact h.truthful k ((Outbox.complete_same hc).1 ▸ hk) v hv
  | @saved victory store hn =>
    rw [Outbox.waiting_issue] at hk
    rcases List.mem_append.mp hk with hk | hk
    · exact hrest hn hk
    · rw [List.mem_singleton.mp hk] at hv
      exact h.truthful (.save victory)
        (by rw [Outbox.next_waiting hn]; exact List.mem_cons_self) v hv
  | viewed hn => exact hrest hn hk
  | created hn =>
    rw [Outbox.waiting_issue] at hk
    rcases List.mem_append.mp hk with hk | hk
    · exact hrest hn hk
    · rw [List.mem_singleton.mp hk] at hv
      cases hv
  | started hn => exact hrest hn hk

/-- **Every view the engine has made grows into the present one.** -/
theorem Serving.step (hid : (ps.map Prod.fst).Nodup) {r r' : CReplica} {m : FMoment}
    (h : Serving gameId ps g₀ ms r) (hstep : Replica.Step frontierScenario buildCounted r m r')
    (hm : Replayable (r.mapView Counted.view) m) :
    Serving gameId ps g₀ (ms ++ [m]) r' ∧ ∃ new evs, Sends r r' new evs ∧
      (evs = [] ∨ ∃ a res, m = .called (.submit a res) ∧ accepts r.inst.game a = true) := by
  have hturn := turned_step (plays_frontier hid) h.live hstep fun a res hlabel hvalid => by
    rw [hlabel] at hm
    exact (hm (Game.accepts_iff.mpr hvalid)).1
  obtain ⟨new, evs, hsends, hevs, hlogged⟩ := h.sends hid hturn hm
  refine ⟨?_, new, evs, hsends, hevs⟩
  exact
    { live := hturn.live h.live h.greets
      opening := h.opening.noticed (noticed_step hstep)
      roster := fun players hin => by
        rcases hturn.waiting hin with hin | ⟨_, hk⟩ | ⟨_, hk⟩ | ⟨_, hk, _⟩
        · exact h.roster players hin
        all_goals cases hk
      truthful := fun k hk v hv => h.truthful_turned hturn hk hv
      logged := hlogged
      holds := fun w hw => by
        refine hsends.grows w ?_
        rcases holds_turned hturn hw with hw | ⟨victory, hin, rfl⟩ | ⟨players, hin, rfl⟩
        · exact h.holds w hw
        · exact h.logged.replays fun v hv => h.truthful (.save victory) hin v hv
        · have hgreets : buildCounted r.state players none =
              buildCounted r.state r.state.players.all none :=
            h.greets players hin
          rw [hgreets]
          exact h.logged.replays nofun }

end Created

/-! ## The page -/

/-- The events on their way to the page. -/
def undelivered (s : CSession) : List (GameBusEvent Counted FrontierEvent) :=
  s.inbox.filter GameBusEvent.isEvent

/-- The view shows the events that are not on their way, and no others. -/
def Complete (s : CSession) (w : Counted) : Prop :=
  w.events + (undelivered s).length = (s.replica.published.filter GameBusEvent.isEvent).length

instance (s : CSession) (w : Counted) : Decidable (Complete s w) :=
  inferInstanceAs (Decidable (_ = _))

/-- An answer that brings a view. -/
def Fetch.found {V : Type} : Fetch V → Bool
  | .read (some _) => true
  | _ => false

/-- A view the page takes is complete; no event passes a page that has a view, but has not
subscribed; and `game-started` passes only a page that has a view, or will have one from its
fetch. -/
def Fitting (s : CSession) : FHappening → Prop
  | .engine (.called (.submit a res)) =>
    Replayable (s.replica.mapView Counted.view) (.called (.submit a res)) ∧
      (accepts s.replica.inst.game a = true → s.subscribed = true ∨ s.view = none)
  | .engine .resumed =>
    match s.replica.store.next with
    | some (.start _, _) =>
      s.subscribed = true ∨ s.view ≠ none ∨ .sent ∈ s.fetches ∨ ∃ f ∈ s.fetches, f.found = true
    | _ => True
  | .delivered =>
    match s.inbox with
    | msg :: _ => ∀ w ∈ snapshot? msg, Complete s w
    | [] => True
  | .answered i =>
    match s.fetches[i]? with
    | some (.read (some w)) => s.view = none → Complete s w
    | _ => True
  | _ => True

instance (s : CSession) (l : FHappening) : Decidable (Fitting s l) := by
  unfold Fitting
  split
  · infer_instance
  · split <;> infer_instance
  · split <;> infer_instance
  · split <;> infer_instance
  · infer_instance

/-- A view may still come. -/
def Coming (s : CSession) : Prop :=
  .sent ∈ s.fetches ∨ (∃ w, .read (some w) ∈ s.fetches) ∨
    (∃ msg ∈ s.inbox, (snapshot? msg).isSome = true) ∨
    Launching s.replica

structure Following (s : CSession) : Prop where
  fetched : ∀ w, .read (some w) ∈ s.fetches → Replays w s.replica.inst.game
  sent : ∀ msg ∈ s.inbox, ∀ w, snapshot? msg = some w → Replays w s.replica.inst.game
  inbox : ∃ k, k ≤ s.replica.inst.game.events.emitted.length ∧
    undelivered s = (s.replica.inst.game.events.emitted.drop k).map busEvent
  unsubscribed : s.subscribed = false → s.inbox = []
  view : ∀ w, s.view = some w → Replays w s.replica.inst.game ∧
    w.events + (undelivered s).length = s.replica.inst.game.events.emitted.length
  blank : s.view = none → Coming s

theorem follow_sends {user : PlayerId} {s : CSession} {r : CReplica}
    {new : List (GameBusEvent Counted FrontierEvent)} {evs : List FEvent}
    (h : Sends s.replica r new evs) (hsubscribed : s.subscribed = true) :
    (s.follow user r).inbox = s.inbox ++ new.filter (Session.addressed user) ∧
      undelivered (s.follow user r) = undelivered s ++ evs.map busEvent := by
  have hinbox : (s.follow user r).inbox = s.inbox ++ new.filter (Session.addressed user) := by
    simp [Session.follow, hsubscribed, h.published]
  have htold : ∀ msg ∈ evs.map (busEvent (V := Counted)), Session.addressed user msg = true := by
    intro msg hmsg
    obtain ⟨e, he, rfl⟩ := List.mem_map.mp hmsg
    simp [Session.addressed, Realtime.Gateway.privateTo, busEvent, h.told e he]
  refine ⟨hinbox, ?_⟩
  rw [undelivered, hinbox, List.filter_append, List.filter_comm, h.events,
    List.filter_eq_self.mpr htold, undelivered]

theorem Coming.mono {s s' : CSession} (h : Coming s) (hfetches : ∀ f ∈ s.fetches, f ∈ s'.fetches)
    (hinbox : ∀ msg ∈ s.inbox, msg ∈ s'.inbox) (hlaunching : Launching s.replica → Coming s') :
    Coming s' := by
  rcases h with h | ⟨w, h⟩ | ⟨msg, hmsg, h⟩ | h
  · exact .inl (hfetches _ h)
  · exact .inr (.inl ⟨w, hfetches _ h⟩)
  · exact .inr (.inr (.inl ⟨msg, hinbox _ hmsg, h⟩))
  · exact hlaunching h

/-- **A step of the replica.** -/
theorem Following.engine {user : PlayerId} {s : CSession} {r : CReplica} {m : FMoment}
    {new : List (GameBusEvent Counted FrontierEvent)} {evs : List FEvent} (h : Following s)
    (hholds : ∀ w, Holds s.replica w → Replays w s.replica.inst.game)
    (hsends : Sends s.replica r new evs) (hnoticed : Noticed s.replica m r)
    (hpassed : evs = [] ∨ s.subscribed = true ∨ s.view = none) (hm : Fitting s (.engine m)) :
    Following (s.follow user r) := by
  have hlength : r.inst.game.events.emitted.length =
      s.replica.inst.game.events.emitted.length + evs.length := by
    rw [hsends.emitted, List.length_append]
  have hpassing : ∀ {P : Prop}, (s.subscribed = true → P) →
      (s.subscribed = false → (s.follow user r).inbox = s.inbox → s.inbox = [] → P) → P := by
    intro P hsub hunsub
    cases hs : s.subscribed with
    | true => exact hsub hs
    | false => exact hunsub hs (Session.follow_unchanged (.inl hs)) (h.unsubscribed hs)
  constructor
  · exact fun w hw => hsends.grows w (h.fetched w hw)
  · intro msg hmsg w hw
    refine hsends.grows w (hpassing (fun hsub => ?_) fun _ hinbox hnil => ?_)
    · rw [(follow_sends hsends hsub).1] at hmsg
      rcases List.mem_append.mp hmsg with hmsg | hmsg
      · exact h.sent msg hmsg w hw
      · exact hholds w (hsends.snapshots msg (List.mem_of_mem_filter hmsg) w hw)
    · rw [hinbox, hnil] at hmsg
      cases hmsg
  · refine hpassing (fun hsub => ?_) fun _ hinbox hnil => ?_
    · obtain ⟨k, hk, hevents⟩ := h.inbox
      refine ⟨k, hlength ▸ Nat.le_add_right_of_le hk, ?_⟩
      show _ = (r.inst.game.events.emitted.drop k).map busEvent
      rw [(follow_sends hsends hsub).2, hevents, hsends.emitted, List.drop_append_of_le_length hk,
        List.map_append]
    · refine ⟨_, le_rfl, ?_⟩
      rw [undelivered, hinbox, hnil, List.drop_length]
      rfl
  · intro hsub
    have hbefore : s.subscribed = false := hsub
    rw [Session.follow_unchanged (.inl hbefore)]
    exact h.unsubscribed hbefore
  · intro w hw
    obtain ⟨hreplays, hcount⟩ := h.view w hw
    refine ⟨hsends.grows w hreplays, ?_⟩
    show _ = r.inst.game.events.emitted.length
    rw [hlength, ← hcount]
    refine hpassing (fun hsub => ?_) fun hunsub hinbox hnil => ?_
    · rw [(follow_sends hsends hsub).2, List.length_append, List.length_map, Nat.add_assoc]
    · have hnone : evs = [] := by
        rcases hpassed with hnone | hsub | hview
        · exact hnone
        · rw [hunsub] at hsub
          cases hsub
        · have hsome : s.view = some w := hw
          rw [hview] at hsome
          cases hsome
      rw [undelivered, hinbox, hnone, undelivered]
      rfl
  · intro hview
    refine (h.blank hview).mono (fun _ hf => hf) Session.follow_inbox fun hlaunching => ?_
    rcases hlaunching.noticed hnoticed with hlaunching | ⟨w, store, rfl, hn, rfl⟩
    · exact .inr (.inr (.inr hlaunching))
    · simp only [Fitting, hn] at hm
      rcases hm with hsub | hsome | hsent | ⟨f, hf, hfound⟩
      · refine .inr
          (.inr (.inl ⟨{ seq := 0, type := "game-started", payload := .started w }, ?_, rfl⟩))
        simp [Session.follow, hsub, Replica.publish, Session.addressed, Realtime.Gateway.privateTo]
      · exact absurd hview hsome
      · exact .inl hsent
      · obtain ⟨w', rfl⟩ : ∃ w', f = .read (some w') := by
          cases f with
          | sent => cases hfound
          | read snapshot =>
            cases snapshot with
            | none => cases hfound
            | some w' => exact ⟨w', rfl⟩
        exact .inr (.inl ⟨w', hf⟩)

/-- The page takes the view of a `game-started` message. -/
theorem receive_started {s : CSession} {msg : GameBusEvent Counted FrontierEvent} {w : Counted}
    (h : msg.payload = .started w) : s.receive useGameCounted msg = { s with view := some w } := by
  simp [Session.receive, useGameCounted, applyEvent, GameBusEvent.mapView, counted, h]

theorem receive_error {s : CSession} {msg : GameBusEvent Counted FrontierEvent}
    {error : ActionError} (h : msg.payload = .error error) : s.receive useGameCounted msg = s := by
  obtain ⟨replica, subscribed, inbox, fetches, view⟩ := s
  cases view <;> simp [Session.receive, useGameCounted, applyEvent, GameBusEvent.mapView,
    counted, h]

/-- It counts the events it applies. -/
theorem receive_event {s : CSession} (e : FEvent) :
    ∃ view, s.receive useGameCounted (busEvent e) = { s with view } ∧
      (s.view = none → view = none) ∧
      ∀ w, s.view = some w → ∃ v, applyEvent (some w.view) (busEvent e) = some v ∧
        view = some ⟨v, w.events + 1⟩ := by
  refine ⟨_, rfl, fun hview => ?_, fun w hview => ?_⟩
  · simp only [useGameCounted, hview]
    rfl
  · refine ⟨_, rfl, ?_⟩
    simp only [useGameCounted, hview]
    rfl

theorem Coming.rest {s : CSession} {msg : GameBusEvent Counted FrontierEvent}
    {inbox : List (GameBusEvent Counted FrontierEvent)} (h : Coming s)
    (hinbox : s.inbox = msg :: inbox) (hmsg : snapshot? msg = none) : Coming { s with inbox } := by
  rcases h with h | h | ⟨msg', hmsg', h⟩ | h
  · exact .inl h
  · exact .inr (.inl h)
  · rw [hinbox] at hmsg'
    rcases List.mem_cons.mp hmsg' with rfl | hmsg'
    · rw [hmsg] at h
      cases h
    · exact .inr (.inr (.inl ⟨msg', hmsg', h⟩))
  · exact .inr (.inr (.inr h))

/-- **A message arrives.** -/
theorem Following.delivered {s : CSession} {msg : GameBusEvent Counted FrontierEvent}
    {inbox : List (GameBusEvent Counted FrontierEvent)} (h : Following s)
    (hposted : (s.replica.published.filter GameBusEvent.isEvent).length =
      s.replica.inst.game.events.emitted.length)
    (hinbox : s.inbox = msg :: inbox) (hm : Fitting s .delivered) :
    Following ({ s with inbox }.receive useGameCounted msg) := by
  have hsent : ∀ msg' ∈ inbox, ∀ w, snapshot? msg' = some w → Replays w s.replica.inst.game :=
    fun msg' hmsg' => h.sent msg' (hinbox ▸ List.mem_cons_of_mem _ hmsg')
  have hunsubscribed : s.subscribed = false → inbox = [] := by
    intro hsub
    rw [h.unsubscribed hsub] at hinbox
    cases hinbox
  obtain ⟨k, hk, hevents⟩ := h.inbox
  cases hpayload : msg.payload with
  | started w =>
    rw [receive_started hpayload]
    have hsnapshot : snapshot? msg = some w := by rw [snapshot?, hpayload]
    have hsame : undelivered s = inbox.filter GameBusEvent.isEvent := by
      rw [undelivered, hinbox, List.filter_cons_of_neg (by simp [GameBusEvent.isEvent, hpayload])]
    simp only [Fitting, hinbox] at hm
    refine ⟨h.fetched, hsent, ⟨k, hk, hsame.symm.trans hevents⟩, hunsubscribed, fun w' hw' => ?_,
      fun hno => by cases hno⟩
    cases hw'
    refine ⟨h.sent msg (by rw [hinbox]; exact List.mem_cons_self) w hsnapshot, ?_⟩
    have hcomplete := hm w hsnapshot
    rw [Complete, hposted, hsame] at hcomplete
    exact hcomplete
  | error error =>
    rw [receive_error hpayload]
    have hsame : undelivered s = inbox.filter GameBusEvent.isEvent := by
      rw [undelivered, hinbox, List.filter_cons_of_neg (by simp [GameBusEvent.isEvent, hpayload])]
    refine ⟨h.fetched, hsent, ⟨k, hk, hsame.symm.trans hevents⟩, hunsubscribed, fun w hw => ?_,
      fun hview => ?_⟩
    · obtain ⟨hreplays, hcount⟩ := h.view w hw
      rw [hsame] at hcount
      exact ⟨hreplays, hcount⟩
    · exact (h.blank hview).rest hinbox (by rw [snapshot?, hpayload])
  | event body =>
    rw [undelivered, hinbox, List.filter_cons_of_pos
      (by simp [GameBusEvent.isEvent, hpayload])] at hevents
    obtain ⟨e, tail, hdrop, rfl, htail⟩ := List.map_eq_cons_iff.mp hevents.symm
    have hrest : s.replica.inst.game.events.emitted.drop (k + 1) = tail := by
      rw [← List.tail_drop, hdrop, List.tail_cons]
    have hlength : s.replica.inst.game.events.emitted.length = k + 1 + tail.length := by
      have hsplit := congrArg List.length hdrop
      rw [List.length_drop, List.length_cons] at hsplit
      omega
    obtain ⟨view, hreceive, hnone, hsome⟩ := receive_event (s := { s with inbox }) e
    rw [hreceive]
    have hundelivered : (undelivered s).length = tail.length + 1 := by
      rw [undelivered, hinbox, List.filter_cons_of_pos (by simp [GameBusEvent.isEvent, hpayload]),
        List.length_cons, ← htail, List.length_map]
    refine ⟨h.fetched, hsent, ⟨k + 1, hlength ▸ Nat.le_add_right _ _, ?_⟩, hunsubscribed,
      fun w' hw' => ?_, fun hview => ?_⟩
    · rw [hrest]
      exact htail.symm
    · cases hview : s.view with
      | none =>
        rw [hnone hview] at hw'
        cases hw'
      | some w =>
        obtain ⟨⟨-, v', hfold, hagrees⟩, hcount⟩ := h.view w hview
        obtain ⟨v, happly, rfl⟩ := hsome w hview
        cases hw'
        obtain rfl : w.events = k := by omega
        rw [hdrop, List.map_cons, List.foldl_cons, happly] at hfold
        refine ⟨⟨hlength ▸ Nat.le_add_right _ _, v', ?_, hagrees⟩, ?_⟩
        · show ((s.replica.inst.game.events.emitted.drop (w.events + 1)).map busEvent).foldl
            applyEvent (some v) = some v'
          rw [hrest]
          exact hfold
        · show w.events + 1 + (inbox.filter GameBusEvent.isEvent).length =
            s.replica.inst.game.events.emitted.length
          rw [← htail, List.length_map]
          omega
    · refine (h.blank ?_).rest hinbox (by rw [snapshot?, hpayload])
      cases hview' : s.view with
      | none => rfl
      | some w =>
        obtain ⟨v, -, hv⟩ := hsome w hview'
        have hnone' : view = none := hview
        rw [hv] at hnone'
        cases hnone'

/-- **The page sends a fetch to the store.** -/
theorem Following.read {s : CSession} {i : Nat} (h : Following s) (hopening : Opening s.replica)
    (hholds : ∀ w, Holds s.replica w → Replays w s.replica.inst.game)
    (hi : s.fetches[i]? = some .sent) :
    Following { s with fetches := s.fetches.set i (.read s.replica.store.memory.view) } := by
  refine { h with fetched := fun w hw => ?_, blank := fun _ => ?_ }
  · rcases List.mem_or_eq_of_mem_set hw with hw | hw
    · exact h.fetched w hw
    · exact hholds w (.inl (Fetch.read.inj hw).symm)
  · cases hview : s.replica.store.memory.view with
    | none => exact .inr (.inr (.inr (hopening.launching hview)))
    | some w => exact .inr (.inl ⟨w, List.mem_set (List.getElem?_eq_some_iff.mp hi).1 _⟩)

/-- **A fetch is answered.** -/
theorem Following.answered {s : CSession} {i : Nat} {snapshot : Option Counted} (h : Following s)
    (hposted : (s.replica.published.filter GameBusEvent.isEvent).length =
      s.replica.inst.game.events.emitted.length)
    (hi : s.fetches[i]? = some (.read snapshot)) (hm : Fitting s (.answered i)) :
    Following ({ s with fetches := s.fetches.eraseIdx i }.answer useGameCounted snapshot) := by
  have hfetched : ∀ w, .read (some w) ∈ s.fetches.eraseIdx i → Replays w s.replica.inst.game :=
    fun w hw => h.fetched w (List.mem_of_mem_eraseIdx hw)
  cases snapshot with
  | none =>
    refine { h with fetched := hfetched, blank := fun hview => ?_ }
    rcases h.blank hview with hc | ⟨w, hc⟩ | hc
    · exact .inl (mem_eraseIdx_of_ne hi hc nofun)
    · exact .inr (.inl ⟨w, mem_eraseIdx_of_ne hi hc (by simp)⟩)
    · exact .inr (.inr hc)
  | some w =>
    simp only [Fitting, hi] at hm
    refine { h with fetched := hfetched, view := fun w' hw' => ?_, blank := nofun }
    have hkept : s.view.getD w = w' := Option.some.inj hw'
    cases hview : s.view with
    | none =>
      obtain rfl : w = w' := by rw [← hkept, hview]; rfl
      refine ⟨h.fetched w (List.mem_of_getElem? hi), ?_⟩
      have hcomplete := hm hview
      rw [Complete, hposted] at hcomplete
      exact hcomplete
    | some v =>
      obtain rfl : v = w' := by rw [← hkept, hview]; rfl
      exact h.view v hview

/-! ## Runs -/

section Runs

variable {gameId : String} {ps : List (PlayerId × String)} {user : PlayerId}

/-- A step that fits. -/
theorem following_step (hid : (ps.map Prod.fst).Nodup) {g₀ : FGame} {ms : List FMoment}
    {s s' : CSession} {l : FHappening} (hserving : Serving gameId ps g₀ ms s.replica)
    (h : Following s)
    (hstep : Session.Step frontierScenario buildCounted useGameCounted user s l s')
    (hm : Fitting s l) :
    (∃ ms', Serving gameId ps g₀ ms' s'.replica) ∧ Following s' := by
  have hposted : (s.replica.published.filter GameBusEvent.isEvent).length =
      s.replica.inst.game.events.emitted.length := by
    rw [hserving.live.posted.events, List.length_map]
  cases hstep with
  | @engine m r hturn =>
    have hreplayable : Replayable (s.replica.mapView Counted.view) m := by
      match m, hm with
      | .called (.submit a res), hm => exact hm.1
      | .called .start, _ => trivial
      | .absent, _ => trivial
      | .completed, _ => trivial
      | .resumed, _ => trivial
    obtain ⟨hserving', new, evs, hsends, hevs⟩ := hserving.step hid hturn hreplayable
    refine ⟨⟨_, hserving'⟩, h.engine hserving.holds hsends (noticed_step hturn) ?_ hm⟩
    rcases hevs with hevs | ⟨a, res, rfl, haccepted⟩
    · exact .inl hevs
    · exact .inr (hm.2 haccepted)
  | subscribed => exact ⟨⟨ms, hserving⟩, { h with unsubscribed := nofun }⟩
  | delivered hinbox => exact ⟨⟨ms, hserving⟩, h.delivered hposted hinbox hm⟩
  | read hi => exact ⟨⟨ms, hserving⟩, h.read hserving.opening hserving.holds hi⟩
  | @answered i snapshot hi =>
    have hfollowing := h.answered hposted hi hm
    cases snapshot with
    | none => exact ⟨⟨ms, hserving⟩, hfollowing⟩
    | some w => exact ⟨⟨ms, hserving⟩, hfollowing⟩

theorem serving_opened {r₀ : CReplica}
    (hr : Replica.openGame frontierScenario (startingOptions gameId ps) = .ok r₀) :
    Serving gameId ps r₀.inst.game [] r₀ := by
  have hlive : Live frontierScenario (startingOptions gameId ps) buildCounted r₀.inst.game [] r₀ :=
    live_opened hr fun s hs => (fresh_state hs).status
  have hopening := (opening_opened hr).1
  cases hs : createGameState frontierScenario (startingOptions gameId ps) with
  | error e => simp [Replica.openGame, hs, Except.map] at hr
  | ok s =>
    simp only [Replica.openGame, hs, Except.map, Except.ok.injEq] at hr
    subst hr
    obtain ⟨-, hevents⟩ := start_fresh (fresh_state hs).status
    have hverdict : verdict (Game.new s).start = none := by rw [verdict, hevents]; rfl
    have hhistory : (Game.new s).start.state.history = [] := by
      have hstart : (Game.new s).start.state.history = s.history := by
        unfold Game.start
        split <;> rfl
      rw [hstart, (fresh_state hs).history]
    refine
      { live := hlive
        opening := hopening
        roster := fun players hin => ?_
        truthful := fun k hk v hv => ?_
        logged := ⟨fun _ => ?_, fun v hv => ?_⟩
        holds := fun w hw => ?_ }
    · cases List.mem_singleton.mp hin
      rfl
    · rw [List.mem_singleton.mp hk] at hv
      cases hv
    · show (Game.new s).start.events.emitted = recorded (Game.new s).start.state
      rw [hevents, recorded, hhistory]
      rfl
    · rw [hverdict] at hv
      cases hv
    · rcases hw with hw | ⟨k, hk⟩ | hw
      · cases hw
      · cases List.mem_singleton.mp hk
      · cases List.mem_singleton.mp hw

theorem following_joined (r : CReplica) : Following { replica := r } := by
  refine ⟨?_, ?_, ⟨_, le_rfl, ?_⟩, fun _ => rfl, ?_, fun _ => .inl List.mem_cons_self⟩
  · intro w hw
    cases List.mem_singleton.mp hw
  · intro msg hmsg
    cases hmsg
  · rw [List.drop_length]
    rfl
  · intro w hw
    cases hw

/-- **The page bootstraps.** Over every run of a Frontier game and a page, from the creation of the
game and however their steps are interleaved: if every step fits, then once nothing is in flight the
page has applied every event once, and its view agrees with the view the engine has saved last. -/
theorem view_bootstraps (hid : (ps.map Prod.fst).Nodup) {r₀ : CReplica}
    (hr : Replica.openGame frontierScenario (startingOptions gameId ps) = .ok r₀)
    {cs : List (Record CSession FHappening)} {c : CSession}
    (h : Trace (Recorded (Session.Step frontierScenario buildCounted useGameCounted user))
      { replica := r₀ } cs c)
    (hcs : ∀ rec ∈ cs, Fitting rec.before rec.label) (hquiet : c.Quiet) :
    ∃ v w, c.view = some v ∧ c.replica.store.memory.view = some w ∧ Agrees v.view w.view ∧
      v.events = (c.replica.published.filter GameBusEvent.isEvent).length := by
  have hrun : (∃ ms, Serving gameId ps r₀.inst.game ms c.replica) ∧ Following c := by
    refine (h.restrict hcs).inv
      (I := fun s => (∃ ms, Serving gameId ps r₀.inst.game ms s.replica) ∧ Following s) ?_
      ⟨⟨[], serving_opened hr⟩, following_joined r₀⟩
    · rintro s rec t ⟨⟨ms, hserving⟩, hfollowing⟩ hrec
      obtain ⟨rfl, rfl, hstep⟩ := Recorded.step_of hrec.1
      exact following_step hid hserving hfollowing hstep hrec.2
  obtain ⟨⟨ms, hserving⟩, hfollowing⟩ := hrun
  have hwaiting : c.replica.store.waiting = [] := hquiet.idle
  cases hview : c.view with
  | none =>
    rcases hfollowing.blank hview with hc | ⟨w, hc⟩ | ⟨msg, hmsg, -⟩ | ⟨_, hc⟩ | ⟨_, hc⟩
    · rw [hquiet.fetches] at hc
      cases hc
    · rw [hquiet.fetches] at hc
      cases hc
    · rw [hquiet.inbox] at hmsg
      cases hmsg
    · rw [hwaiting] at hc
      cases hc
    · rw [hwaiting] at hc
      cases hc
  | some v =>
    obtain ⟨⟨-, v', hfold, hagrees⟩, hcount⟩ := hfollowing.view v hview
    have hnone : undelivered c = [] := by rw [undelivered, hquiet.inbox]; rfl
    rw [hnone, List.length_nil, Nat.add_zero] at hcount
    rw [hcount, List.drop_length, List.map_nil, List.foldl_nil, Option.some.injEq] at hfold
    have hsaving : saving c.replica.store = [] := by rw [saving, hwaiting, List.filterMap_nil]
    have hsaved := hserving.live.stored.view hsaving
    rw [eventual, Outbox.eventual_of_idle hquiet.idle] at hsaved
    refine ⟨v, _, rfl, hsaved, ?_, ?_⟩
    · rw [hfold]
      exact hagrees
    · rw [hcount, hserving.live.posted.events, List.length_map]

/-- Every run of the page has its count. -/
theorem run_counted {r₀ : FReplica}
    (hr : Replica.openGame frontierScenario (startingOptions gameId ps) = .ok r₀)
    {ls : List FHappening} {s : Session FrontierExtras FrontierPayload FrontierEvent DemoView} :
    Trace (Session.Step frontierScenario buildView useGame user) { replica := r₀ } ls s ↔
      ∃ c₀ c, Replica.openGame frontierScenario (startingOptions gameId ps) = .ok c₀ ∧
        Trace (Session.Step frontierScenario buildCounted useGameCounted user)
          { replica := c₀ } ls c ∧
        c.mapView Counted.view = s := by
  have hopen := openGame_mapView Counted.view frontierScenario (startingOptions gameId ps)
  have hsame : ∀ c₀ : CReplica, Session.mapView Counted.view { replica := c₀ } =
      { replica := c₀.mapView Counted.view } := fun _ => rfl
  rw [hr] at hopen
  constructor
  · intro h
    cases hc : (Replica.openGame frontierScenario (startingOptions gameId ps)
      : Except JsError CReplica) with
    | error e =>
      rw [hc] at hopen
      cases hopen
    | ok c₀ =>
      rw [hc, Except.map, Except.ok.injEq] at hopen
      obtain ⟨c, htrace, hs⟩ := Session.trace_lifts buildCounted_view useGame_sees h
        ((hsame c₀).trans (by rw [hopen]))
      exact ⟨c₀, c, rfl, htrace, hs⟩
  · rintro ⟨c₀, c, hc, htrace, rfl⟩
    rw [hc, Except.map, Except.ok.injEq] at hopen
    have h := Session.trace_mapView buildCounted_view useGame_sees htrace
    rwa [hsame, hopen] at h

end Runs

/-! ## One claim -/

/-- Both writes of a handler, or of `createGame`, and what it does after each. -/
def finishing : List (Cue FrontierPayload) :=
  [.engine .complete, .engine .resume, .engine .complete, .engine .resume]

def claiming : List (Cue FrontierPayload) := [.engine (.command ⟨"p1", .claimTile "2,-1", none⟩)]

/-- The page fetches before the claim and is sent its event. -/
theorem view_bootstraps_claim :
    ∃ r₀ cs c, Replica.openGame frontierScenario (startingOptions "s8" table) = .ok r₀ ∧
    Trace (Recorded (Session.Step frontierScenario buildCounted useGameCounted "p1"))
      { replica := r₀ } cs c ∧
    cs.length = 13 ∧ ∃ v w, c.view = some v ∧ c.replica.store.memory.view = some w ∧
      Agrees v.view w.view ∧
      v.events = (c.replica.published.filter GameBusEvent.isEvent).length := by
  have hobserved : (Replica.openGame frontierScenario (startingOptions "s8" table)).toOption.bind
      (fun r₀ =>
      (film (Session.turn frontierScenario buildCounted useGameCounted "p1") { replica := r₀ }
          (finishing ++ [.read 0, .subscribe] ++ claiming ++ [.answer 0, .deliver] ++
            finishing)).map fun m =>
        (decide (∀ rec ∈ m.1, Fitting rec.before rec.label), m.1.length,
          m.2.replica.store.waiting.length,
          m.2.inbox.length, m.2.fetches.length)) = some (true, 13, 0, 0, 0) := by decide +kernel
  obtain ⟨r₀, cs, c, hr, htrace, hx⟩ := film_observed Session.turn_step hobserved
  simp only [Prod.mk.injEq, decide_eq_true_eq, List.length_eq_zero_iff] at hx
  obtain ⟨hfits, hlen, hidle, hinbox, hfetches⟩ := hx
  exact ⟨r₀, cs, c, hr, htrace, hlen, view_bootstraps (by decide) hr htrace hfits
    ⟨hidle, hinbox, hfetches⟩⟩

/-- The page fetches the claim, and is sent its event too: it counts the points twice. -/
theorem claim_counted_twice :
    ∃ r₀ rs s, Replica.openGame frontierScenario (startingOptions "s8" table) = .ok r₀ ∧
    Trace (Recorded (Session.Step frontierScenario buildView useGame "p1")) { replica := r₀ } rs s ∧
    s.Quiet ∧
    ∃ v w, s.view = some v ∧ s.replica.store.memory.view = some w ∧
      v.players.map FrontierPlayerView.vp = [11, 2] ∧ w.players.map FrontierPlayerView.vp = [7, 2] ∧
      ¬ Agrees v w := by
  have hobserved : (Replica.openGame frontierScenario (startingOptions "s8" table)).toOption.bind
      (fun r₀ =>
      (film (Session.turn frontierScenario buildView useGame "p1") { replica := r₀ }
          (finishing ++ [.subscribe] ++ claiming ++ finishing ++
            [.read 0, .answer 0, .deliver])).map fun m =>
        ([m.2.replica.store.waiting.length, m.2.inbox.length, m.2.fetches.length],
          m.2.view.map fun v => v.players.map FrontierPlayerView.vp,
          m.2.replica.store.memory.view.map fun v => v.players.map FrontierPlayerView.vp)) =
      some ([0, 0, 0], some [11, 2], some [7, 2]) := by decide +kernel
  obtain ⟨r₀, rs, s, hr, htrace, hx⟩ := film_observed Session.turn_step hobserved
  simp only [Prod.mk.injEq, List.cons.injEq, and_true, List.length_eq_zero_iff] at hx
  obtain ⟨⟨hidle, hinbox, hfetches⟩, hview, hsaved⟩ := hx
  obtain ⟨v, hv, hshown⟩ := Option.map_eq_some_iff.mp hview
  obtain ⟨w, hw, hkept⟩ := Option.map_eq_some_iff.mp hsaved
  refine ⟨r₀, rs, s, hr, htrace, ⟨hidle, hinbox, hfetches⟩, v, w, hv, hw, hshown, hkept,
    fun hagrees => ?_⟩
  have hsame : v = { w with round := v.round } := hagrees
  have hplayers : v.players = w.players := by rw [hsame]
  rw [hplayers, hkept] at hshown
  exact absurd hshown (by decide)

end Boardgame.Web
