import Boardgame.Engine.Service

/-!
# Engine.Snapshot

What concurrent commands leave behind, for a scenario whose accepted actions run to their end.
Continuations run in the order their writes were issued, so the view of the command submitted last
is issued last, and built from the state all of them have left.

* `Tracked`: the game is what the accepted commands alone make of it.
* `Stored`: what the store will hold once every write issued is done.
-/

namespace Boardgame

variable {X P E V : Type}

/-! ## Calls -/

/-- The events a submit returns. -/
def Game.Call.events : Game.Call P E → List (GameEvent E)
  | .submit _ (.ok (.ok events)) => events
  | _ => []

/-- The action of a submit that returns `ok: true`. -/
def Game.Call.played? : Game.Call P E → Option (Action P)
  | .submit a (.ok (.ok _)) => some a
  | _ => none

theorem Game.Call.events_nil {c : Game.Call P E} (h : c.played? = none) :
    c.events = [] ∧ Game.endsGame c = false :=
  match c, h with
  | .start, _ => ⟨rfl, rfl⟩
  | .submit _ (.error _), _ => ⟨rfl, rfl⟩
  | .submit _ (.ok (.error _)), _ => ⟨rfl, rfl⟩

namespace Engine

theorem victoryOf_isSome (events : List (GameEvent E)) :
    (events.findSome? victoryOf).isSome = events.any Game.isGameEnded := by
  induction events with
  | nil => rfl
  | cons e es ih =>
    obtain ⟨body, playerId, privateTo, seq⟩ := e
    cases body with
    | gameEnded v => rfl
    | scenario x => exact ih

/-- The result of the game, from what it has emitted. -/
def verdict (g : Game X P E) : Option VictoryResult := g.events.emitted.findSome? victoryOf

variable [HasType P]

/-- A scenario without rules whose accepted actions run to their end. -/
structure Plays (sc : Scenario X P E) (opts : GameSetupOptions) : Prop where
  rules : sc.rules = []
  runs : ∀ {calls g a}, Game.RunFrom sc opts calls g → sc.validate g.state a = .ok () →
    ∃ evs s', (sc.execute a).run g.state = .ok evs s' ∧ evs.any Game.isGameEnded = false

/-- The game a submit that returns `ok: true` leaves. -/
structure Played (g : Game X P E) (events : List (GameEvent E)) (g' : Game X P E) : Prop where
  log : g'.events = ⟨g.events.nextSeq + events.length, g.events.emitted ++ events⟩
  seqs : events.map GameEvent.seq = (List.range' g.events.nextSeq events.length).map some
  ends : g'.machine = .ended ↔ events.any Game.isGameEnded = true

omit [HasType P] in
theorem Played.verdict {g g' : Game X P E} {events : List (GameEvent E)} (h : Played g events g')
    (hnone : verdict g = none) : verdict g' = events.findSome? victoryOf := by
  rw [Engine.verdict] at hnone
  rw [Engine.verdict, h.log, List.findSome?_append, hnone, Option.none_or]

theorem any_isGameEnded_stamp (events : List (GameEvent E)) :
    ∀ n, (Game.stamp n events).any Game.isGameEnded = events.any Game.isGameEnded := by
  induction events with
  | nil => intro n; rfl
  | cons e es ih =>
    intro n
    rw [Game.stamp, List.any_cons, List.any_cons, ih]
    rfl

theorem respond_submit (sc : Scenario X P E) (g : Game X P E) (a : Action P) :
    ∃ res, (Game.respond sc g (.submit a)).1 = .submit a res := by
  simp only [Game.respond]
  split
  · exact ⟨_, rfl⟩
  · exact ⟨_, rfl⟩

variable {sc : Scenario X P E} {opts : GameSetupOptions}

/-- A submit that is not accepted after the end is played, or changes nothing. -/
theorem respond_cases (hp : Plays sc opts) {calls : List (Game.Call P E)} {g : Game X P E}
    (hrun : Game.RunFrom sc opts calls g) {a : Action P}
    (hopen : sc.validate g.state a = .ok () → g.machine ≠ .ended) :
    (sc.validate g.state a = .ok () ∧ ∃ events g', Game.respond sc g (.submit a) =
      (.submit a (.ok (.ok events)), g') ∧
      Played g events g') ∨
      ∃ call, Game.respond sc g (.submit a) = (call, g) ∧ call.played? = none := by
  have hstep := Game.respond_step sc g (.submit a)
  have hcall := respond_submit sc g a
  generalize Game.respond sc g (.submit a) = next at hstep hcall
  obtain ⟨call, g'⟩ := next
  obtain ⟨res, rfl⟩ : ∃ res, call = .submit a res := hcall
  have hquiet : ∀ {evs s}, sc.validate g.state a = .ok () → (sc.execute a).run g.state = .ok evs s →
      evs.any Game.isGameEnded = false := by
    intro evs s hv hx
    obtain ⟨_, _, hx', hquiet⟩ := hp.runs hrun hv
    rw [hx] at hx'
    cases hx'
    exact hquiet
  cases hstep.outcome hp.rules with
  | rejected hv => exact .inr ⟨_, rfl, rfl⟩
  | refused hv => exact .inr ⟨_, rfl, rfl⟩
  | crashed hv hx =>
    obtain ⟨_, _, hx', -⟩ := hp.runs hrun hv
    rw [hx] at hx'
    cases hx'
  | @played _ primary s hv hx =>
    have hany := (any_isGameEnded_stamp primary g.events.nextSeq).trans (hquiet hv hx)
    refine .inl ⟨hv, _, _, rfl, ⟨?_, ?_, ?_⟩⟩
    · simp [Game.emitted, Game.stamp_length]
    · rw [Game.stamp_length]
      exact Game.stamp_seqs primary _
    · rw [hany]
      exact iff_of_false (hopen hv) (by simp)
  | @won _ primary s victory hv hx =>
    refine .inl ⟨hv, _, _, rfl, ⟨?_, ?_, ?_⟩⟩
    · simp [Game.executed, Game.emitted, Game.stamp_length, Game.stamp_append, Game.stamp,
        Nat.add_assoc]
    · rw [Game.stamp_length]
      exact Game.stamp_seqs _ _
    · rw [any_isGameEnded_stamp]
      exact iff_of_true rfl (by simp [Game.isGameEnded])
  | stuck hv _ _ hm => exact absurd hm (hopen hv)

/-! ## The game -/

def calls (ms : List (Moment P E)) : List (Game.Call P E) := ms.filterMap Moment.call?

/-- The accepted commands, in the order they were submitted. -/
def accepted (ms : List (Moment P E)) : List (Action P) := (calls ms).filterMap Game.Call.played?

/-- The accepted commands submitted to the game alone, one after the other. -/
def alone (sc : Scenario X P E) (g₀ : Game X P E) (ms : List (Moment P E)) : Game X P E :=
  (Game.replay sc g₀ ((accepted ms).map .submit)).2

/-- The game is what the accepted commands alone make of it, and its log is what they return. -/
structure Tracked (sc : Scenario X P E) (opts : GameSetupOptions) (g₀ : Game X P E)
    (ms : List (Moment P E)) (g : Game X P E) : Prop where
  run : ∃ calls, Game.RunFrom sc opts calls g
  game : alone sc g₀ ms = g
  results : (calls ms).flatMap Game.Call.events = g.events.emitted
  nextSeq : g.events.nextSeq = g.events.emitted.length + 1
  seqs : g.events.emitted.map GameEvent.seq = (List.range' 1 g.events.emitted.length).map some
  verdict : (verdict g).isSome = true ↔ g.machine = .ended
  ender : g.machine = .ended ↔ ∃ c ∈ calls ms, Game.endsGame c = true

theorem Tracked.going {g₀ g : Game X P E} {ms : List (Moment P E)} (h : Tracked sc opts g₀ ms g)
    (hgoing : g.machine ≠ .ended) : Engine.verdict g = none :=
  Option.not_isSome_iff_eq_none.mp fun hv => hgoing (h.verdict.mp hv)

theorem Tracked.silent {g₀ g : Game X P E} {ms : List (Moment P E)} (h : Tracked sc opts g₀ ms g)
    {m : Moment P E} (hm : ∀ c, m.call? = some c → c.played? = none) :
    Tracked sc opts g₀ (ms ++ [m]) g := by
  have hnew : accepted (ms ++ [m]) = accepted ms ∧
      (calls (ms ++ [m])).flatMap Game.Call.events = (calls ms).flatMap Game.Call.events ∧
      ((∃ c ∈ calls (ms ++ [m]), Game.endsGame c = true) ↔
        ∃ c ∈ calls ms, Game.endsGame c = true) := by
    cases hc : m.call? with
    | none => simp [accepted, calls, hc]
    | some c =>
      obtain ⟨hevents, hends⟩ := Game.Call.events_nil (hm c hc)
      simp [accepted, calls, hc, hm c hc, hevents, hends, or_and_right, exists_or]
  exact
    { h with
      game := by rw [alone, hnew.1, ← alone, h.game]
      results := hnew.2.1.trans h.results
      ender := h.ender.trans hnew.2.2.symm }

theorem Tracked.played {g₀ g g' : Game X P E} {ms : List (Moment P E)} (h : Tracked sc opts g₀ ms g)
    (hopen : g.machine ≠ .ended) {a : Action P} {events : List (GameEvent E)}
    (hr : Game.respond sc g (.submit a) = (.submit a (.ok (.ok events)), g'))
    (hplayed : Played g events g') :
    Tracked sc opts g₀ (ms ++ [.called (.submit a (.ok (.ok events)))]) g' := by
  have hcalls : calls (ms ++ [.called (.submit a (.ok (.ok events)))]) =
      calls ms ++ [.submit a (.ok (.ok events))] := by
    simp [calls, Moment.call?]
  have haccepted : accepted (ms ++ [.called (.submit a (.ok (.ok events)))]) =
      accepted ms ++ [a] := by
    rw [accepted, hcalls, List.filterMap_append]
    rfl
  obtain ⟨calls₀, s, hs, htr⟩ := h.run
  have hstep : Game.Step sc g (.submit a (.ok (.ok events))) g' := by
    have := Game.respond_step sc g (.submit a)
    rwa [hr] at this
  have hnone : Engine.verdict g = none := h.going hopen
  have hlog := hplayed.log
  have hverdict : Engine.verdict g' = events.findSome? victoryOf := hplayed.verdict hnone
  refine
    { run := ⟨_, s, hs, htr.snoc hstep⟩
      game := ?_
      results := ?_
      nextSeq := ?_
      seqs := ?_
      verdict := ?_
      ender := ?_ }
  · have hgame : (Game.replay sc g₀ ((accepted ms).map .submit)).2 = g := h.game
    rw [alone, haccepted, List.map_append, Game.replay_append, hgame]
    simp only [List.map_cons, List.map_nil, Game.replay, hr]
  · rw [hcalls, List.flatMap_append, h.results, hlog]
    simp [Game.Call.events]
  · rw [hlog]
    simp only [List.length_append, h.nextSeq]
    omega
  · rw [hlog, List.map_append, h.seqs, hplayed.seqs, h.nextSeq, List.length_append,
      ← List.map_append,
      Nat.add_comm _ 1, List.range'_append_1]
  · rw [hverdict, victoryOf_isSome]
    exact hplayed.ends.symm
  · have hbefore : ¬ ∃ c ∈ calls ms, Game.endsGame c = true := fun hc => hopen (h.ender.mpr hc)
    rw [hplayed.ends, hcalls]
    simp only [List.mem_append, List.mem_singleton, or_and_right, exists_or, hbefore, false_or,
      exists_eq_left]
    rfl

/-! ## The bus and the store -/

variable [HasType E] {buildView : GameState X P E → List Player → Option VictoryResult → V}

omit [HasType P] in
theorem filter_busEvent (events : List (GameEvent E)) :
    (events.map (busEvent (V := V))).filter GameBusEvent.isEvent = events.map busEvent :=
  List.filter_eq_self.mpr fun msg hmsg => by
    obtain ⟨e, -, rfl⟩ := List.mem_map.mp hmsg
    rfl

/-- All that is emitted is published. -/
structure Posted (r : Replica X P E V) : Prop where
  events : r.published.filter GameBusEvent.isEvent = r.inst.game.events.emitted.map busEvent
  buffer : r.inst.buffer = []
  listening : r.inst.game.machine ≠ .ended → r.inst.listening = true

/-- A handler that has yet to build its view. -/
def Await.saving? : Await V → Option (Option VictoryResult)
  | .save victory => some victory
  | .create _ => some none
  | _ => none

abbrev Channel (X P E V : Type) := Outbox (GameStore X P E V) (Write X P E V) (Await V)

/-- The results known to the handlers that have yet to build their view, in the order they will. -/
def saving (o : Channel X P E V) : List (Option VictoryResult) := o.waiting.filterMap Await.saving?

def eventual (o : Channel X P E V) : GameStore X P E V := o.eventual GameStore.perform

/-- What the store will hold: the state of the game, and its view with the result; the view may be
yet to be built, by the handler that knows the result. -/
structure Stored (buildView : GameState X P E → List Player → Option VictoryResult → V)
    (g : Game X P E) (o : Channel X P E V) : Prop where
  state : (eventual o).state = some g.state
  last : ∀ victory, (saving o).getLast? = some victory → victory = verdict g
  view : saving o = [] → (eventual o).view =
    some (buildView g.state g.state.players.all (verdict g))
  ended : ∀ k ∈ o.waiting, k.victory ≠ none → g.machine = .ended

namespace Stored

variable {g : Game X P E} {o o' : Channel X P E V}

omit [HasType P] [HasType E]

/-- A completed write changes nothing of this. -/
theorem completed (h : Stored buildView g o) (hc : o.complete GameStore.perform = some o') :
    Stored buildView g o' := by
  obtain ⟨hwaiting, heventual⟩ := Outbox.complete_same hc
  have hsaving : saving o' = saving o := by rw [saving, saving, hwaiting]
  have hstore : eventual o' = eventual o := heventual
  exact
    { state := by rw [hstore]; exact h.state
      last := by rw [hsaving]; exact h.last
      view := by rw [hsaving, hstore]; exact h.view
      ended := by rw [hwaiting]; exact h.ended }

/-- A handler has saved the state, and issues its view: if no other has yet to build one, it knows
the result. -/
theorem saved (h : Stored buildView g o) {k k' : Await V}
    {victory : Option VictoryResult} {view : V} (hn : o.next = some (k, o'))
    (hk : k.saving? = some victory) (hview : view = buildView g.state g.state.players.all victory)
    (hk' : k'.saving? = none) (hvictory : k'.victory ≠ none → k.victory ≠ none) :
    Stored buildView g (o'.issue (.saveView view) k') := by
  have hwaiting := Outbox.next_waiting hn
  have heventual := Outbox.next_eventual GameStore.perform hn
  have hsaving : saving o = victory :: saving o' := by
    rw [saving, hwaiting, List.filterMap_cons_some hk, saving]
  have hsaving' : saving (o'.issue (.saveView view) k') = saving o' := by
    simp [saving, hk']
  have hstore : eventual (o'.issue (.saveView view) k') =
      { eventual o with view := some view } := by
    rw [eventual, Outbox.eventual_issue, heventual]
    rfl
  refine
    { state := by rw [hstore]; exact h.state
      last := fun v hv => h.last v ?_
      view := fun hnone => ?_
      ended := fun k₁ hk₁ hv => ?_ }
  · rw [hsaving'] at hv
    rw [hsaving, List.getLast?_cons, hv]
    rfl
  · rw [hsaving'] at hnone
    rw [hstore, hview, ← h.last victory (by rw [hsaving, hnone]; rfl)]
  · rw [Outbox.waiting_issue, List.mem_append, List.mem_singleton] at hk₁
    rcases hk₁ with hk₁ | rfl
    · exact h.ended k₁ (hwaiting ▸ List.mem_cons_of_mem _ hk₁) hv
    · exact h.ended k (hwaiting ▸ List.mem_cons_self) (hvictory hv)

/-- A handler has saved its view. -/
theorem viewed (h : Stored buildView g o) {k : Await V} (hn : o.next = some (k, o'))
    (hk : k.saving? = none) :
    Stored buildView g o' := by
  have hwaiting := Outbox.next_waiting hn
  have heventual := Outbox.next_eventual GameStore.perform hn
  have hsaving : saving o = saving o' := by
    rw [saving, hwaiting, List.filterMap_cons_none hk, saving]
  have hstore : eventual o' = eventual o := heventual
  exact
    { state := by rw [hstore]; exact h.state
      last := by rw [← hsaving]; exact h.last
      view := by rw [← hsaving, hstore]; exact h.view
      ended := fun k₁ hk₁ => h.ended k₁ (hwaiting ▸ List.mem_cons_of_mem _ hk₁) }

/-- A command has been played on a game that went on, and its handler issues the new state. -/
theorem played (h : Stored buildView g o) (hopen : g.machine ≠ .ended) {g' : Game X P E}
    {victory : Option VictoryResult} (hv : victory = verdict g')
    (hended : (verdict g').isSome = true ↔ g'.machine = .ended) :
    Stored buildView g' (o.issue (.save g'.state) (.save victory)) := by
  have hsaving : saving (o.issue (.save g'.state) (.save victory)) = saving o ++ [victory] := by
    simp [saving, Await.saving?]
  have hstore : eventual (o.issue (.save g'.state) (.save victory)) =
      { eventual o with state := some g'.state } := by
    rw [eventual, Outbox.eventual_issue]
    rfl
  refine
    { state := by rw [hstore]
      last := fun v hlast => ?_
      view := fun hnone => absurd hnone (by rw [hsaving]; simp)
      ended := fun k hk hk' => ?_ }
  · rw [hsaving, List.getLast?_concat, Option.some.injEq] at hlast
    rw [← hlast, hv]
  · rw [Outbox.waiting_issue, List.mem_append, List.mem_singleton] at hk
    rcases hk with hk | rfl
    · exact absurd (h.ended k hk hk') hopen
    · rw [← hended, ← hv]
      exact Option.isSome_iff_ne_none.mpr hk'

end Stored

/-! ## Steps -/

/-- The replica after the moments `ms`. -/
structure Live (sc : Scenario X P E) (opts : GameSetupOptions)
    (buildView : GameState X P E → List Player → Option VictoryResult → V) (g₀ : Game X P E)
    (ms : List (Moment P E)) (r : Replica X P E V) : Prop where
  tracked : Tracked sc opts g₀ ms r.inst.game
  posted : Posted r
  stored : Stored buildView r.inst.game r.store

/-- A submit that is not played: at most an error is published. -/
theorem handleCommand_refused {r : Replica X P E V} {c : Command P} {call : Game.Call P E}
    (hheld : r.held = true) (hr : Game.respond sc r.inst.game (.submit c.action) =
      (call, r.inst.game))
    (hnone : call.played? = none) :
    ∃ errors, r.handleCommand sc c = (.called call, { r with published := r.published ++ errors }) ∧
      ∀ msg ∈ errors, ∃ error, msg.payload = .error error := by
  have hinst : r.inst.submit sc c.action = (call, r.inst) := by
    rw [GameInstance.submit, hr]
    simp only [Game.newEvents_idle, List.append_nil, ite_self]
  rw [Replica.handleCommand, if_pos hheld, hinst]
  match call, hnone with
  | .start, _ => exact ⟨[], by simp, by simp⟩
  | .submit _ (.error _), _ => exact ⟨[], by simp, by simp⟩
  | .submit _ (.ok (.error error)), _ => exact ⟨[_], rfl, by simp⟩

omit [HasType P] [HasType E] in
theorem filter_errors {errors : List (GameBusEvent V E)}
    (h : ∀ msg ∈ errors, ∃ error, msg.payload = .error error) :
    errors.filter GameBusEvent.isEvent = [] :=
  List.filter_eq_nil_iff.mpr fun msg hmsg => by
    obtain ⟨error, herror⟩ := h msg hmsg
    simp [GameBusEvent.isEvent, herror]

/-- A submit that is played: its events are published, and the state it leaves is on its way. -/
theorem handleCommand_played {r : Replica X P E V} (hposted : Posted r) {c : Command P}
    {events : List (GameEvent E)} {g' : Game X P E} (hheld : r.held = true)
    (hgoing : r.inst.game.machine ≠ .ended)
    (hr : Game.respond sc r.inst.game (.submit c.action) =
      (.submit c.action (.ok (.ok events)), g'))
    (hplayed : Played r.inst.game events g') :
    r.handleCommand sc c = (.called (.submit c.action (.ok (.ok events))),
      { r with
        inst := { game := g' }
        published := r.published ++ events.map busEvent
        store := r.store.issue (.save g'.state) (.save (events.findSome? victoryOf)) }) := by
  have hnew : Game.newEvents r.inst.game g' = events := Game.newEvents_append (by rw [hplayed.log])
  have hinst : r.inst.submit sc c.action =
      (.submit c.action (.ok (.ok events)), { game := g', buffer := events }) := by
    rw [GameInstance.submit, hr]
    simp only [hposted.listening hgoing, if_true, hnew, hposted.buffer, List.nil_append]
  rw [Replica.handleCommand, if_pos hheld, hinst]
  rfl

/-- What a step of a live replica can be. -/
inductive Turned (sc : Scenario X P E) (buildView : GameState X P E → List Player →
    Option VictoryResult → V)
    (r : Replica X P E V) : Moment P E → Replica X P E V → Prop where
  | played {a : Action P} {events : List (GameEvent E)} {g' : Game X P E} :
      sc.validate r.state a = .ok () → r.inst.game.machine ≠ .ended →
      Game.respond sc r.inst.game (.submit a) = (.submit a (.ok (.ok events)), g') →
      Played r.inst.game events g' →
      Turned sc buildView r (.called (.submit a (.ok (.ok events))))
        { r with
          inst := { game := g' }
          published := r.published ++ events.map busEvent
          store := r.store.issue (.save g'.state) (.save (events.findSome? victoryOf)) }
  /-- A command that is not played leaves but errors. -/
  | silent {m : Moment P E} {errors : List (GameBusEvent V E)} :
      (∀ call, m.call? = some call → call.played? = none) →
      (∀ msg ∈ errors, ∃ error, msg.payload = .error error) →
      Turned sc buildView r m { r with published := r.published ++ errors }
  | completed {store : Channel X P E V} :
      r.store.complete GameStore.perform = some store →
      Turned sc buildView r .completed { r with store }
  | saved {victory : Option VictoryResult} {store : Channel X P E V} :
      r.store.next = some (.save victory, store) →
      Turned sc buildView r .resumed
        { r with
          store := store.issue (.saveView (buildView r.state r.state.players.all victory))
            (.saveView victory) }
  | viewed {victory : Option VictoryResult} {store : Channel X P E V} {held listening : Bool} :
      r.store.next = some (.saveView victory, store) →
      (victory = none → listening = r.inst.listening) →
      Turned sc buildView r .resumed { r with held, store, inst := { r.inst with listening } }
  | created {players : List Player} {store : Channel X P E V} :
      r.store.next = some (.create players, store) →
      Turned sc buildView r .resumed
        { r with
          store := store.issue (.saveView (buildView r.state players none))
            (.start (buildView r.state players none)) }
  | started {view : V} {store : Channel X P E V} :
      r.store.next = some (.start view, store) →
      Turned sc buildView r .resumed
        ({ r with store }.publish { seq := 0, type := "game-started", payload := .started view })

theorem turned_command (hp : Plays sc opts) {g₀ : Game X P E} {ms : List (Moment P E)}
    {r : Replica X P E V} (h : Live sc opts buildView g₀ ms r) (c : Command P)
    (hopen : r.held = true → sc.validate r.state c.action = .ok () → r.inst.game.machine ≠ .ended) :
    Turned sc buildView r (r.handleCommand sc c).1 (r.handleCommand sc c).2 := by
  obtain ⟨htracked, hposted, -⟩ := h
  by_cases hheld : r.held = true
  · obtain ⟨_, hrun⟩ := htracked.run
    rcases respond_cases hp hrun (hopen hheld) with ⟨hv, events, g', hr, hplayed⟩ |
      ⟨call, hr, hnone⟩
    · have hgoing := hopen hheld hv
      rw [handleCommand_played hposted hheld hgoing hr hplayed]
      exact .played hv hgoing hr hplayed
    · obtain ⟨errors, hcommand, herrors⟩ := handleCommand_refused hheld hr hnone
      rw [hcommand]
      refine .silent (fun c hc => ?_) herrors
      rw [Moment.call?, Option.some.injEq] at hc
      exact hc ▸ hnone
  · have hrun : r.handleCommand sc c = (.absent, { r with published := r.published ++ [] }) := by
      rw [Replica.handleCommand, if_neg hheld, List.append_nil]
    rw [hrun]
    exact .silent (by simp [Moment.call?]) (by simp)

omit [HasType P] in
theorem flushEvents_idle {r : Replica X P E V} (h : r.inst.buffer = []) : r.flushEvents = r := by
  obtain ⟨held, ⟨game, buffer, listening⟩, published, store⟩ := r
  have hbuffer : buffer = [] := h
  subst hbuffer
  simp [Replica.flushEvents]

theorem turned_resume {r r' : Replica X P E V} (hposted : Posted r)
    (hr : r.resume buildView = some r') :
    Turned sc buildView r .resumed r' := by
  unfold Replica.resume at hr
  split at hr
  · cases hr
  · rename_i hn
    cases hr
    exact .saved hn
  · rename_i hn
    cases hr
    exact .viewed hn fun _ => rfl
  · rename_i hn
    cases hr
    exact .viewed hn nofun
  · rename_i players store hn
    have hflush : Replica.flushEvents { r with store } = { r with store } :=
      flushEvents_idle hposted.buffer
    rw [hflush] at hr
    cases hr
    exact .created hn
  · rename_i hn
    cases hr
    exact .started hn

theorem turned_step (hp : Plays sc opts) {g₀ : Game X P E} {ms : List (Moment P E)}
    {r r' : Replica X P E V} {m : Moment P E} (h : Live sc opts buildView g₀ ms r)
    (hstep : Replica.Step sc buildView r m r') (hopen : ∀ a res, m = .called (.submit a res) →
      sc.validate r.state a = .ok () → r.inst.game.machine ≠ .ended) :
    Turned sc buildView r m r' := by
  obtain ⟨hturn⟩ := hstep
  rename_i i
  cases i with
  | command c =>
    rw [Replica.turn, Option.some.injEq] at hturn
    obtain ⟨rfl, rfl⟩ : (r.handleCommand sc c).1 = m ∧ (r.handleCommand sc c).2 = r' := by
      rw [hturn]
      exact ⟨rfl, rfl⟩
    refine turned_command hp h c fun hheld => ?_
    obtain ⟨res, hcall⟩ := respond_submit sc r.inst.game c.action
    refine hopen c.action res ?_
    rw [Replica.handleCommand, if_pos hheld, ← hcall]
    rfl
  | complete =>
    obtain ⟨store, hstore, hm⟩ := Option.map_eq_some_iff.mp hturn
    cases hm
    exact .completed hstore
  | resume =>
    obtain ⟨r₁, hr₁, hm⟩ := Option.map_eq_some_iff.mp hturn
    cases hm
    exact turned_resume h.posted hr₁

/-- The view `createGame` builds shows the players the game has. -/
def Greets (buildView : GameState X P E → List Player → Option VictoryResult → V)
    (r : Replica X P E V) : Prop :=
  ∀ players, Await.create players ∈ r.store.waiting →
    buildView r.state players none = buildView r.state r.state.players.all none

theorem Turned.live {g₀ : Game X P E} {ms : List (Moment P E)} {r r' : Replica X P E V}
    {m : Moment P E} (h : Live sc opts buildView g₀ ms r) (hgreets : Greets buildView r)
    (hturn : Turned sc buildView r m r') :
    Live sc opts buildView g₀ (ms ++ [m]) r' := by
  obtain ⟨htracked, hposted, hstored⟩ := h
  cases hturn with
  | @played a events g' _ hgoing hr hplayed =>
    have htracked' := htracked.played hgoing hr hplayed
    have hverdict : events.findSome? victoryOf = verdict g' :=
      (hplayed.verdict (htracked.going hgoing)).symm
    refine ⟨htracked', ?_, hstored.played hgoing hverdict htracked'.verdict⟩
    exact
      { events := by
          simp only [List.filter_append, hposted.events, filter_busEvent, hplayed.log,
            List.map_append]
        buffer := rfl
        listening := fun _ => rfl }
  | silent hm herrors =>
    refine ⟨htracked.silent hm, ⟨?_, hposted.buffer, hposted.listening⟩, hstored⟩
    rw [← hposted.events, List.filter_append, filter_errors herrors, List.append_nil]
  | completed hstore =>
    exact ⟨htracked.silent (by simp [Moment.call?]),
      ⟨hposted.events, hposted.buffer, hposted.listening⟩, hstored.completed hstore⟩
  | saved hn =>
    exact ⟨htracked.silent (by simp [Moment.call?]),
      ⟨hposted.events, hposted.buffer, hposted.listening⟩,
      hstored.saved hn rfl rfl rfl fun hv => hv⟩
  | @viewed victory _ _ _ hn hlistening =>
    refine ⟨htracked.silent (by simp [Moment.call?]),
      ⟨hposted.events, hposted.buffer, fun hgoing => ?_⟩, hstored.viewed hn rfl⟩
    have hnone : victory = none := by
      by_contra hv
      exact hgoing (hstored.ended (.saveView victory)
        (by rw [Outbox.next_waiting hn]; exact List.mem_cons_self) hv)
    exact (hlistening hnone).trans (hposted.listening hgoing)
  | @created players _ hn =>
    have hview := hgreets players (by rw [Outbox.next_waiting hn]; exact List.mem_cons_self)
    exact ⟨htracked.silent (by simp [Moment.call?]),
      ⟨hposted.events, hposted.buffer, hposted.listening⟩,
      hstored.saved hn rfl hview rfl fun hv => hv⟩
  | started hn =>
    refine ⟨htracked.silent (by simp [Moment.call?]), ⟨?_, hposted.buffer, hposted.listening⟩,
      hstored.viewed hn rfl⟩
    show (r.published ++ [_]).filter GameBusEvent.isEvent = r.inst.game.events.emitted.map busEvent
    rw [← hposted.events, List.filter_append]
    exact List.append_nil _

/-! ## Once a game is created -/

/-- What waits after a step waited before it, or belongs to a command, or goes on from what did. -/
theorem Turned.waiting {r r' : Replica X P E V} {m : Moment P E}
    (hturn : Turned sc buildView r m r') {k : Await V} (hin : k ∈ r'.store.waiting) :
    k ∈ r.store.waiting ∨ (∃ victory, k = .save victory) ∨ (∃ victory, k = .saveView victory) ∨
      ∃ players, k = .start (buildView r.state players none) ∧
        .create players ∈ r.store.waiting := by
  have hrest : ∀ {k' : Await V} {store : Channel X P E V}, r.store.next = some (k', store) →
      k ∈ store.waiting → k ∈ r.store.waiting :=
    fun hn hk => (Outbox.next_waiting hn) ▸ List.mem_cons_of_mem _ hk
  cases hturn with
  | played =>
    rw [Outbox.waiting_issue, List.mem_append, List.mem_singleton] at hin
    exact hin.imp id fun h => .inl ⟨_, h⟩
  | silent => exact .inl hin
  | completed hstore => exact .inl ((Outbox.complete_same hstore).1 ▸ hin)
  | saved hn =>
    rw [Outbox.waiting_issue, List.mem_append, List.mem_singleton] at hin
    exact hin.imp (hrest hn) fun h => .inr (.inl ⟨_, h⟩)
  | viewed hn => exact .inl (hrest hn hin)
  | @created players _ hn =>
    rw [Outbox.waiting_issue, List.mem_append, List.mem_singleton] at hin
    refine hin.imp (hrest hn) fun h => .inr (.inr ⟨players, h, ?_⟩)
    rw [Outbox.next_waiting hn]
    exact List.mem_cons_self
  | started hn => exact .inl (hrest hn hin)

/-- The creation of the game is over. -/
structure Created (r : Replica X P E V) : Prop where
  create : ∀ players, Await.create players ∉ r.store.waiting
  start : ∀ view, Await.start view ∉ r.store.waiting

omit [HasType P] [HasType E] in
theorem Created.greets {r : Replica X P E V} (h : Created r) : Greets buildView r :=
  fun players hin => absurd hin (h.create players)

theorem Turned.stays {r r' : Replica X P E V} {m : Moment P E} (h : Created r)
    (hturn : Turned sc buildView r m r') :
    Created r' := by
  constructor
  · intro players hin
    rcases hturn.waiting hin with hin | ⟨_, hk⟩ | ⟨_, hk⟩ | ⟨_, hk, _⟩
    · exact h.create players hin
    all_goals cases hk
  · intro view hin
    rcases hturn.waiting hin with hin | ⟨_, hk⟩ | ⟨_, hk⟩ | ⟨players, _, hcreate⟩
    · exact h.start view hin
    · cases hk
    · cases hk
    · exact h.create players hcreate

/-- No call is made after one that ends the game. -/
def NoneAfterEnd (ms : List (Moment P E)) : Prop :=
  (calls ms).Pairwise fun c _ => Game.endsGame c = false

theorem live_run (hp : Plays sc opts) {r₀ r : Replica X P E V} {ms : List (Moment P E)}
    (h₀ : Live sc opts buildView r₀.inst.game [] r₀) (hcreated : Created r₀)
    (h : Trace (Replica.Step sc buildView) r₀ ms r)
    (hlast : NoneAfterEnd ms) : Live sc opts buildView r₀.inst.game ms r := by
  have hrun := h.inv_labels
    (I := fun ms r => NoneAfterEnd ms → Live sc opts buildView r₀.inst.game ms r ∧ Created r)
    (fun pre s m t hI hstep hlast => ?_) [] fun _ => ⟨h₀, hcreated⟩
  · exact (hrun hlast).1
  · have hcalls : calls (pre ++ [m]) = calls pre ++ calls [m] := List.filterMap_append
    rw [NoneAfterEnd, hcalls, List.pairwise_append] at hlast
    obtain ⟨hpre, hcreated⟩ := hI hlast.1
    have hturn := turned_step hp hpre hstep fun a res hm _ hended => by
      obtain ⟨c, hc, hends⟩ := hpre.tracked.ender.mp hended
      have hin : Game.Call.submit a res ∈ calls [m] := by simp [hm, calls, Moment.call?]
      rw [hlast.2.2 c hc _ hin] at hends
      cases hends
    exact ⟨hturn.live hpre hcreated.greets, hturn.stays hcreated⟩

/-! ## What is left -/

omit [HasType P] [HasType E] in
theorem start_fresh {s : GameState X P E} (hstatus : s.status = .setup) :
    (Game.new s).start.machine = .playing ∧ (Game.new s).start.events = {} := by
  refine ⟨by simp [Game.new, Game.start, hstatus], ?_⟩
  unfold Game.start
  split <;> rfl

omit [HasType E] in
/-- A game that begins is one of the scenario, and nothing has happened in it. -/
theorem tracked_start {s : GameState X P E} (hs : createGameState sc opts = .ok s)
    (hstatus : s.status = .setup) :
    Tracked sc opts (Game.new s).start [] (Game.new s).start := by
  obtain ⟨hmachine, hevents⟩ := start_fresh hstatus
  have hverdict : verdict (Game.new s).start = none := by rw [verdict, hevents]; rfl
  exact
    { run := ⟨[.start], s, hs, .single .start⟩
      game := rfl
      results := by rw [hevents]; rfl
      nextSeq := by rw [hevents]; rfl
      seqs := by rw [hevents]; rfl
      verdict := by simp [hverdict, hmachine]
      ender := by simp [calls, hmachine] }

omit [HasType P] in
theorem posted_start {s : GameState X P E} (hstatus : s.status = .setup) {r : Replica X P E V}
    (hinst : r.inst = { game := (Game.new s).start })
    (hpublished : r.published.filter GameBusEvent.isEvent = []) :
    Posted r := by
  obtain ⟨-, hevents⟩ := start_fresh hstatus
  exact
    { events := by rw [hpublished, hinst, hevents]; rfl
      buffer := by rw [hinst]
      listening := fun _ => by rw [hinst] }

theorem live_opened {r₀ : Replica X P E V} (hr : Replica.openGame sc opts = .ok r₀)
    (hfresh : ∀ s, createGameState sc opts = .ok s → s.status = .setup) :
    Live sc opts buildView r₀.inst.game [] r₀ := by
  cases hs : createGameState sc opts with
  | error e => simp [Replica.openGame, hs, Except.map] at hr
  | ok s =>
    simp only [Replica.openGame, hs, Except.map, Except.ok.injEq] at hr
    subst hr
    obtain ⟨-, hevents⟩ := start_fresh (hfresh s hs)
    have hverdict : verdict (Game.new s).start = none := by rw [verdict, hevents]; rfl
    refine ⟨tracked_start hs (hfresh s hs), posted_start (hfresh s hs) rfl rfl, ?_⟩
    exact
      { state := rfl
        last := fun _ hlast => by rw [hverdict]; cases hlast; rfl
        view := fun hnone => by cases hnone
        ended := fun k hk hv => by cases List.mem_singleton.mp hk; exact absurd rfl hv }

theorem live_created {r₀ : Replica X P E V}
    (hr : Replica.createGame sc buildView opts = .ok r₀)
    (hfresh : ∀ s, createGameState sc opts = .ok s → s.status = .setup ∧
      buildView (Game.new s).start.state opts.players none =
        buildView (Game.new s).start.state (Game.new s).start.state.players.all none) :
    Live sc opts buildView r₀.inst.game [] r₀ ∧ Created r₀ := by
  cases hs : createGameState sc opts with
  | error e => simp [Replica.createGame, hs, Except.map] at hr
  | ok s =>
    obtain ⟨hstatus, hview⟩ := hfresh s hs
    simp only [Replica.createGame, hs, Except.map, Except.ok.injEq] at hr
    subst hr
    obtain ⟨-, hevents⟩ := start_fresh hstatus
    have hverdict : verdict (Game.new s).start = none := by rw [verdict, hevents]; rfl
    refine ⟨⟨tracked_start hs hstatus, posted_start hstatus rfl rfl, ?_⟩,
      ⟨fun _ hin => (nomatch hin), fun _ hin => (nomatch hin)⟩⟩
    exact
      { state := rfl
        last := fun _ hlast => by cases hlast
        view := fun _ => by rw [hverdict, ← hview]; rfl
        ended := fun _ hk => by cases hk }

/-- Left alone, `createGame` runs to its end. -/
theorem openGame_runs {r : Replica X P E V} (hr : Replica.openGame sc opts = .ok r) :
    ∃ r₀, Replica.createGame sc buildView opts = .ok r₀ ∧
      Trace (Replica.Step sc buildView) r [.completed, .resumed, .completed, .resumed] r₀ := by
  cases hs : createGameState sc opts with
  | error e => simp [Replica.openGame, hs, Except.map] at hr
  | ok s =>
    simp only [Replica.openGame, hs, Except.map, Except.ok.injEq] at hr
    subst hr
    have hdrive : Replica.drive sc buildView
        { inst := { game := (Game.new s).start }
          store :=
          { memory := {}, writes := [(.save (Game.new s).start.state, .create opts.players)] } }
        [.complete, .resume, .complete, .resume] = some _ := rfl
    exact ⟨_, by rw [Replica.createGame, hs]; rfl, Replica.drive_trace sc buildView hdrive⟩

/-- The bus carries the events of the accepted commands, once each and numbered in the order of
submission; once every call has finished the store holds the state the accepted commands alone lead
to, and its view, with the result if there is one. -/
structure Lasting (sc : Scenario X P E)
    (buildView : GameState X P E → List Player → Option VictoryResult → V)
    (g₀ : Game X P E) (ms : List (Moment P E)) (r : Replica X P E V) : Prop where
  events : r.published.filter GameBusEvent.isEvent =
    ((calls ms).flatMap Game.Call.events).map busEvent
  seqs : (r.published.filter GameBusEvent.isEvent).map GameBusEvent.seq =
    List.range' 1 (r.published.filter GameBusEvent.isEvent).length
  state : r.Idle → r.store.memory.state = some (alone sc g₀ ms).state
  view : r.Idle → ∃ victory,
    r.store.memory.view = some (buildView (alone sc g₀ ms).state
      (alone sc g₀ ms).state.players.all victory) ∧
    (victory.isSome = true ↔ (alone sc g₀ ms).machine = .ended) ∧
    ∀ v, victory = some v → ∃ e ∈ (calls ms).flatMap Game.Call.events, e.body = .gameEnded v

theorem Live.lasting {g₀ : Game X P E} {ms : List (Moment P E)} {r : Replica X P E V}
    (h : Live sc opts buildView g₀ ms r) : Lasting sc buildView g₀ ms r := by
  obtain ⟨htracked, hposted, hstored⟩ := h
  have hmemory : r.Idle → eventual r.store = r.store.memory := Outbox.eventual_of_idle
  refine
    { events := by rw [hposted.events, htracked.results]
      seqs := ?_
      state := fun hidle => by rw [← hmemory hidle, hstored.state, htracked.game]
      view := fun hidle => ⟨verdict r.inst.game, ?_, ?_, ?_⟩ }
  · rw [hposted.events, List.length_map, List.map_map]
    have hseq : GameBusEvent.seq ∘ (busEvent (E := E) (V := V)) = (·.getD 0) ∘ GameEvent.seq := rfl
    rw [hseq, ← List.map_map, htracked.seqs, List.map_map]
    exact List.map_id _
  · have hsaving : saving r.store = [] := by
      have hidle' : r.store.waiting = [] := hidle
      rw [saving, hidle', List.filterMap_nil]
    rw [← hmemory hidle, hstored.view hsaving, htracked.game]
  · rw [htracked.game, htracked.verdict]
  · intro v hv
    obtain ⟨e, he, hbody⟩ := List.exists_of_findSome?_eq_some hv
    refine ⟨e, htracked.results ▸ he, ?_⟩
    unfold victoryOf at hbody
    split at hbody
    · rename_i hb
      rw [hb, Option.some.inj hbody]
    · cases hbody

end Engine

end Boardgame
