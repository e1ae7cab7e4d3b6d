import Boardgame.Lib.Trace
import Boardgame.Core.State

/-!
# Core.Game

`Game.submit` and what it is made of: the registries, `RuleEngine.process`, the event emitter and
the status machine. `submit` runs in `EStateM JsError`, so a call that throws half-way leaves the
game as far as it got.

* `submit_rejected`, `submit_threw`: the two ways out before anything changes.
* `submit_no_rules`: an accepted action of a scenario without rules, with the three outcomes the
  victory check and the status machine leave open.
* `Game.Step`: the labelled steps of a game, whatever each call returns.
-/

namespace Boardgame

variable {X P E : Type}

/-! ## Registries -/

def Scenario.validate [HasType P] (sc : Scenario X P E) (s : GameState X P E) (a : Action P) :
    Except Refusal Unit :=
  match sc.validators.find? (·.type = a.type) with
  | none => .error (.rejected ⟨"unknown-action", "No validator for action: " ++ a.type⟩)
  | some v => v.validate s a

def Scenario.execute [HasType P] (sc : Scenario X P E) (a : Action P) :
    Exec X P E (List (GameEvent E)) :=
  match sc.executors.find? (·.type = a.type) with
  | none => throw ⟨"No executor for action: " ++ a.type⟩
  | some e => e.execute a

/-- `VictoryConditionRegistry.evaluate`: the first condition that answers. -/
def Scenario.evaluate (sc : Scenario X P E) (s : GameState X P E) : Option VictoryResult :=
  sc.victoryConditions.findSome? fun c => c.evaluate s

namespace RuleEngine

/-- One event through every rule, in registration order. -/
def handle (rules : List (Rule X P E)) (event : GameEvent E) : Exec X P E (List (GameEvent E)) :=
  Eff.collect (fun rule => rule.onEvent event) rules

/-- The `while` loop, with `safety` passes left. -/
def loop (rules : List (Rule X P E)) :
    Nat → List (GameEvent E) → List (GameEvent E) → Exec X P E (List (GameEvent E))
  | _, [], out => pure out
  | 0, _ :: _, _ => throw ⟨"Rule engine cycle limit exceeded"⟩
  | safety + 1, next :: queue, out => do
    let follow ← handle rules next
    loop rules safety (queue ++ follow) (out ++ follow)

def process (rules : List (Rule X P E)) (event : GameEvent E) : Exec X P E (List (GameEvent E)) :=
  loop rules 1000 [event] []

theorem process_nil (event : GameEvent E) (s : GameState X P E) :
    (process [] event).run s = .ok [] s := rfl

end RuleEngine

/-! ## The game -/

/-- The emitter: the next sequence number and every event its wildcard listeners have seen. -/
structure GameEventEmitter (E : Type) where
  nextSeq : Nat := 1
  emitted : List (GameEvent E) := []
  deriving DecidableEq

structure Game (X P E : Type) where
  state : GameState X P E
  machine : GamePhaseStatus
  events : GameEventEmitter E

abbrev ActionResult (E : Type) := Except ActionError (List (GameEvent E))

namespace Game

/-- The constructor. -/
def new (state : GameState X P E) : Game X P E := { state, machine := state.status, events := {} }

def start (g : Game X P E) : Game X P E :=
  if g.machine = .setup then
    { g with machine := .playing, state := { g.state with status := .playing } }
  else g

def emit (e : GameEvent E) : EStateM JsError (Game X P E) (GameEvent E) :=
  modifyGet fun g =>
    let stamped := { e with seq := some g.events.nextSeq }
    (stamped, { g with events := ⟨g.events.nextSeq + 1, g.events.emitted ++ [stamped]⟩ })

/-- `events.map((e) => this.events.emit(e))`. -/
def emitAll : List (GameEvent E) → EStateM JsError (Game X P E) (List (GameEvent E))
  | [] => pure []
  | e :: es => do
    let stamped ← emit e
    let rest ← emitAll es
    return stamped :: rest

def onState {α : Type} (x : Exec X P E α) : EStateM JsError (Game X P E) α :=
  Eff.zoom Game.state (fun s g => { g with state := s }) x

/-- `ActionHistory.append`. -/
def record (action : Action P) (events : List (GameEvent E)) (s : GameState X P E) :
    GameState X P E :=
  { s with history := s.history ++ [⟨s.history.length + 1, action, events⟩] }

variable [HasType P]

def submit (sc : Scenario X P E) (action : Action P) :
    EStateM JsError (Game X P E) (ActionResult E) := do
  match sc.validate (← get).state action with
  | .error (.rejected error) => return .error error
  | .error (.threw e) => throw e
  | .ok () =>
    let primary ← onState (sc.execute action)
    let stamped ← emitAll primary
    let followUps ← Eff.collect (fun e => onState (RuleEngine.process sc.rules e)) stamped
    let stampedFollow ← emitAll followUps
    let all := stamped ++ stampedFollow
    modify fun g => { g with state := record action all g.state }
    match sc.evaluate (← get).state with
    | none => return .ok all
    | some victory =>
      let machine ← Eff.liftExcept ((← get).machine.transitionTo .ended)
      modify fun g => { g with machine, state := { g.state with status := .ended } }
      let ended ← emit { body := .gameEnded victory }
      return .ok (all ++ [ended])

/-! ## What a call does -/

/-- The events as the emitter stamps them, from sequence number `n`. -/
def stamp (n : Nat) : List (GameEvent E) → List (GameEvent E)
  | [] => []
  | e :: es => { e with seq := some n } :: stamp (n + 1) es

theorem stamp_length (es : List (GameEvent E)) : ∀ n, (stamp n es).length = es.length := by
  induction es with
  | nil => intro n; rfl
  | cons e es ih => intro n; simp [stamp, ih]

theorem mem_stamp {e : GameEvent E} {es : List (GameEvent E)} :
    ∀ {n}, e ∈ stamp n es → ∃ e' ∈ es, e.body = e'.body := by
  induction es with
  | nil => intro n h; cases h
  | cons x xs ih =>
    intro n h
    rcases List.mem_cons.mp h with rfl | h
    · exact ⟨x, List.mem_cons_self, rfl⟩
    · obtain ⟨e', he', hb⟩ := ih h
      exact ⟨e', List.mem_cons_of_mem _ he', hb⟩

theorem stamp_of_mem {e : GameEvent E} {es : List (GameEvent E)} (h : e ∈ es) :
    ∀ {n}, ∃ e' ∈ stamp n es, e'.body = e.body := by
  induction es with
  | nil => cases h
  | cons x xs ih =>
    intro n
    rcases List.mem_cons.mp h with rfl | h
    · exact ⟨_, List.mem_cons_self, rfl⟩
    · obtain ⟨e', he', hb⟩ := ih h (n := n + 1)
      exact ⟨e', List.mem_cons_of_mem _ he', hb⟩

/-- The stamps are consecutive. -/
theorem stamp_seqs (es : List (GameEvent E)) :
    ∀ n, (stamp n es).map GameEvent.seq = (List.range' n es.length).map some := by
  induction es with
  | nil => intro n; rfl
  | cons e es ih => intro n; simp [stamp, ih, List.range'_succ]

/-- What does not look at sequence numbers does not see the stamps. -/
theorem filterMap_stamp {α : Type} (f : GameEvent E → Option α)
    (hf : ∀ e n, f { e with seq := n } = f e) (es : List (GameEvent E)) :
    ∀ {n}, (stamp n es).filterMap f = es.filterMap f := by
  induction es with
  | nil => intro n; rfl
  | cons e es ih => intro n; simp [stamp, List.filterMap_cons, hf, ih]

/-- The game after emitting `es`. -/
def emitted (g : Game X P E) (es : List (GameEvent E)) : Game X P E :=
  { g with events := ⟨g.events.nextSeq + es.length, g.events.emitted ++ stamp g.events.nextSeq es⟩ }

omit [HasType P] in
theorem emitAll_run (es : List (GameEvent E)) :
    ∀ g : Game X P E, (emitAll es).run g = .ok (stamp g.events.nextSeq es) (g.emitted es) := by
  induction es with
  | nil => intro g; simp [emitAll, stamp, emitted]
  | cons e es ih =>
    intro g
    have h₁ : (emit e).run g = .ok { e with seq := some g.events.nextSeq } (g.emitted [e]) := rfl
    rw [emitAll, Eff.bind_ok h₁, Eff.bind_ok (ih _), EStateM.run_pure]
    simp [stamp, emitted, Nat.add_assoc, Nat.add_comm 1]

omit [HasType P] in
theorem collect_process_nil (es : List (GameEvent E)) (g : Game X P E) :
    (Eff.collect (fun e => onState (RuleEngine.process ([] : List (Rule X P E)) e)) es).run g =
      .ok [] g := by
  induction es with
  | nil => rfl
  | cons e es ih =>
    have h : (onState (RuleEngine.process ([] : List (Rule X P E)) e)).run g = .ok [] g :=
      Eff.zoom_ok (RuleEngine.process_nil e g.state)
    rw [Eff.collect, Eff.bind_ok h, Eff.bind_ok ih]
    rfl

variable {sc : Scenario X P E} {g : Game X P E} {a : Action P}

theorem submit_rejected {e : ActionError} (h : sc.validate g.state a = .error (.rejected e)) :
    (submit sc a).run g = .ok (.error e) g := by
  simp [submit, h]

theorem submit_threw {e : JsError} (h : sc.validate g.state a = .error (.threw e)) :
    (submit sc a).run g = .error e g := by
  simp only [submit, EStateM.run_bind, EStateM.run_get, h]
  rfl

/-- The game once an accepted action has been executed, emitted and recorded. -/
def executed (g : Game X P E) (a : Action P) (primary : List (GameEvent E)) (s : GameState X P E) :
    Game X P E :=
  { g.emitted primary with state := record a (stamp g.events.nextSeq primary) s }

/-- An accepted action, when no rule follows up: the executor's events are emitted and recorded,
and then either nobody has won, or the game ends, or the status machine throws. -/
theorem submit_no_rules (hr : sc.rules = []) {s : GameState X P E} {primary : List (GameEvent E)}
    (hv : sc.validate g.state a = .ok ()) (hx : (sc.execute a).run g.state = .ok primary s) :
    (submit sc a).run g =
      let g₁ := g.executed a primary s
      let all := stamp g.events.nextSeq primary
      match sc.evaluate g₁.state with
      | none => .ok (.ok all) g₁
      | some victory =>
        match g.machine.transitionTo .ended with
        | .error e => .error e g₁
        | .ok machine =>
          let ended : GameEvent E := { body := .gameEnded victory, seq := some g₁.events.nextSeq }
          .ok (.ok (all ++ [ended]))
            { g₁ with
              machine
              state := { g₁.state with status := .ended }
              events := ⟨g₁.events.nextSeq + 1, g₁.events.emitted ++ [ended]⟩ } := by
  have h₁ : (onState (sc.execute a)).run g = .ok primary { g with state := s } := Eff.zoom_ok hx
  have h₂ := emitAll_run (P := P) primary { g with state := s }
  have h₃ := collect_process_nil (X := X) (P := P) (stamp g.events.nextSeq primary)
    (emitted { g with state := s } primary)
  have h₄ := emitAll_run (P := P) ([] : List (GameEvent E)) (emitted { g with state := s } primary)
  simp only [submit, EStateM.run_bind, EStateM.run_get, hv, h₁, h₂, hr, h₃, h₄, stamp,
    EStateM.run_modify, List.append_nil]
  simp only [executed, emitted, List.length_nil, Nat.add_zero, stamp, List.append_nil]
  cases sc.evaluate (record a (stamp g.events.nextSeq primary) s) with
  | none => rfl
  | some v =>
    simp only [EStateM.run_bind, EStateM.run_get]
    cases g.machine.transitionTo .ended with
    | error e => rfl
    | ok machine => rfl

/-- An executor that throws leaves the state it had reached, with nothing emitted or recorded. -/
theorem submit_executor_threw {s : GameState X P E} {e : JsError}
    (hv : sc.validate g.state a = .ok ()) (hx : (sc.execute a).run g.state = .error e s) :
    (submit sc a).run g = .error e { g with state := s } := by
  have h₁ : (onState (sc.execute a)).run g = .error e { g with state := s } := Eff.zoom_error hx
  simp only [submit, EStateM.run_bind, EStateM.run_get, hv, h₁]

/-! ## Runs -/

/-- A call on a game: `start`, or a `submit` with what it returned or threw. -/
inductive Call (P E : Type) where
  | start
  | submit (action : Action P) (result : Except JsError (ActionResult E))

/-- One call, whatever its outcome. -/
inductive Step (sc : Scenario X P E) : Game X P E → Call P E → Game X P E → Prop where
  | start {g : Game X P E} : Step sc g .start g.start
  | returned {g g' : Game X P E} {a : Action P} {r : ActionResult E} :
      (submit sc a).run g = .ok r g' → Step sc g (.submit a (.ok r)) g'
  | threw {g g' : Game X P E} {a : Action P} {e : JsError} :
      (submit sc a).run g = .error e g' → Step sc g (.submit a (.error e)) g'

/-- What a call does, when the scenario has no rules: it starts the game, is refused before anything
changes, stops half-way in its executor, or is played; a played action may end the game, or meet a
status machine that has ended already. -/
inductive Outcome (sc : Scenario X P E) (g : Game X P E) : Call P E → Game X P E → Prop where
  | started : Outcome sc g .start g.start
  | rejected {a : Action P} {e : ActionError} :
      sc.validate g.state a = .error (.rejected e) →
      Outcome sc g (.submit a (.ok (.error e))) g
  | refused {a : Action P} {e : JsError} :
      sc.validate g.state a = .error (.threw e) → Outcome sc g (.submit a (.error e)) g
  | crashed {a : Action P} {e : JsError} {s : GameState X P E} :
      sc.validate g.state a = .ok () → (sc.execute a).run g.state = .error e s →
      Outcome sc g (.submit a (.error e)) { g with state := s }
  | played {a : Action P} {primary : List (GameEvent E)} {s : GameState X P E} :
      sc.validate g.state a = .ok () → (sc.execute a).run g.state = .ok primary s →
      sc.evaluate (g.executed a primary s).state = none →
      Outcome sc g (.submit a (.ok (.ok (stamp g.events.nextSeq primary)))) (g.executed a primary s)
  | won {a : Action P} {primary : List (GameEvent E)} {s : GameState X P E}
      {victory : VictoryResult} :
      sc.validate g.state a = .ok () → (sc.execute a).run g.state = .ok primary s →
      sc.evaluate (g.executed a primary s).state = some victory → g.machine ≠ .ended →
      Outcome sc g
        (.submit a
          (.ok (.ok (stamp g.events.nextSeq (primary ++ [{ body := .gameEnded victory }])))))
        { emitted (g.executed a primary s) [{ body := .gameEnded victory }] with
          machine := .ended
          state := { (g.executed a primary s).state with status := .ended } }
  | stuck {a : Action P} {primary : List (GameEvent E)} {s : GameState X P E}
      {victory : VictoryResult} {e : JsError} :
      sc.validate g.state a = .ok () → (sc.execute a).run g.state = .ok primary s →
      sc.evaluate (g.executed a primary s).state = some victory → g.machine = .ended →
      Outcome sc g (.submit a (.error e)) (g.executed a primary s)

theorem transitionTo_ended (m : GamePhaseStatus) :
    (m ≠ .ended ∧ m.transitionTo .ended = .ok .ended) ∨
      (m = .ended ∧ ∃ e, m.transitionTo .ended = .error e) := by
  cases m with
  | ended => exact .inr ⟨rfl, _, rfl⟩
  | _ => exact .inl ⟨by decide, rfl⟩

theorem stamp_append (es es' : List (GameEvent E)) :
    ∀ n, stamp n (es ++ es') = stamp n es ++ stamp (n + es.length) es' := by
  induction es with
  | nil => intro n; rfl
  | cons e es ih => intro n; simp [stamp, ih, Nat.add_assoc, Nat.add_comm 1]

theorem Step.outcome (hr : sc.rules = []) {c : Call P E} {g' : Game X P E} (h : Step sc g c g') :
    Outcome sc g c g' := by
  have hcases : ∀ a res, (submit sc a).run g = res →
      (∀ r g', res = .ok r g' → Outcome sc g (.submit a (.ok r)) g') ∧
        ∀ e g', res = .error e g' → Outcome sc g (.submit a (.error e)) g' := by
    intro a res hres
    cases hv : sc.validate g.state a with
    | error ref =>
      cases ref with
      | rejected e =>
        rw [submit_rejected hv] at hres
        subst hres
        exact ⟨fun r g' h => by cases h; exact .rejected hv, fun e g' h => by cases h⟩
      | threw e =>
        rw [submit_threw hv] at hres
        subst hres
        exact ⟨fun r g' h => (by cases h), fun e g' h => by cases h; exact .refused hv⟩
    | ok u =>
      cases hx : (sc.execute a).run g.state with
      | error e s =>
        rw [submit_executor_threw hv hx] at hres
        subst hres
        exact ⟨fun r g' h => (by cases h), fun e g' h => by cases h; exact .crashed hv hx⟩
      | ok primary s =>
        rw [submit_no_rules hr hv hx] at hres
        cases hev : sc.evaluate (g.executed a primary s).state with
        | none =>
          simp only [hev] at hres
          subst hres
          exact ⟨fun r g' h => by cases h; exact .played hv hx hev, fun e g' h => (by cases h)⟩
        | some victory =>
          simp only [hev] at hres
          rcases transitionTo_ended g.machine with ⟨hm, ht⟩ | ⟨hm, e, ht⟩
          · simp only [ht] at hres
            subst hres
            refine ⟨fun r g' h => ?_, fun e g' h => (by cases h)⟩
            cases h
            have := Outcome.won hv hx hev hm
            rw [stamp_append] at this
            exact this
          · simp only [ht] at hres
            subst hres
            exact ⟨fun r g' h => (by cases h), fun e g' h => by cases h; exact .stuck hv hx hev hm⟩
  cases h with
  | start => exact .started
  | returned h => exact (hcases _ _ rfl).1 _ _ h
  | threw h => exact (hcases _ _ rfl).2 _ _ h

/-- The rule for state invariants: they ignore the status and the history, and every accepted
action's executor runs to its end and keeps them. -/
theorem state_inv (hr : sc.rules = []) {I : GameState X P E → Prop}
    (frame : ∀ s status history, I s → I { s with status, history })
    (keep : ∀ s a, I s → sc.validate s a = .ok () →
      ∃ evs s', (sc.execute a).run s = .ok evs s' ∧ I s')
    {g g' : Game X P E} {calls : List (Call P E)} (h : Trace (Step sc) g calls g')
    (h₀ : I g.state) : I g'.state := by
  refine h.inv (I := fun g => I g.state) (fun g c g' hI hs => ?_) h₀
  have hkeep : ∀ {a evs s}, sc.validate g.state a = .ok () →
      (sc.execute a).run g.state = .ok evs s → I s := by
    intro a evs s hv hx
    obtain ⟨_, _, hx', hI'⟩ := keep _ _ hI hv
    rw [hx] at hx'
    cases hx'
    exact hI'
  cases hs.outcome hr with
  | started =>
    unfold Game.start
    split
    · exact frame g.state .playing g.state.history hI
    · exact hI
  | rejected _ => exact hI
  | refused _ => exact hI
  | crashed hv hx =>
    obtain ⟨_, _, hx', -⟩ := keep _ _ hI hv
    rw [hx] at hx'
    cases hx'
  | @played a primary s hv hx _ => exact frame s s.status _ (hkeep hv hx)
  | @won a primary s victory hv hx _ _ => exact frame s .ended _ (hkeep hv hx)
  | @stuck a primary s victory e hv hx _ _ => exact frame s s.status _ (hkeep hv hx)

/-- `calls` lead from the fresh game of `opts` to `g`. -/
def RunFrom (sc : Scenario X P E) (opts : GameSetupOptions) (calls : List (Call P E))
    (g : Game X P E) : Prop :=
  ∃ s, createGameState sc opts = .ok s ∧ Trace (Step sc) (new s) calls g

/-! ## Replaying -/

/-- What a caller asks of a game. -/
inductive Request (P : Type) where
  | start
  | submit (action : Action P)

def respond (sc : Scenario X P E) (g : Game X P E) : Request P → Call P E × Game X P E
  | .start => (.start, g.start)
  | .submit a =>
    match (submit sc a).run g with
    | .ok r g' => (.submit a (.ok r), g')
    | .error e g' => (.submit a (.error e), g')

def replay (sc : Scenario X P E) : Game X P E → List (Request P) → List (Call P E) × Game X P E
  | g, [] => ([], g)
  | g, r :: rs =>
    let next := respond sc g r
    let rest := replay sc next.2 rs
    (next.1 :: rest.1, rest.2)

/-- A whole game from its setup. -/
def play (sc : Scenario X P E) (opts : GameSetupOptions) (rs : List (Request P)) :
    Except JsError (List (Call P E) × Game X P E) :=
  (createGameState sc opts).map fun s => replay sc (new s) rs

theorem respond_step (sc : Scenario X P E) (g : Game X P E) (r : Request P) :
    Step sc g (respond sc g r).1 (respond sc g r).2 := by
  cases r with
  | start => exact .start
  | submit a =>
    simp only [respond]
    cases h : (submit sc a).run g with
    | ok r g' => exact .returned h
    | error e g' => exact .threw h

/-- Any action can be submitted. -/
theorem submits (sc : Scenario X P E) (g : Game X P E) (a : Action P) :
    ∃ r g', Step sc g (.submit a r) g' := by
  cases h : (submit sc a).run g with
  | ok r g' => exact ⟨_, _, .returned h⟩
  | error e g' => exact ⟨_, _, .threw h⟩

/-- `respond`, as a film takes it. -/
def turn (sc : Scenario X P E) (g : Game X P E) (r : Request P) : Option (Call P E × Game X P E) :=
  some (respond sc g r)

theorem turn_step {g g' : Game X P E} {r : Request P} {c : Call P E}
    (h : turn sc g r = some (c, g')) :
    Step sc g c g' := by
  have hr := respond_step sc g r
  rw [Option.some.inj h] at hr
  exact hr

theorem replay_trace (rs : List (Request P)) :
    ∀ g : Game X P E, Trace (Step sc) g (replay sc g rs).1 (replay sc g rs).2 := by
  induction rs with
  | nil => intro g; exact .nil
  | cons r rs ih => intro g; exact .cons (respond_step sc g r) (ih _)

theorem replay_append (rs rs' : List (Request P)) : ∀ g : Game X P E,
    replay sc g (rs ++ rs') =
      ((replay sc g rs).1 ++ (replay sc (replay sc g rs).2 rs').1,
        (replay sc (replay sc g rs).2 rs').2) := by
  induction rs with
  | nil => intro g; rfl
  | cons r rs ih => intro g; simp only [List.cons_append, replay, ih]

theorem play_run {opts : GameSetupOptions} {rs : List (Request P)}
    (h : (play sc opts rs).isOk = true) :
    ∃ r, play sc opts rs = .ok r ∧ RunFrom sc opts r.1 r.2 := by
  cases hs : createGameState sc opts with
  | error e => simp [play, hs, Except.map, Except.isOk, Except.toBool] at h
  | ok s =>
    exact ⟨replay sc (new s) rs, by simp [play, hs, Except.map], s, hs, replay_trace rs _⟩

/-- The run of a whole game, with what is observed of it. -/
theorem play_observed {α : Type} {opts : GameSetupOptions} {rs : List (Request P)}
    {f : List (Call P E) × Game X P E → α} {x : α} (h : (play sc opts rs).toOption.map f = some x) :
    ∃ r, play sc opts rs = .ok r ∧ RunFrom sc opts r.1 r.2 ∧ f r = x := by
  cases hp : play sc opts rs with
  | error e =>
    rw [hp] at h
    cases h
  | ok r =>
    rw [hp] at h
    have hok : (play sc opts rs).isOk = true := by rw [hp]; rfl
    obtain ⟨r', hr', hrun⟩ := play_run hok
    rw [hp, Except.ok.injEq] at hr'
    exact ⟨r, rfl, hr' ▸ hrun, Option.some.inj h⟩

end Game

end Boardgame
