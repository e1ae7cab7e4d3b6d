import Boardgame.Core.Moves

/-!
# Core.Frozen

Submits that change nothing, in any scenario. Nothing in `submit` looks at the status before it
executes: a submit is refused when the validator rejects the action, and only then.

* `refused_iff`: which submits return `ok: false`.
* `frozen_submits`: which submits leave a game as it is.
* `overruns`: what becomes of an accepted action after the end.
-/

namespace Boardgame.Game

variable {X P E : Type}

/-- A call that returns `ok: true`, or throws. -/
def Delivers (x : EStateM JsError (Game X P E) (ActionResult E)) : Prop :=
  ∀ g e g', x.run g ≠ .ok (.error e) g'

theorem Delivers.bind {α : Type} {m : EStateM JsError (Game X P E) α}
    {f : α → EStateM JsError (Game X P E) (ActionResult E)} (hf : ∀ a, Delivers (f a)) :
    Delivers (m >>= f) := by
  intro g e g' h
  obtain ⟨a, g₁, _, h₁⟩ := Eff.bind_eq_ok.mp h
  exact hf a g₁ e g' h₁

theorem Delivers.pure (es : List (GameEvent E)) :
    Delivers (Pure.pure (.ok es) : EStateM JsError (Game X P E) (ActionResult E)) :=
  fun _ _ _ h => by cases h

variable [HasType P] {sc : Scenario X P E}

/-- The validator returns an `ActionError`. -/
def Rejects (sc : Scenario X P E) (g : Game X P E) (a : Action P) : Prop :=
  ∃ e, sc.validate g.state a = .error (.rejected e)

theorem validated_of_refused {g g' : Game X P E} {a : Action P} {e : ActionError}
    (h : (submit sc a).run g = .ok (.error e) g') : sc.validate g.state a = .error (.rejected e) ∧
    g' = g := by
  cases hv : sc.validate g.state a with
  | error r =>
    cases r with
    | rejected e' =>
      rw [submit_rejected hv] at h
      cases h
      exact ⟨rfl, rfl⟩
    | threw e' =>
      rw [submit_threw hv] at h
      cases h
  | ok u =>
    have hget : (get : EStateM JsError (Game X P E) (Game X P E)).run g = .ok g g := rfl
    rw [submit, Eff.bind_ok hget, hv] at h
    -- past the validator nothing returns an error any more
    refine absurd h (Delivers.bind (fun primary => .bind fun stamped => .bind fun followUps =>
      .bind fun stampedFollow => .bind fun _ => .bind fun g₁ => ?_) g e g')
    cases sc.evaluate g₁.state with
    | none => exact .pure _
    | some victory => exact .bind fun g₂ => .bind fun m => .bind fun _ => .bind fun ended => .pure _

/-- A submit returns `ok: false` exactly when the validator rejects the action, and then it has
changed nothing. -/
theorem refused_iff {g g' : Game X P E} {a : Action P} {r : Except JsError (ActionResult E)}
    (h : Step sc g (.submit a r) g') : (∃ e, r = .ok (.error e)) ↔ Rejects sc g a := by
  constructor
  · rintro ⟨e, rfl⟩
    cases h with
    | returned h => exact ⟨e, (validated_of_refused h).1⟩
  · rintro ⟨e, he⟩
    have hrun := submit_rejected (g := g) he
    cases h with
    | returned h =>
      rw [hrun] at h
      cases h
      exact ⟨e, rfl⟩
    | threw h =>
      rw [hrun] at h
      cases h

theorem refused_same {g g' : Game X P E} {a : Action P} {e : ActionError}
    (h : Step sc g (.submit a (.ok (.error e))) g') : g' = g := by
  cases h with
  | returned h => exact (validated_of_refused h).2

def isGameEnded (e : GameEvent E) : Bool :=
  match e.body with
  | .gameEnded _ => true
  | .scenario _ => false

/-- The call is a submit that returns a `game-ended` event. -/
def endsGame : Call P E → Bool
  | .submit _ (.ok (.ok evs)) => evs.any isGameEnded
  | _ => false

/-- Some submit has returned a `game-ended` event. -/
def Ended (calls : List (Call P E)) : Prop := ∃ c ∈ calls, endsGame c = true

/-- Every later submit returns `ok: false`, and the game (its state, its history and its event
stream) stays what it was. -/
def Frozen (g : Game X P E) (later : List (Call P E)) (g' : Game X P E) : Prop :=
  g' = g ∧ ∀ a r, Call.submit a r ∈ later → ∃ e, r = .ok (.error e)

/-- What is submitted leaves a game that does not start again frozen if and only if its validators
reject all of it. -/
theorem frozen_submits {g g' : Game X P E} {later : List (Call P E)}
    (h : Trace (Step sc) g later g') (hstart : g.start = g) :
    Frozen g later g' ↔ ∀ a r, Call.submit a r ∈ later → Rejects sc g a := by
  induction h with
  | nil => simp [Frozen]
  | @cons g g₁ g' c cs hstep htr ih =>
    cases c with
    | start =>
      have hsame : g₁ = g := by
        cases hstep
        exact hstart
      subst hsame
      simpa [Frozen] using ih hstart
    | submit a r =>
      constructor
      · rintro ⟨rfl, hall⟩
        obtain ⟨e, rfl⟩ := hall a r List.mem_cons_self
        obtain rfl := refused_same hstep
        have hrest := (ih hstart).mp ⟨rfl, fun a' r' h' => hall a' r' (List.mem_cons_of_mem _ h')⟩
        intro a' r' h'
        rcases List.mem_cons.mp h' with heq | h'
        · cases heq
          exact (refused_iff hstep).mp ⟨e, rfl⟩
        · exact hrest a' r' h'
      · intro hall
        obtain ⟨e, rfl⟩ := (refused_iff hstep).mpr (hall a r List.mem_cons_self)
        obtain rfl := refused_same hstep
        obtain ⟨rfl, hrest⟩ := (ih hstart).mpr fun a' r' h' =>
          hall a' r' (List.mem_cons_of_mem _ h')
        refine ⟨rfl, fun a' r' h' => ?_⟩
        rcases List.mem_cons.mp h' with heq | h'
        · cases heq
          exact ⟨e, rfl⟩
        · exact hrest a' r' h'

omit [HasType P] in
theorem start_ended {g : Game X P E} (hm : g.machine = .ended) : g.start = g := by
  rw [start, hm]
  rfl

/-- The action comes too late, and is not refused: the call throws, with the action recorded and its
events emitted. -/
def Overruns (sc : Scenario X P E) (g : Game X P E) (a : Action P) : Prop :=
  ∃ e g' events, (submit sc a).run g = .error e g' ∧
    g'.state.history = g.state.history ++ [⟨g.state.history.length + 1, a, events⟩] ∧
    g'.events.emitted = g.events.emitted ++ events

/-- An accepted action of a game that has ended, and is still decided after it. -/
theorem overruns {g : Game X P E} {a : Action P} {primary : List (GameEvent E)}
    {s : GameState X P E} (hr : sc.rules = []) (hm : g.machine = .ended)
    (hv : sc.validate g.state a = .ok ()) (hx : (sc.execute a).run g.state = .ok primary s)
    (hhist : s.history = g.state.history)
    (hdecided : (sc.evaluate (g.executed a primary s).state).isSome = true) : Overruns sc g a := by
  obtain ⟨victory, hev⟩ := Option.isSome_iff_exists.mp hdecided
  obtain ⟨e, he⟩ : ∃ e, g.machine.transitionTo .ended = .error e := by
    rw [hm]
    exact ⟨_, rfl⟩
  have hrun := submit_no_rules (g := g) hr hv hx
  simp only [hev, he] at hrun
  exact ⟨e, _, _, hrun, by rw [← hhist]; rfl, rfl⟩

end Boardgame.Game
