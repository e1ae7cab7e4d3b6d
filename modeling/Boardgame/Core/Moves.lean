import Boardgame.Core.Game

/-!
# Core.Moves

Calls on a game seen from outside: what each emits, whether the validator lets the action pass, and
what it leaves of the state.

* `Step.move`: a call either changes nothing but the status, or has the effect of an accepted action
  and emits its events.
* `emits_iff`: which scenario events a call emits.
-/

namespace Boardgame.Game

variable {X P E : Type}

/-- What is emitted between two moments of a game. -/
def newEvents (g g' : Game X P E) : List (GameEvent E) :=
  g'.events.emitted.drop g.events.emitted.length

def Emits (g g' : Game X P E) (x : E) : Prop :=
  ∃ e ∈ newEvents g g', e.body = .scenario x

theorem newEvents_append {g g' : Game X P E} {es : List (GameEvent E)}
    (h : g'.events.emitted = g.events.emitted ++ es) : newEvents g g' = es := by
  rw [newEvents, h, List.drop_left]

theorem newEvents_idle {g g' : Game X P E} (h : g'.events = g.events) : newEvents g g' = [] := by
  rw [newEvents, h, List.drop_length]

theorem not_emits {g g' : Game X P E} (h : g'.events = g.events) (x : E) : ¬ Emits g g' x := by
  rintro ⟨e, he, -⟩
  rw [newEvents_idle h] at he
  cases he

theorem emits_iff {g g' : Game X P E} {n : Nat} {evs tail : List (GameEvent E)}
    (h : newEvents g g' = stamp n evs ++ tail)
    (htail : ∀ e ∈ tail, ∃ victory, e.body = .gameEnded victory) {x : E} :
    Emits g g' x ↔ ∃ e ∈ evs, e.body = .scenario x := by
  rw [Emits, h]
  constructor
  · rintro ⟨e, he, hb⟩
    rcases List.mem_append.mp he with he | he
    · obtain ⟨e', he', hbody⟩ := mem_stamp he
      exact ⟨e', he', hbody ▸ hb⟩
    · obtain ⟨v, hv⟩ := htail e he
      rw [hb] at hv
      cases hv
  · rintro ⟨e, he, hb⟩
    obtain ⟨e', he', hbody⟩ := stamp_of_mem (n := n) he
    exact ⟨e', List.mem_append_left _ he', hbody.trans hb⟩

variable [HasType P]

/-- The validator lets the action pass. -/
def accepts (sc : Scenario X P E) (g : Game X P E) (a : Action P) : Bool :=
  (sc.validate g.state a).isOk

theorem accepts_iff {sc : Scenario X P E} {g : Game X P E} {a : Action P} :
    accepts sc g a = true ↔ sc.validate g.state a = .ok () := by
  unfold accepts
  cases sc.validate g.state a <;> simp [Except.isOk, Except.toBool]

/-- A relation between the state before an action, the events it emits and the state after. -/
abbrev EffectOf (X P E : Type) :=
  GameState X P E → Action P → List (GameEvent E) → GameState X P E → Prop

/-- What a call on a game is, when accepted actions have the effect `F`. -/
inductive Move (sc : Scenario X P E) (F : EffectOf X P E) (g : Game X P E) :
    Call P E → Game X P E → Prop where
  | idle {c : Call P E} {g' : Game X P E} {status : GamePhaseStatus} :
      (∀ a r, c = .submit a r → accepts sc g a = false) →
      g'.state = { g.state with status } → g'.events = g.events → Move sc F g c g'
  | acted {a : Action P} {r : Except JsError (ActionResult E)} {g' : Game X P E}
      {evs : List (GameEvent E)} {s' : GameState X P E} {status : GamePhaseStatus}
      {history : List (ActionHistoryEntry P E)} {tail : List (GameEvent E)} :
      accepts sc g a = true → F g.state a evs s' → g'.state = { s' with status, history } →
      g'.events.emitted = g.events.emitted ++ (stamp g.events.nextSeq evs ++ tail) →
      (∀ e ∈ tail, ∃ victory, e.body = .gameEnded victory) → Move sc F g (.submit a r) g'

theorem Step.move {sc : Scenario X P E} (hr : sc.rules = []) {F : EffectOf X P E}
    {g g' : Game X P E} {c : Call P E}
    (hF : ∀ a, sc.validate g.state a = .ok () →
      ∃ evs s', (sc.execute a).run g.state = .ok evs s' ∧ F g.state a evs s')
    (h : Step sc g c g') : Move sc F g c g' := by
  have hrefused : ∀ {a : Action P} {r}, sc.validate g.state a = .error r →
      accepts sc g a = false := by
    intro a r hv
    simp [accepts, hv, Except.isOk, Except.toBool]
  have hacted : ∀ {a : Action P} {evs s'}, sc.validate g.state a = .ok () →
      (sc.execute a).run g.state = .ok evs s' → F g.state a evs s' := by
    intro a evs s' hv hx
    obtain ⟨_, _, hx', heff⟩ := hF a hv
    rw [hx] at hx'
    cases hx'
    exact heff
  cases h.outcome hr with
  | started =>
    unfold Game.start
    split
    · exact .idle (by simp) (show _ = { g.state with status := .playing } from rfl) rfl
    · exact .idle (by simp) (show _ = { g.state with status := g.state.status } from rfl) rfl
  | rejected hv =>
    refine .idle (fun a r h => ?_) (show _ = { g.state with status := g.state.status } from rfl) rfl
    cases h
    exact hrefused hv
  | refused hv =>
    refine .idle (fun a r h => ?_) (show _ = { g.state with status := g.state.status } from rfl) rfl
    cases h
    exact hrefused hv
  | crashed hv hx =>
    obtain ⟨_, _, hx', -⟩ := hF _ hv
    rw [hx] at hx'
    cases hx'
  | @played a primary s hv hx =>
    exact .acted (accepts_iff.mpr hv) (hacted hv hx) rfl (by rw [List.append_nil]; rfl)
      (by simp)
  | @won a primary s victory hv hx =>
    refine .acted (accepts_iff.mpr hv) (hacted hv hx) rfl (List.append_assoc _ _ _) fun e he => ?_
    simp only [stamp, List.mem_singleton] at he
    exact ⟨victory, by rw [he]⟩
  | @stuck a primary s victory e hv hx =>
    exact .acted (accepts_iff.mpr hv) (hacted hv hx) rfl (by rw [List.append_nil]; rfl)
      (by simp)

theorem RunFrom.append {sc : Scenario X P E} {opts : GameSetupOptions}
    {calls later : List (Call P E)} {g g' : Game X P E} (h : RunFrom sc opts calls g)
    (hlater : Trace (Step sc) g later g') :
    RunFrom sc opts (calls ++ later) g' := by
  obtain ⟨s, hs, htr⟩ := h
  exact ⟨s, hs, htr.append hlater⟩

theorem RunFrom.snoc {sc : Scenario X P E} {opts : GameSetupOptions} {calls : List (Call P E)}
    {g g' : Game X P E} {c : Call P E} (h : RunFrom sc opts calls g) (hstep : Step sc g c g') :
    RunFrom sc opts (calls ++ [c]) g' :=
  h.append (.single hstep)

theorem RunFrom.extend {sc : Scenario X P E} {opts : GameSetupOptions} {calls : List (Call P E)}
    {g g' : Game X P E} (h : RunFrom sc opts calls g) {rs : List (Record (Game X P E) (Call P E))}
    (hrs : Trace (Recorded (Step sc)) g rs g') :
    RunFrom sc opts (calls ++ rs.map Record.label) g' :=
  h.append (Recorded.trace hrs)

end Boardgame.Game
