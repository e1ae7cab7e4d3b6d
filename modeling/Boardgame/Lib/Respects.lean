import Boardgame.Lib.Eff

/-!
# Lib.Respects

Relational rules for programs that change a state and may throw. A program respects a relation on
states if from related states it has the same outcome and leaves related states. With the relation
"the same but for what is not read" this is a frame rule: what a program does is independent of the
rest of the state.

* `Respects.bind`, `Respects.get`, `Respects.modify`, `Respects.when`: one rule per construct.
* `Respects.ok`: a run from one state is a run from every related one.
-/

namespace Eff

variable {ε σ α β : Type} {Q : σ → σ → Prop}

/-- The same value or the same error, and related states. -/
def SameOutcome (Q : σ → σ → Prop) : EStateM.Result ε σ α → EStateM.Result ε σ α → Prop
  | .ok a s, .ok b t => a = b ∧ Q s t
  | .error e s, .error e' t => e = e' ∧ Q s t
  | _, _ => False

def Respects (Q : σ → σ → Prop) (x : EStateM ε σ α) : Prop :=
  ∀ s t, Q s t → SameOutcome Q (x.run s) (x.run t)

namespace Respects

theorem ok {x : EStateM ε σ α} (h : Respects Q x) {s t s' : σ} {a : α} (hst : Q s t)
    (hrun : x.run s = .ok a s') : ∃ t', x.run t = .ok a t' ∧ Q s' t' := by
  have hsame := h s t hst
  rw [hrun] at hsame
  cases ht : x.run t with
  | ok b t' =>
    rw [ht] at hsame
    exact ⟨t', by rw [hsame.1], hsame.2⟩
  | error e t' =>
    rw [ht] at hsame
    exact hsame.elim

theorem pure (a : α) : Respects Q (Pure.pure a : EStateM ε σ α) := fun _ _ hst => ⟨rfl, hst⟩

theorem throw (e : ε) : Respects Q (MonadExcept.throw e : EStateM ε σ α) :=
  fun _ _ hst => ⟨rfl, hst⟩

theorem bind {x : EStateM ε σ α} {f : α → EStateM ε σ β} (hx : Respects Q x)
    (hf : ∀ a, Respects Q (f a)) :
    Respects Q (x >>= f) := by
  intro s t hst
  have hsame := hx s t hst
  rw [EStateM.run_bind, EStateM.run_bind]
  cases hs : x.run s <;> cases ht : x.run t <;> rw [hs, ht] at hsame
  · obtain ⟨rfl, hst'⟩ := hsame
    exact hf _ _ _ hst'
  · exact hsame.elim
  · exact hsame.elim
  · exact hsame

/-- What is read may differ, as long as the rest does the same with it. -/
theorem get {f : σ → EStateM ε σ β}
    (hf : ∀ s t, Q s t → SameOutcome Q ((f s).run s) ((f t).run t)) :
    Respects Q (MonadState.get >>= f) := hf

/-- A read of something related states agree on. -/
theorem read {γ : Type} (g : σ → γ) {f : γ → EStateM ε σ β} (hg : ∀ s t, Q s t → g s = g t)
    (hf : ∀ c, Respects Q (f c)) : Respects Q (MonadState.get >>= fun s => f (g s)) :=
  get fun s t hst => by
    rw [hg s t hst]
    exact hf _ s t hst

theorem modify {m : σ → σ} (hm : ∀ s t, Q s t → Q (m s) (m t)) :
    Respects Q (modify m : EStateM ε σ PUnit) := fun s t hst => ⟨rfl, hm s t hst⟩

theorem when {c : Prop} [Decidable c] {x : EStateM ε σ Unit} (hx : Respects Q x) :
    Respects Q (Eff.when c x) := by
  by_cases h : c
  · rw [when_true h]
    exact hx
  · rw [when_false h]
    exact pure ()

theorem liftExcept (x : Except ε α) : Respects Q (Eff.liftExcept x : EStateM ε σ α) := by
  cases x with
  | ok a => exact pure a
  | error e => exact throw e

end Respects

end Eff
