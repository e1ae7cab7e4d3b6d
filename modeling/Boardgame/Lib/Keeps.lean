import Boardgame.Lib.Eff

/-!
# Lib.Keeps

Invariant rules for programs that change a state and may throw. `Keeps I Q x` says that if the
program `x` returns from a state with `I`, it leaves one with `I`, and what it returns has `Q`. It
promises nothing about a run that throws.

* `Keeps.bind`, `Keeps.get`, `Keeps.modify`, `Keeps.when`, `Keeps.each`, `Keeps.collect`: one rule
  per construct.
-/

namespace Eff

variable {ε σ α β : Type} {I : σ → Prop}

def Keeps (I : σ → Prop) (Q : α → Prop) (x : EStateM ε σ α) : Prop :=
  ∀ s a s', I s → x.run s = .ok a s' → I s' ∧ Q a

namespace Keeps

variable {Q : α → Prop} {Q' : β → Prop}

theorem pure {a : α} (h : Q a) : Keeps I Q (Pure.pure a : EStateM ε σ α) := by
  intro s b s' hs hrun
  cases hrun
  exact ⟨hs, h⟩

theorem throw (e : ε) : Keeps I Q (MonadExcept.throw e : EStateM ε σ α) := by
  intro s b s' _ hrun
  cases hrun

/-- Nothing is said of the state, or of what is returned. -/
theorem any (x : EStateM ε σ α) : Keeps (fun _ => True) (fun _ => True) x :=
  fun _ _ _ _ _ => ⟨trivial, trivial⟩

theorem bind {x : EStateM ε σ α} {f : α → EStateM ε σ β} (hx : Keeps I Q x)
    (hf : ∀ a, Q a → Keeps I Q' (f a)) :
    Keeps I Q' (x >>= f) := by
  intro s b s' hs hrun
  obtain ⟨a, s₁, h₁, h₂⟩ := bind_eq_ok.mp hrun
  obtain ⟨hs₁, ha⟩ := hx s a s₁ hs h₁
  exact hf a ha s₁ b s' hs₁ h₂

/-- A program followed by another that does not look at what it returned. -/
theorem seq {x : EStateM ε σ α} {y : EStateM ε σ β} (hx : Keeps I Q x) (hy : Keeps I Q' y) :
    Keeps I Q' (x >>= fun _ => y) := bind hx fun _ _ => hy

/-- The state that is read has the invariant. -/
theorem get {f : σ → EStateM ε σ β} (hf : ∀ s, I s → Keeps I Q' (f s)) :
    Keeps I Q' (MonadState.get >>= f) :=
  fun s b s' hs hrun => hf s hs s b s' hs hrun

theorem set {s : σ} (h : I s) : Keeps I (fun _ => True) (MonadState.set s : EStateM ε σ PUnit) := by
  intro s₁ b s' _ hrun
  cases hrun
  exact ⟨h, trivial⟩

theorem modify {m : σ → σ} (hm : ∀ s, I s → I (m s)) :
    Keeps I (fun _ => True) (modify m : EStateM ε σ PUnit) := by
  intro s b s' hs hrun
  cases hrun
  exact ⟨hm s hs, trivial⟩

theorem liftExcept {x : Except ε α} (hx : ∀ a, x = .ok a → Q a) :
    Keeps I Q (liftExcept x : EStateM ε σ α) := by
  cases x with
  | ok a => exact pure (hx a rfl)
  | error e => exact throw e

theorem when {c : Prop} [Decidable c] {x : EStateM ε σ Unit} (hx : Keeps I (fun _ => True) x) :
    Keeps I (fun _ => True) (Eff.when c x) := by
  by_cases h : c
  · rw [when_true h]
    exact hx
  · rw [when_false h]
    exact pure trivial

theorem each {f : α → EStateM ε σ Unit} (as : List α)
    (hf : ∀ a ∈ as, Keeps I (fun _ => True) (f a)) :
    Keeps I (fun _ => True) (Eff.each f as) := by
  induction as with
  | nil => exact pure trivial
  | cons a as ih =>
    exact seq (hf a List.mem_cons_self) (ih fun a' ha' => hf a' (List.mem_cons_of_mem _ ha'))

theorem collect_all {f : α → EStateM ε σ (List β)} {P : β → Prop} (as : List α)
    (hf : ∀ a ∈ as, Keeps I (fun bs => ∀ b ∈ bs, P b) (f a)) :
    Keeps I (fun bs => ∀ b ∈ bs, P b) (Eff.collect f as) := by
  induction as with
  | nil => exact pure (by simp)
  | cons a as ih =>
    refine bind (hf a List.mem_cons_self) fun bs hbs =>
      bind (ih fun a' ha' => hf a' (List.mem_cons_of_mem _ ha')) fun rest hrest =>
        pure fun b hb => ?_
    exact (List.mem_append.mp hb).elim (hbs b) (hrest b)

theorem collect {f : α → EStateM ε σ (List β)} (as : List α)
    (hf : ∀ a ∈ as, Keeps I (fun _ => True) (f a)) :
    Keeps I (fun _ => True) (Eff.collect f as) := by
  induction as with
  | nil => exact pure trivial
  | cons a as ih =>
    exact bind (hf a List.mem_cons_self) fun bs _ =>
      bind (ih fun a' ha' => hf a' (List.mem_cons_of_mem _ ha')) fun rest _ => pure trivial

end Keeps

end Eff
