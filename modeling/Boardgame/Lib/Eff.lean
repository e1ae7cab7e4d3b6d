/-!
# Lib.Eff

Rules for programs that change a state and may throw, `EStateM ε σ`, and for `Except`. A program
that throws keeps the state it had reached.

* `bind_ok`, `bind_eq_ok`: sequencing, forwards and by inversion.
* `each`, `collect`: a `for` loop, and one that gathers a list; `each_inv` is the invariant rule of
  the first, `collect_append_ok` splits the second.
* `zoom`: a program on a part of a larger state.
* `final`: the state a program leaves, whether it returns or throws; `final_bind_ok` and
  `final_bind_error` compute it step by step.
-/

namespace Eff

variable {ε σ τ α β : Type}

theorem bind_ok {x : EStateM ε σ α} {f : α → EStateM ε σ β} {s s' : σ} {a : α}
    (h : x.run s = .ok a s') : (x >>= f).run s = (f a).run s' := by
  rw [EStateM.run_bind, h]

theorem bind_eq_ok {x : EStateM ε σ α} {f : α → EStateM ε σ β} {s s'' : σ} {b : β} :
    (x >>= f).run s = .ok b s'' ↔ ∃ a s', x.run s = .ok a s' ∧ (f a).run s' = .ok b s'' := by
  rw [EStateM.run_bind]
  cases x.run s with
  | ok a s' =>
    constructor
    · intro h; exact ⟨a, s', rfl, h⟩
    · rintro ⟨_, _, h, h'⟩; cases h; exact h'
  | error e s' => simp

theorem except_bind_eq_ok {x : Except ε α} {f : α → Except ε β} {b : β} :
    x >>= f = .ok b ↔ ∃ a, x = .ok a ∧ f a = .ok b := by
  cases x <;> simp [bind, Except.bind]

theorem except_seq_eq_ok {x : Except ε Unit} {f : Unit → Except ε β} {b : β} :
    x >>= f = .ok b ↔ x = .ok () ∧ f () = .ok b := by
  cases x <;> simp [bind, Except.bind]

def liftExcept : Except ε α → EStateM ε σ α
  | .ok a => pure a
  | .error e => throw e

@[simp] theorem liftExcept_ok (a : α) (s : σ) :
    (liftExcept (.ok a : Except ε α)).run s = .ok a s := rfl

@[simp] theorem liftExcept_error (e : ε) (s : σ) :
    (liftExcept (.error e : Except ε α)).run s = .error e s := rfl

/-- `if (c) x;`, the condition read from a pure value. -/
def when (c : Prop) [Decidable c] (x : EStateM ε σ Unit) : EStateM ε σ Unit :=
  if c then x else pure ()

theorem when_true {c : Prop} [Decidable c] (h : c) (x : EStateM ε σ Unit) : when c x = x := if_pos h

theorem when_false {c : Prop} [Decidable c] (h : ¬ c) (x : EStateM ε σ Unit) : when c x = pure () :=
  if_neg h

/-- `for (const a of as) f(a)`. -/
def each (f : α → EStateM ε σ Unit) : List α → EStateM ε σ Unit
  | [] => pure ()
  | a :: as => do
    f a
    each f as

/-- `for (const a of as) out.push(...f(a))`, returning `out`. -/
def collect (f : α → EStateM ε σ (List β)) : List α → EStateM ε σ (List β)
  | [] => pure []
  | a :: as => do
    let bs ← f a
    let rest ← collect f as
    return bs ++ rest

/-- A property of the items still to come and the state, kept by every pass of the loop. -/
theorem each_inv {f : α → EStateM ε σ Unit} (I : List α → σ → Prop)
    (step : ∀ a as s, I (a :: as) s → ∃ s', (f a).run s = .ok () s' ∧ I as s') :
    ∀ (as : List α) (s : σ), I as s → ∃ s', (each f as).run s = .ok () s' ∧ I [] s' := by
  intro as
  induction as with
  | nil => intro s h; exact ⟨s, rfl, h⟩
  | cons a as ih =>
    intro s h
    obtain ⟨s₁, h₁, hI⟩ := step a as s h
    obtain ⟨s₂, h₂, hI₂⟩ := ih s₁ hI
    exact ⟨s₂, by rw [each, bind_ok h₁, h₂], hI₂⟩

theorem collect_append_ok {f : α → EStateM ε σ (List β)} {as bs : List α} {s s' : σ}
    {out : List β} :
    (collect f (as ++ bs)).run s = .ok out s' ↔ ∃ got s₁ rest, (collect f as).run s = .ok got s₁ ∧
      (collect f bs).run s₁ = .ok rest s' ∧ out = got ++ rest := by
  induction as generalizing s out with
  | nil =>
    constructor
    · exact fun hrun => ⟨[], s, out, rfl, hrun, rfl⟩
    · rintro ⟨got, s₁, rest, hgot, hrest, rfl⟩
      cases hgot
      exact hrest
  | cons a as ih =>
    rw [List.cons_append, collect, collect, bind_eq_ok]
    simp only [bind_eq_ok]
    constructor
    · rintro ⟨follow, s₁, ha, more, s₂, hmore, hpure⟩
      cases hpure
      obtain ⟨got, s₃, rest, hgot, hrest, rfl⟩ := ih.mp hmore
      exact ⟨follow ++ got, s₃, rest, ⟨follow, s₁, ha, got, s₃, hgot, rfl⟩, hrest,
        (List.append_assoc ..).symm⟩
    · rintro ⟨got, s₃, rest, ⟨follow, s₁, ha, more, s₂, hmore, hpure⟩, hrest, rfl⟩
      cases hpure
      exact ⟨follow, s₁, ha, more ++ rest, s', ih.mpr ⟨more, s₃, rest, hmore, hrest, rfl⟩, by
        rw [List.append_assoc]
        rfl⟩

/-- Run a program on the part of the state that `get` reads and `put` writes. -/
def zoom (get : τ → σ) (put : σ → τ → τ) (x : EStateM ε σ α) : EStateM ε τ α := fun t =>
  match x.run (get t) with
  | .ok a s => .ok a (put s t)
  | .error e s => .error e (put s t)

theorem zoom_ok {get : τ → σ} {put : σ → τ → τ} {x : EStateM ε σ α} {t : τ} {a : α} {s : σ}
    (h : x.run (get t) = .ok a s) : (zoom get put x).run t = .ok a (put s t) := by
  simp only [zoom, EStateM.run] at h ⊢
  rw [h]

theorem zoom_error {get : τ → σ} {put : σ → τ → τ} {x : EStateM ε σ α} {t : τ} {e : ε} {s : σ}
    (h : x.run (get t) = .error e s) : (zoom get put x).run t = .error e (put s t) := by
  simp only [zoom, EStateM.run] at h ⊢
  rw [h]

theorem zoom_eq_ok {get : τ → σ} {put : σ → τ → τ} {x : EStateM ε σ α} {t t' : τ} {a : α} :
    (zoom get put x).run t = .ok a t' ↔ ∃ s, x.run (get t) = .ok a s ∧ t' = put s t := by
  cases h : x.run (get t) with
  | ok b s =>
    rw [zoom_ok h]
    constructor
    · intro heq
      cases heq
      exact ⟨s, rfl, rfl⟩
    · rintro ⟨_, heq, rfl⟩
      cases heq
      rfl
  | error e s => simp [zoom_error h]

/-- The state a program leaves. -/
def final (x : EStateM ε σ α) (s : σ) : σ :=
  match x.run s with
  | .ok _ s' => s'
  | .error _ s' => s'

theorem final_bind_ok {x : EStateM ε σ α} {f : α → EStateM ε σ β} {s s' : σ} {a : α}
    (h : x.run s = .ok a s') : final (x >>= f) s = final (f a) s' := by
  rw [final, bind_ok h, final]

theorem final_bind_error {x : EStateM ε σ α} {f : α → EStateM ε σ β} {s s' : σ} {e : ε}
    (h : x.run s = .error e s') : final (x >>= f) s = s' := by
  rw [final, EStateM.run_bind, h]

@[simp] theorem final_pure (a : α) (s : σ) : final (pure a : EStateM ε σ α) s = s := rfl

@[simp] theorem final_modify (f : σ → σ) (s : σ) :
    final (modify f : EStateM ε σ PUnit) s = f s := rfl

@[simp] theorem final_modify_bind (g : σ → σ) (f : PUnit → EStateM ε σ β) (s : σ) :
    final (modify g >>= f) s = final (f ⟨⟩) (g s) := final_bind_ok rfl

@[simp] theorem final_liftExcept_bind (x : Except ε α) (f : α → EStateM ε σ β) (s : σ) :
    final (liftExcept x >>= f) s = match x with
      | .ok a => final (f a) s
      | .error _ => s := by
  cases x with
  | ok a => exact final_bind_ok rfl
  | error e => exact final_bind_error rfl

@[simp] theorem final_when (c : Prop) [Decidable c] (x : EStateM ε σ Unit) (s : σ) :
    final (when c x) s = if c then final x s else s := by
  by_cases h : c
  · rw [when_true h, if_pos h]
  · rw [when_false h, if_neg h, final_pure]

@[simp] theorem final_discard (x : EStateM ε σ α) (s : σ) : final (discard x) s = final x s := by
  change final (x >>= fun _ => pure ()) s = final x s
  cases h : x.run s with
  | ok a s' => rw [final_bind_ok h, final_pure, final, h]
  | error e s' => rw [final_bind_error h, final, h]

/-- A loop whose passes all return. -/
theorem final_each {f : α → EStateM ε σ Unit} (hf : ∀ a s, (f a).run s = .ok () (final (f a) s))
    (as : List α) :
    ∀ s, final (each f as) s = as.foldl (fun s a => final (f a) s) s := by
  induction as with
  | nil => intro s; rfl
  | cons a as ih => intro s; rw [each, final_bind_ok (hf a s), ih, List.foldl_cons]

end Eff
