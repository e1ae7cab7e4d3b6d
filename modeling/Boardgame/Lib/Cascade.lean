import Boardgame.Lib.Eff

/-!
# Lib.Cascade

Items whose handling brings further items: a queue is handled first in, first out, while what each
item brings is appended to it, for a bounded number of passes.

* `Closure`: what the handling of one item brings in all, said without the queue: handling the item
  and then these brings exactly these, and none is handled before something has brought it.
* `Closure.unique`: there is at most one.
* `drain_spec`: the bounded loop returns the closure if it is small enough and otherwise throws,
  having handled as many items as it may.
-/

namespace Cascade

variable {ε σ α : Type}

/-- The loop, with `fuel` passes left; `out` is what has been brought so far. -/
def drain (h : α → EStateM ε σ (List α)) (err : ε) : Nat → List α → List α → EStateM ε σ (List α)
  | _, [], out => pure out
  | 0, _ :: _, _ => throw err
  | fuel + 1, next :: queue, out => do
    let follow ← h next
    drain h err fuel (queue ++ follow) (out ++ follow)

section

variable {h : α → EStateM ε σ (List α)}

variable (h) in
/-- From `s₀`, the items `es` have been handled, in this order; they have brought `got`, and `queue`
waits. -/
structure Reached (first : α) (s₀ : σ) (es got queue : List α) (s : σ) : Prop where
  passed : (Eff.collect h es).run s₀ = .ok got s
  pending : first :: got = es ++ queue
  caused : ∀ k < es.length, ∃ g s₁, (Eff.collect h (es.take k)).run s₀ = .ok g s₁ ∧ k ≤ g.length

variable (h) in
/-- Handling `first`, and everything that brings, from `s₀` brings `out` in all and ends in `s`.
Item `k` of `first :: out` is item `k - 1` of `out`, brought before `k` items have been handled. -/
structure Closure (first : α) (s₀ : σ) (out : List α) (s : σ) : Prop where
  passed : (Eff.collect h (first :: out)).run s₀ = .ok out s
  caused : ∀ k < (first :: out).length,
    ∃ g s₁, (Eff.collect h ((first :: out).take k)).run s₀ = .ok g s₁ ∧ k ≤ g.length

variable {first : α} {s₀ s s' : σ} {es got queue out out' : List α}

theorem Reached.start (first : α) (s₀ : σ) : Reached h first s₀ [] [] [first] s₀ where
  passed := rfl
  pending := rfl
  caused := nofun

/-- One pass of the loop. -/
theorem Reached.pass {e : α} {follow : List α} (hr : Reached h first s₀ es got (e :: queue) s)
    (he : (h e).run s = .ok follow s') :
    Reached h first s₀ (es ++ [e]) (got ++ follow) (queue ++ follow) s' where
  passed := by
    refine Eff.collect_append_ok.mpr ⟨got, s, follow, hr.passed, ?_, rfl⟩
    rw [Eff.collect, Eff.bind_ok he]
    exact congrArg (EStateM.Result.ok · s') (List.append_nil follow)
  pending := by
    rw [← List.cons_append, hr.pending, List.append_assoc, List.append_assoc]
    rfl
  caused := by
    intro k hk
    rw [List.length_append, List.length_singleton, Nat.lt_succ_iff] at hk
    rw [List.take_append_of_le_length hk]
    rcases Nat.lt_or_eq_of_le hk with hlt | rfl
    · exact hr.caused k hlt
    · have hlen := congrArg List.length hr.pending
      simp only [List.length_cons, List.length_append] at hlen
      exact ⟨got, s, by rw [List.take_length]; exact hr.passed, by omega⟩

theorem Reached.closure (hr : Reached h first s₀ es got [] s) :
    es = first :: got ∧ Closure h first s₀ got s := by
  have hes : es = first :: got := by rw [hr.pending, List.append_nil]
  refine ⟨hes, ?_, ?_⟩
  · rw [← hes]
    exact hr.passed
  · rw [← hes]
    exact hr.caused

theorem Closure.reached (hc : Closure h first s₀ out s) :
    Reached h first s₀ (first :: out) out [] s where
  passed := hc.passed
  pending := (List.append_nil _).symm
  caused := hc.caused

/-! ## There is one order -/

/-- Item `k` is known once the items before it have been handled. -/
theorem Reached.item (hr : Reached h first s₀ es got queue s) {k : Nat} (hk : k < es.length) :
    ∃ g s₁, (Eff.collect h (es.take k)).run s₀ = .ok g s₁ ∧ es[k]? = (first :: g)[k]? := by
  obtain ⟨g, s₁, hg, hkg⟩ := hr.caused k hk
  refine ⟨g, s₁, hg, ?_⟩
  have hpassed := hr.passed
  rw [← List.take_append_drop k es, Eff.collect_append_ok] at hpassed
  obtain ⟨g', s₂, rest, hg', -, hgot⟩ := hpassed
  rw [hg] at hg'
  cases hg'
  have hpending := hr.pending
  rw [hgot, ← List.cons_append] at hpending
  calc es[k]? = (es ++ queue)[k]? := (List.getElem?_append_left hk).symm
    _ = (first :: g ++ rest)[k]? := by rw [hpending]
    _ = (first :: g)[k]? := List.getElem?_append_left (Nat.lt_succ_of_le hkg)

theorem Reached.agree {got' queue' es' : List α} (hr : Reached h first s₀ es got queue s)
    (hr' : Reached h first s₀ es' got' queue' s') (k : Nat) (hk : k ≤ es.length)
    (hk' : k ≤ es'.length) :
    es.take k = es'.take k := by
  induction k with
  | zero => rfl
  | succ k ih =>
    have htake := ih (Nat.le_of_succ_le hk) (Nat.le_of_succ_le hk')
    obtain ⟨g, s₁, hg, hitem⟩ := hr.item hk
    obtain ⟨g', s₁', hg', hitem'⟩ := hr'.item hk'
    rw [← htake, hg] at hg'
    cases hg'
    rw [List.take_add_one, List.take_add_one, htake, hitem, hitem']

/-- What has been handled is part of the closure. -/
theorem Closure.covers (hc : Closure h first s₀ out s) (hr : Reached h first s₀ es got queue s') :
    es.length ≤ (first :: out).length ∧ es = (first :: out).take es.length := by
  have hle : es.length ≤ (first :: out).length := by
    refine Nat.le_of_not_lt fun hm => ?_
    have htake := hr.agree hc.reached _ (Nat.le_of_lt hm) (Nat.le_refl _)
    rw [List.take_length] at htake
    obtain ⟨g, s₁, hg, hlen⟩ := hr.caused _ hm
    rw [htake, hc.passed] at hg
    cases hg
    rw [List.length_cons] at hlen
    omega
  refine ⟨hle, ?_⟩
  rw [← hr.agree hc.reached _ (Nat.le_refl _) hle, List.take_length]

theorem Closure.unique (hc : Closure h first s₀ out s) (hc' : Closure h first s₀ out' s') :
    out = out' ∧ s = s' := by
  have hlen : (first :: out).length = (first :: out').length :=
    Nat.le_antisymm (hc'.covers hc.reached).1 (hc.covers hc'.reached).1
  have heq : first :: out = first :: out' := by
    rw [(hc'.covers hc.reached).2, hlen, List.take_length]
  cases heq
  have hrun := hc.passed.symm.trans hc'.passed
  cases hrun
  exact ⟨rfl, rfl⟩

/-! ## The loop -/

section Loop

variable (ht : ∀ a s, ∃ follow s', (h a).run s = .ok follow s') {err e : ε} {fuel : Nat}

include ht

theorem drain_spec :
    ∀ {fuel : Nat} {es got queue : List α} {s : σ}, Reached h first s₀ es got queue s →
    ∃ es' got' queue' s', Reached h first s₀ es' got' queue' s' ∧
      (queue' = [] ∧ es'.length ≤ es.length + fuel ∧
        (drain h err fuel queue got).run s = .ok got' s' ∨
        queue' ≠ [] ∧ es'.length = es.length + fuel ∧
        (drain h err fuel queue got).run s = .error err s') := by
  intro fuel
  induction fuel with
  | zero =>
    intro es got queue s hr
    cases queue with
    | nil => exact ⟨es, got, [], s, hr, .inl ⟨rfl, (Nat.le_refl _), rfl⟩⟩
    | cons next queue => exact ⟨es, got, _, s, hr, .inr ⟨List.cons_ne_nil _ _, rfl, rfl⟩⟩
  | succ fuel ih =>
    intro es got queue s hr
    cases queue with
    | nil => exact ⟨es, got, [], s, hr, .inl ⟨rfl, Nat.le_add_right _ _, rfl⟩⟩
    | cons next queue =>
      obtain ⟨follow, s₁, hnext⟩ := ht next s
      obtain ⟨es', got', queue', s', hr', hend⟩ := ih (hr.pass hnext)
      refine ⟨es', got', queue', s', hr', ?_⟩
      rw [drain, Eff.bind_ok hnext]
      rw [List.length_append, List.length_singleton] at hend
      exact hend.imp (fun ⟨hq, hlen, hrun⟩ => ⟨hq, by omega, hrun⟩) fun ⟨hq, hlen, hrun⟩ =>
        ⟨hq, by omega, hrun⟩

/-- A loop that throws has handled as many items as it may, and more wait. -/
theorem drain_stopped (hrun : (drain h err fuel [first] []).run s₀ = .error e s) :
    e = err ∧ ∃ es got queue, es.length = fuel ∧ queue ≠ [] ∧
    Reached h first s₀ es got queue s := by
  obtain ⟨es, got, queue, s', hr, ⟨-, -, hok⟩ | ⟨hq, hlen, herr⟩⟩ := drain_spec ht (.start first s₀)
  · rw [hok] at hrun
    cases hrun
  · rw [herr] at hrun
    cases hrun
    exact ⟨rfl, es, got, queue, by rw [hlen, List.length_nil, Nat.zero_add], hq, hr⟩

theorem drain_throws : (∃ e s, (drain h err fuel [first] []).run s₀ = .error e s) ↔
    ∀ out s, Closure h first s₀ out s → fuel < (first :: out).length := by
  constructor
  · rintro ⟨e, s, hrun⟩ out s' hc
    obtain ⟨-, es, got, queue, hlen, hq, hr⟩ := drain_stopped ht hrun
    obtain ⟨hle, htake⟩ := hc.covers hr
    refine Nat.lt_of_le_of_ne (hlen ▸ hle) fun hfull => hq ?_
    have hes : es = first :: out := by rw [htake, hlen, hfull, List.take_length]
    have hgot := hr.passed
    rw [hes, hc.passed] at hgot
    cases hgot
    have hpending := hr.pending
    rw [hes] at hpending
    exact List.self_eq_append_right.mp hpending
  · intro hlarge
    obtain ⟨es, got, queue, s', hr, ⟨rfl, hle, hok⟩ | ⟨-, -, herr⟩⟩ :=
      drain_spec ht (.start first s₀)
    · obtain ⟨rfl, hc⟩ := hr.closure
      rw [List.length_nil, Nat.zero_add] at hle
      exact absurd (hlarge got s' hc) (Nat.not_lt.mpr hle)
    · exact ⟨err, s', herr⟩

theorem drain_returns : (drain h err fuel [first] []).run s₀ = .ok out s ↔
    Closure h first s₀ out s ∧ (first :: out).length ≤ fuel := by
  constructor
  · intro hrun
    obtain ⟨es, got, queue, s', hr, ⟨rfl, hle, hok⟩ | ⟨-, -, herr⟩⟩ :=
      drain_spec ht (.start first s₀)
    · rw [hok] at hrun
      cases hrun
      obtain ⟨rfl, hc⟩ := hr.closure
      exact ⟨hc, by rwa [List.length_nil, Nat.zero_add] at hle⟩
    · rw [herr] at hrun
      cases hrun
  · rintro ⟨hc, hle⟩
    obtain ⟨es, got, queue, s', hr, ⟨rfl, -, hok⟩ | ⟨-, -, herr⟩⟩ := drain_spec ht (.start first s₀)
    · obtain ⟨rfl, rfl⟩ := hc.unique hr.closure.2
      exact hok
    · exact absurd ((drain_throws ht).mp ⟨_, _, herr⟩ out s hc) (Nat.not_lt.mpr hle)

end Loop

end

end Cascade
