import Mathlib.Data.List.ReduceOption
import Mathlib.Order.Lattice
import Mathlib.Data.Set.Defs
import Boardgame.Lib.Trace

/-!
# Lib.Rotation

A turn that goes round the members of a set in increasing order while members leave. A lap begins
with the least member and ends when the turn would go back.

* `Rotation.lap`: the turns of a lap come in increasing order and skip nobody who is still in.
* `Rotation.lap_complete`: when the lap is over, every remaining member has had a turn.
-/

/-- Who is still in, and whose turn it is. -/
structure Rotation (α : Type) where
  members : Set α
  current : α

namespace Rotation

variable {α : Type} [LinearOrder α]

/-- `b` is the next member after `a` or, when `a` is past them all, the first. -/
def Succ (s : Set α) (a b : α) : Prop :=
  (a < b ∧ ∀ c ∈ s, a < c → b ≤ c) ∨ ((∀ c ∈ s, c ≤ a) ∧ ∀ c ∈ s, b ≤ c)

/-- A step inside a lap: members leave, or the turn goes on. -/
inductive Step : Rotation α → Option α → Rotation α → Prop where
  | stay {s s' : Set α} {a : α} : (∀ c ∈ s', c ∈ s) → Step ⟨s, a⟩ none ⟨s', a⟩
  | pass {s : Set α} {a b : α} : Succ s a b → a < b → Step ⟨s, a⟩ (some b) ⟨s, b⟩

theorem Succ.least {s : Set α} {a b c : α} (h : Succ s a b) (hc : c ∈ s) (hac : a < c) :
    b ≤ c := by
  rcases h with ⟨_, h⟩ | ⟨h, _⟩
  · exact h c hc hac
  · exact absurd hac (h c hc).not_gt

theorem lap {r r' : Rotation α} {ls : List (Option α)} (h : Trace Step r ls r')
    (hfirst : ∀ c ∈ r.members, r.current ≤ c) :
    (r.current :: ls.reduceOption).Pairwise (· < ·) ∧
      ∀ c ∈ r'.members, c ≤ r'.current → c ∈ r.current :: ls.reduceOption := by
  have hlap := h.inv_labels (I := fun pre r' =>
      (r.current :: pre.reduceOption).Pairwise (· < ·) ∧
        (∀ c ∈ r.current :: pre.reduceOption, c ≤ r'.current) ∧
        ∀ c ∈ r'.members, c ≤ r'.current → c ∈ r.current :: pre.reduceOption) ?_ []
      ⟨List.pairwise_singleton _ _, ?_, ?_⟩
  · exact ⟨hlap.1, hlap.2.2⟩
  · rintro pre s l t ⟨hsorted, hmax, hcover⟩ hstep
    cases hstep with
    | stay hsub =>
      rw [List.reduceOption_append, List.reduceOption_singleton, Option.toList_none,
        List.append_nil]
      exact ⟨hsorted, hmax, fun c hc hle => hcover c (hsub c hc) hle⟩
    | @pass s a b hsucc hab =>
      rw [List.reduceOption_append, List.reduceOption_singleton, Option.toList_some,
        ← List.cons_append]
      refine ⟨?_, fun c hc => ?_, fun c hc hle => ?_⟩
      · rw [List.pairwise_append]
        refine ⟨hsorted, List.pairwise_singleton _ _, fun c hc d hd => ?_⟩
        rw [List.mem_singleton.mp hd]
        exact lt_of_le_of_lt (hmax c hc) hab
      · rcases List.mem_append.mp hc with hc | hc
        · exact le_trans (hmax c hc) (le_of_lt hab)
        · exact le_of_eq (List.mem_singleton.mp hc)
      · rcases le_or_gt c a with hca | hac
        · exact List.mem_append_left _ (hcover c hc hca)
        · have : c = b := le_antisymm hle (hsucc.least hc hac)
          exact List.mem_append_right _ (List.mem_singleton.mpr this)
  · intro c hc
    exact le_of_eq (List.mem_singleton.mp hc)
  · intro c hc hle
    exact List.mem_singleton.mpr (le_antisymm hle (hfirst c hc))

/-- The turn goes back only when nobody is left after the current member. -/
theorem lap_complete {r r' : Rotation α} {ls : List (Option α)} (h : Trace Step r ls r')
    (hfirst : ∀ c ∈ r.members, r.current ≤ c) {b : α} (hsucc : Succ r'.members r'.current b)
    (hback : b ≤ r'.current) : ∀ c ∈ r'.members, c ∈ r.current :: ls.reduceOption := by
  intro c hc
  refine (lap h hfirst).2 c hc ?_
  rcases hsucc with ⟨hlt, _⟩ | ⟨hmost, _⟩
  · exact absurd hback hlt.not_ge
  · exact hmost c hc

end Rotation
