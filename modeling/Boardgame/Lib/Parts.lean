import Mathlib.Combinatorics.SimpleGraph.Connectivity.Connected
import Mathlib.SetTheory.Cardinal.Finite

/-!
# Lib.Parts

The connected parts of a set of points in a graph, and how their number grows with the set.

* `parts_singleton`: a point is one part.
* `parts_insert_le`: a further point is one more part at most.
* `parts_insert_adj`: it is none if it touches the set.
* `induce_connected`: a set with one part is connected.
-/

namespace Boardgame

variable {V : Type} (G : SimpleGraph V)

/-- How many connected parts the set has. -/
noncomputable def parts (S : Set V) : ℕ∞ := ENat.card (G.induce S).ConnectedComponent

variable {G} {S : Set V} {u v : V}

theorem card_le_of_surjective {α β : Type} {f : α → β} (hf : Function.Surjective f) :
    ENat.card β ≤ ENat.card α :=
  ENat.card_le_card_of_injective (Function.injective_surjInv hf)

/-- The parts of a set as parts of a greater one. -/
def partsMap (G : SimpleGraph V) {S S' : Set V} (h : S ⊆ S') :
    (G.induce S).ConnectedComponent → (G.induce S').ConnectedComponent :=
  SimpleGraph.ConnectedComponent.map (G.induceHomOfLE h).toHom

theorem partsMap_mk {S' : Set V} (h : S ⊆ S') (hv : v ∈ S) :
    partsMap G h ((G.induce S).connectedComponentMk ⟨v, hv⟩) = (G.induce S').connectedComponentMk
      ⟨v, h hv⟩ := rfl

theorem parts_singleton : parts G {v} ≤ 1 := by
  have hone : Subsingleton (G.induce {v}).ConnectedComponent := inferInstance
  exact ENat.card_le_one_iff_subsingleton _ |>.mpr hone

theorem parts_empty : parts G ∅ = 0 := by
  have hnone : IsEmpty (G.induce (∅ : Set V)).ConnectedComponent := by
    refine ⟨fun c => ?_⟩
    induction c using SimpleGraph.ConnectedComponent.ind with
    | h w => exact w.2
  exact (ENat.card_eq_zero_iff_empty _).mpr hnone

/-- A further point is one more part at most. -/
theorem parts_insert_le : parts G (insert v S) ≤ parts G S + 1 := by
  have hsub : S ⊆ insert v S := Set.subset_insert v S
  have hsurj : Function.Surjective (Sum.elim (partsMap G hsub)
      fun _ : Unit => (G.induce (insert v S)).connectedComponentMk ⟨v, Set.mem_insert v S⟩) := by
    intro c
    induction c using SimpleGraph.ConnectedComponent.ind with
    | h w =>
      obtain ⟨w, hw⟩ := w
      rcases hw with rfl | hw
      · exact ⟨.inr (), rfl⟩
      · exact ⟨.inl ((G.induce S).connectedComponentMk ⟨w, hw⟩), rfl⟩
  refine (card_le_of_surjective hsurj).trans ?_
  rw [ENat.card_sum, parts]
  exact add_le_add le_rfl (by simp)

/-- A point that touches the set is no part of its own. -/
theorem parts_insert_adj (hu : u ∈ S) (h : G.Adj u v) : parts G (insert v S) ≤ parts G S := by
  have hsub : S ⊆ insert v S := Set.subset_insert v S
  refine card_le_of_surjective (f := partsMap G hsub) fun c => ?_
  induction c using SimpleGraph.ConnectedComponent.ind with
  | h w =>
    obtain ⟨w, hw⟩ := w
    rcases hw with rfl | hw
    · refine ⟨(G.induce S).connectedComponentMk ⟨u, hu⟩, ?_⟩
      rw [partsMap_mk]
      exact SimpleGraph.ConnectedComponent.sound (SimpleGraph.Adj.reachable (by simpa using h))
    · exact ⟨(G.induce S).connectedComponentMk ⟨w, hw⟩, rfl⟩

theorem induce_connected (hone : parts G S ≤ 1) (hu : u ∈ S) : (G.induce S).Connected := by
  have hsub : Subsingleton (G.induce S).ConnectedComponent :=
    (ENat.card_le_one_iff_subsingleton _).mp hone
  exact
    { preconnected := fun a b => SimpleGraph.ConnectedComponent.exact (Subsingleton.elim _ _)
      nonempty := ⟨⟨u, hu⟩⟩ }

end Boardgame
