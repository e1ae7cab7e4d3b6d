import Mathlib.Data.List.Nodup
import Mathlib.Data.List.Perm.Subperm
import Mathlib.Data.List.TakeWhile
import Mathlib.Logic.Relation
import Mathlib.Order.Bounds.Basic

/-!
# Lib.Worklist

A worklist search: take the front of the queue, skip it if it has been visited, else mark it and
push what it leads to. `Returns next queue visited result` is the loop, derivable exactly when it
stops.

* `Returns.unique`: the loop has at most one result.
* `search_returns`: a search that stays inside a finite list of nodes stops, and `search` with as
  many visits as there are nodes computes its result.
* `Returns.reaches`: the result of a search from one node is everything that node leads to.
* `Returns.isLeast`: it is the least set that has the node and is closed under the steps.
-/

namespace Worklist

variable {α : Type}

/-- The loop; `next visited x` is what visiting `x` pushes, `visited` being the marks after it. -/
inductive Returns (next : List α → α → List α) : List α → List α → List α → Prop where
  | done {visited : List α} : Returns next [] visited visited
  | skip {x : α} {queue visited result : List α} : x ∈ visited →
      Returns next queue visited result → Returns next (x :: queue) visited result
  | take {x : α} {queue visited result : List α} : x ∉ visited →
      Returns next (queue ++ next (visited ++ [x]) x) (visited ++ [x]) result →
      Returns next (x :: queue) visited result

/-- The same loop for at most so many visits. -/
def search [DecidableEq α] (next : List α → α → List α) : Nat → List α → List α → List α
  | 0, _, visited => visited
  | visits + 1, queue, visited =>
    match queue.dropWhile (· ∈ visited) with
    | [] => visited
    | x :: queue => search next visits (queue ++ next (visited ++ [x]) x) (visited ++ [x])

/-- A visit pushes the nodes one step away, but for those already marked. -/
def Pushes (next : List α → α → List α) (step : α → α → Prop) : Prop :=
  ∀ visited x y, y ∈ next visited x ↔ step x y ∧ y ∉ visited

variable {next : List α → α → List α} {step : α → α → Prop} {queue visited result : List α}

theorem Returns.unique {result' : List α} (h : Returns next queue visited result)
    (h' : Returns next queue visited result') : result = result' := by
  induction h with
  | done => cases h'; rfl
  | skip hx _ ih =>
    cases h' with
    | skip _ h => exact ih h
    | take hx' _ => exact absurd hx hx'
  | take hx _ ih =>
    cases h' with
    | skip hx' _ => exact absurd hx' hx
    | take _ h => exact ih h

theorem Returns.nodup (h : Returns next queue visited result) (hnd : visited.Nodup) :
    result.Nodup := by
  induction h with
  | done => exact hnd
  | skip _ _ ih => exact ih hnd
  | take hx _ ih =>
    refine ih ?_
    rw [← List.concat_eq_append]
    exact hnd.concat hx

/-- Nothing that is visited or queued is missing from the result. -/
theorem Returns.subset (h : Returns next queue visited result) :
    ∀ x, x ∈ visited ∨ x ∈ queue → x ∈ result := by
  induction h with
  | done => simp
  | skip hx _ ih =>
    rintro y (hy | hy)
    · exact ih y (.inl hy)
    · rcases List.mem_cons.mp hy with rfl | hy
      · exact ih y (.inl hx)
      · exact ih y (.inr hy)
  | take _ _ ih =>
    rintro y (hy | hy)
    · exact ih y (.inl (List.mem_append_left _ hy))
    · rcases List.mem_cons.mp hy with rfl | hy
      · exact ih y (.inl (List.mem_append_right _ (List.mem_singleton_self y)))
      · exact ih y (.inr (List.mem_append_left _ hy))

/-- A set that is closed under the steps and has all that is visited or queued has the result. -/
theorem Returns.sound (hnext : Pushes next step) (h : Returns next queue visited result)
    {S : Set α} (hS : ∀ x ∈ S, ∀ y, step x y → y ∈ S) (hv : ∀ x ∈ visited, x ∈ S)
    (hq : ∀ x ∈ queue, x ∈ S) : ∀ x ∈ result, x ∈ S := by
  induction h with
  | done => exact hv
  | skip _ _ ih => exact ih hv fun x hx => hq x (List.mem_cons_of_mem _ hx)
  | @take x queue visited result _ _ ih =>
    have hx : x ∈ S := hq x List.mem_cons_self
    refine ih ?_ ?_
    · intro y hy
      rcases List.mem_append.mp hy with hy | hy
      · exact hv y hy
      · rwa [List.mem_singleton.mp hy]
    · intro y hy
      rcases List.mem_append.mp hy with hy | hy
      · exact hq y (List.mem_cons_of_mem _ hy)
      · exact hS x hx y ((hnext _ _ _).mp hy).1

/-- What a visited node leads to is visited or still queued; at the end the queue is empty. -/
theorem Returns.closed (hnext : Pushes next step) (h : Returns next queue visited result)
    (hinv : ∀ x ∈ visited, ∀ y, step x y → y ∈ visited ∨ y ∈ queue) :
    ∀ x ∈ result, ∀ y, step x y → y ∈ result := by
  induction h with
  | done =>
    intro x hx y hxy
    exact (hinv x hx y hxy).resolve_right List.not_mem_nil
  | @skip x queue visited result hx _ ih =>
    refine ih fun y hy z hyz => ?_
    rcases hinv y hy z hyz with hz | hz
    · exact .inl hz
    · rcases List.mem_cons.mp hz with rfl | hz
      · exact .inl hx
      · exact .inr hz
  | @take x queue visited result hx _ ih =>
    refine ih fun y hy z hyz => ?_
    by_cases hz : z ∈ visited ++ [x]
    · exact .inl hz
    · right
      rcases List.mem_append.mp hy with hy | hy
      · rcases hinv y hy z hyz with hzv | hzq
        · exact absurd (List.mem_append_left _ hzv) hz
        · rcases List.mem_cons.mp hzq with rfl | hzq
          · exact absurd (List.mem_append_right _ (List.mem_singleton_self z)) hz
          · exact List.mem_append_left _ hzq
      · rw [List.mem_singleton.mp hy] at hyz
        exact List.mem_append_right _ ((hnext _ _ _).mpr ⟨hyz, hz⟩)

theorem Returns.isLeast (hnext : Pushes next step) {start : α}
    (h : Returns next [start] [] result) :
    IsLeast {S : Set α | start ∈ S ∧ ∀ x ∈ S, ∀ y, step x y → y ∈ S} {x | x ∈ result} := by
  refine ⟨⟨h.subset start (.inr (List.mem_singleton_self start)), ?_⟩, ?_⟩
  · exact h.closed hnext fun x hx => absurd hx List.not_mem_nil
  · rintro S ⟨hstart, hS⟩
    refine h.sound hnext hS (fun x hx => absurd hx List.not_mem_nil) fun x hx => ?_
    rwa [List.mem_singleton.mp hx]

theorem Returns.reaches (hnext : Pushes next step) {start : α}
    (h : Returns next [start] [] result) (x : α) :
    x ∈ result ↔ Relation.ReflTransGen step start x := by
  have hleast := h.isLeast hnext
  constructor
  · intro hx
    have hclosed : {y | Relation.ReflTransGen step start y} ∈
        {S : Set α | start ∈ S ∧ ∀ x ∈ S, ∀ y, step x y → y ∈ S} :=
      ⟨.refl, fun y hy z hyz => Relation.ReflTransGen.tail hy hyz⟩
    exact hleast.2 hclosed hx
  · intro hx
    induction hx with
    | refl => exact hleast.1.1
    | tail _ hyz ih => exact hleast.1.2 _ ih _ hyz

section
variable [DecidableEq α]

/-- Already visited nodes at the front of the queue make no difference. -/
theorem Returns.dropWhile (h : Returns next (queue.dropWhile (· ∈ visited)) visited result) :
    Returns next queue visited result := by
  induction queue with
  | nil => exact h
  | cons x queue ih =>
    by_cases hx : x ∈ visited
    · rw [List.dropWhile_cons_of_pos (by simpa using hx)] at h
      exact .skip hx (ih h)
    · rwa [List.dropWhile_cons_of_neg (by simpa using hx)] at h

/-- As many visits as there are nodes left to mark empty the queue. -/
theorem search_returns {nodes : List α} (hnext : ∀ visited x, ∀ y ∈ next visited x, y ∈ nodes)
    (visits : Nat) : ∀ queue visited : List α, visited.Nodup → (∀ x ∈ visited, x ∈ nodes) →
      (∀ x ∈ queue, x ∈ nodes) → nodes.length ≤ visits + visited.length →
      Returns next queue visited (search next visits queue visited) := by
  induction visits with
  | zero =>
    intro queue visited hnd hv hq hlen
    have hall : ∀ x ∈ queue, x ∈ visited := fun x hx =>
      ((hnd.subperm hv).perm_of_length_le (by omega)).mem_iff.mpr (hq x hx)
    refine .dropWhile ?_
    rw [List.dropWhile_eq_nil_iff.mpr fun x hx => by simpa using hall x hx]
    exact .done
  | succ visits ih =>
    intro queue visited hnd hv hq hlen
    refine .dropWhile ?_
    rw [search]
    have hsub : ∀ x ∈ queue.dropWhile (· ∈ visited), x ∈ nodes := fun x hx =>
      hq x ((List.dropWhile_sublist _).mem hx)
    split
    · rename_i hempty
      rw [hempty]
      exact .done
    · rename_i x rest hrest
      have hx : x ∉ visited := by
        have h := List.head?_dropWhile_not (· ∈ visited) queue
        rw [hrest] at h
        simpa using h
      rw [hrest] at hsub ⊢
      refine .take hx (ih _ _ ?_ ?_ ?_ ?_)
      · rw [← List.concat_eq_append]
        exact hnd.concat hx
      · intro y hy
        rcases List.mem_append.mp hy with hy | hy
        · exact hv y hy
        · rw [List.mem_singleton.mp hy]
          exact hsub x List.mem_cons_self
      · intro y hy
        rcases List.mem_append.mp hy with hy | hy
        · exact hsub y (List.mem_cons_of_mem _ hy)
        · exact hnext _ _ y hy
      · rw [List.length_append, List.length_singleton]
        omega

end

end Worklist
