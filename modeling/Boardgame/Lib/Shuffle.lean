import Mathlib.Data.List.Forall2
import Mathlib.Data.List.Perm.Subperm
import Mathlib.Data.List.Permutation
import Mathlib.Data.Set.Card
import Mathlib.Order.Interval.Set.Basic

/-!
# Lib.Shuffle

Shuffling by swaps. The places of a list are settled one after the other: the item for a place is
swapped in from a place that is still free.

* `settle_inj`, `settle_surj`: different choices settle different items, and some choices settle any
  arrangement of the items that were free.
* `fisherYates_bijOn`: counting down, the choices are one for each permutation.
* `selection_bijOn`: counting up, they are one for each selection without repetition.
-/

namespace Boardgame

variable {α : Type}

/-! ## One swap -/

/-- `[copy[i], copy[j]] = [copy[j], copy[i]]`. -/
def swapAt {α : Type} (copy : List α) (i j : Nat) : List α :=
  match copy[i]?, copy[j]? with
  | some a, some b => (copy.set i b).set j a
  | _, _ => copy

theorem swapAt_perm (copy : List α) (i j : Nat) : (swapAt copy i j).Perm copy := by
  unfold swapAt
  split
  · rename_i a b ha hb
    obtain ⟨hi, rfl⟩ := List.getElem?_eq_some_iff.mp ha
    obtain ⟨hj, rfl⟩ := List.getElem?_eq_some_iff.mp hb
    exact List.set_set_perm hi hj
  · exact .refl _

theorem length_swapAt (copy : List α) (i j : Nat) : (swapAt copy i j).length = copy.length :=
  (swapAt_perm copy i j).length_eq

theorem getElem?_swapAt {l : List α} {i j : Nat} (hi : i < l.length) (hj : j < l.length) (k : Nat) :
    (swapAt l i j)[k]? = if k = j then l[i]? else if k = i then l[j]? else l[k]? := by
  rw [swapAt, List.getElem?_eq_getElem hi, List.getElem?_eq_getElem hj]
  simp only [List.getElem?_set, List.length_set]
  by_cases hkj : j = k
  · subst hkj
    simp [hj]
  · by_cases hki : i = k
    · subst hki
      simp [hkj, Ne.symm hkj, hi]
    · simp [hkj, hki, Ne.symm hkj, Ne.symm hki]

/-! ## Settling places -/

/-- Settle the places `ps`, each with the item at the place chosen for it. -/
def settle : List Nat → List Nat → List α → List α
  | p :: ps, j :: js, l => settle ps js (swapAt l p j)
  | _, _, l => l

/-- Every choice is of a place that is still free. -/
def Choices (free : Set Nat) : List Nat → List Nat → Prop
  | [], [] => True
  | p :: ps, j :: js => j ∈ free ∧ Choices (free \ {p}) ps js
  | _, _ => False

theorem settle_perm (ps js : List Nat) : ∀ l : List α, (settle ps js l).Perm l := by
  induction ps generalizing js with
  | nil => intro l; exact .refl l
  | cons p ps ih =>
    intro l
    cases js with
    | nil => exact .refl l
    | cons j js => exact (ih js _).trans (swapAt_perm l p j)

variable {free : Set Nat} {p j : Nat} {ps js js' : List Nat} {l l' : List α}

/-- The places to settle are free places of the list, each once. -/
structure Fits (free : Set Nat) (ps : List Nat) (l : List α) : Prop where
  inside : ∀ k ∈ free, k < l.length
  places : ∀ q ∈ ps, q ∈ free
  nodup : ps.Nodup

theorem Fits.rest (h : Fits free (p :: ps) l) : Fits (free \ {p}) ps (swapAt l p j) where
  inside k hk := by rw [length_swapAt]; exact h.inside k hk.1
  places q hq := by
    refine ⟨h.places q (List.mem_cons_of_mem p hq), ?_⟩
    rintro rfl
    exact (List.nodup_cons.mp h.nodup).1 hq
  nodup := (List.nodup_cons.mp h.nodup).2

theorem Fits.head (h : Fits free (p :: ps) l) : p ∈ free := h.places p List.mem_cons_self

theorem Fits.swap (h : Fits free (p :: ps) l) (hj : j ∈ free) (k : Nat) :
    (swapAt l p j)[k]? = if k = j then l[p]? else if k = p then l[j]? else l[k]? :=
  getElem?_swapAt (h.inside p h.head) (h.inside j hj) k

/-- A place that is not free keeps its item. -/
theorem settle_fixed (hfit : Fits free ps l)
    (hjs : Choices free ps js) {k : Nat} (hk : k ∉ free) : (settle ps js l)[k]? = l[k]? := by
  induction ps generalizing free js l with
  | nil => rfl
  | cons p ps ih =>
    cases js with
    | nil => cases hjs
    | cons j js =>
      obtain ⟨hj, hjs⟩ := hjs
      have hrest := ih (hfit.rest (j := j)) hjs fun h => hk h.1
      rw [settle, hrest, hfit.swap hj, if_neg, if_neg]
      · rintro rfl
        exact hk hfit.head
      · rintro rfl
        exact hk hj

/-- The first place gets the item chosen for it. -/
theorem settle_head (hfit : Fits free (p :: ps) l) (hjs : Choices free (p :: ps) (j :: js)) :
    (settle (p :: ps) (j :: js) l)[p]? = l[j]? := by
  obtain ⟨hj, hjs⟩ := hjs
  have hkept := settle_fixed (hfit.rest (j := j)) hjs fun h : p ∈ free \ {p} => h.2 rfl
  rw [settle, hkept, hfit.swap hj]
  by_cases hpj : p = j
  · subst hpj
    simp
  · simp [hpj]

/-- Choices that settle the same items are the same. -/
theorem settle_inj (hl : l.Nodup) (hfit : Fits free ps l)
    (hjs : Choices free ps js) (hjs' : Choices free ps js')
    (h : ∀ q ∈ ps, (settle ps js l)[q]? = (settle ps js' l)[q]?) : js = js' := by
  induction ps generalizing free js js' l with
  | nil =>
    cases js with
    | nil =>
      cases js' with
      | nil => rfl
      | cons j' js' => cases hjs'
    | cons j js => cases hjs
  | cons p ps ih =>
    cases js with
    | nil => cases hjs
    | cons j js =>
      cases js' with
      | nil => cases hjs'
      | cons j' js' =>
        have hhead := h p List.mem_cons_self
        rw [settle_head hfit hjs, settle_head hfit hjs'] at hhead
        have hj : j = j' := (List.getElem?_inj (hfit.inside j hjs.1) hl).mp hhead
        subst hj
        have hrest := ih ((swapAt_perm l p j).nodup_iff.mpr hl) hfit.rest hjs.2 hjs'.2 fun q hq =>
          h q (List.mem_cons_of_mem p hq)
        rw [hrest]

/-- Some choices settle the items as another arrangement has them. -/
theorem settle_surj (hl : l.Nodup) (hfit : Fits free ps l)
    (hperm : l'.Perm l) (hsame : ∀ k, k ∉ free → l'[k]? = l[k]?) :
    ∃ js, Choices free ps js ∧ ∀ q ∈ ps, (settle ps js l)[q]? = l'[q]? := by
  induction ps generalizing free l with
  | nil => exact ⟨[], trivial, nofun⟩
  | cons p ps ih =>
    have hp := hfit.head
    have hp' : p < l'.length := hperm.length_eq ▸ hfit.inside p hp
    obtain ⟨j, hj, hitem⟩ := List.getElem_of_mem (hperm.mem_iff.mp (List.getElem_mem hp'))
    have hjp : l[j]? = l'[p]? := by
      rw [List.getElem?_eq_getElem hj, List.getElem?_eq_getElem hp', hitem]
    have hjfree : j ∈ free := by
      by_contra hno
      have hpj : p = j := (List.getElem?_inj hp' (hperm.nodup_iff.mpr hl)).mp
        (hjp.symm.trans (hsame j hno).symm)
      exact hno (hpj ▸ hp)
    have hsame' : ∀ k, k ∉ free \ {p} → l'[k]? = (swapAt l p j)[k]? := by
      intro k hk
      rw [hfit.swap hjfree]
      by_cases hkp : k = p
      · subst hkp
        by_cases hkj : k = j
        · subst hkj
          simp [hjp]
        · simp [hkj, hjp]
      · have hkfree : k ∉ free := fun h => hk ⟨h, hkp⟩
        have hkj : k ≠ j := by
          rintro rfl
          exact hkfree hjfree
        simp [hkj, hkp, hsame k hkfree]
    obtain ⟨js, hjs, hsettled⟩ := ih ((swapAt_perm l p j).nodup_iff.mpr hl) hfit.rest
      (hperm.trans (swapAt_perm l p j).symm) hsame'
    refine ⟨j :: js, ⟨hjfree, hjs⟩, fun q hq => ?_⟩
    rcases List.mem_cons.mp hq with rfl | hq
    · rw [settle_head hfit ⟨hjfree, hjs⟩, hjp]
    · exact hsettled q hq

/-! ## Counting down -/

/-- `i, i - 1, ..., 1`. -/
def countdown : Nat → List Nat
  | 0 => []
  | i + 1 => (i + 1) :: countdown i

/-- A choice from `0..k` for every `k` from `i` down to 1. -/
def Rolls (i : Nat) (js : List Nat) : Prop := List.Forall₂ (fun k j => j ≤ k) (countdown i) js

/-- The shuffle from the last place to the second. -/
def fisherYates (js : List Nat) (l : List α) : List α := settle (countdown (l.length - 1)) js l

theorem mem_countdown {i q : Nat} : q ∈ countdown i ↔ 0 < q ∧ q ≤ i := by
  induction i with
  | zero =>
    simp only [countdown, List.not_mem_nil, false_iff]
    omega
  | succ i ih =>
    simp only [countdown, List.mem_cons, ih]
    omega

theorem countdown_nodup (i : Nat) : (countdown i).Nodup := by
  induction i with
  | zero => exact List.nodup_nil
  | succ i ih =>
    refine List.nodup_cons.mpr ⟨fun h => ?_, ih⟩
    have := mem_countdown.mp h
    omega

theorem rolls_iff {i : Nat} : Rolls i js ↔ Choices (Set.Iic i) (countdown i) js := by
  induction i generalizing js with
  | zero => cases js <;> simp [Rolls, countdown, Choices]
  | succ i ih =>
    cases js with
    | nil => simp [Rolls, countdown, Choices]
    | cons j js =>
      have hrest : Set.Iic (i + 1) \ {i + 1} = Set.Iic i := by
        ext k
        simp only [Set.mem_sdiff, Set.mem_Iic, Set.mem_singleton_iff]
        omega
      rw [Rolls, countdown, List.forall₂_cons, Choices, hrest, ← ih]
      rfl

theorem countdown_fits (hl : l ≠ []) :
    Fits (Set.Iic (l.length - 1)) (countdown (l.length - 1)) l where
  inside k hk := by
    have hpos := List.length_pos_iff.mpr hl
    have hk' : k ≤ l.length - 1 := hk
    omega
  places q hq := (mem_countdown.mp hq).2
  nodup := countdown_nodup _

/-- Arrangements that agree in all places but the first are the same. -/
theorem eq_of_tail (hperm : l'.Perm l) (h : ∀ k, 0 < k → l'[k]? = l[k]?) : l' = l := by
  cases l with
  | nil => exact hperm.eq_nil
  | cons a t =>
    cases l' with
    | nil => exact hperm.symm.eq_nil.symm
    | cons a' t' =>
      have htail : t' = t := List.ext_getElem? fun k => by simpa using h (k + 1) (by omega)
      subst htail
      have hhead : [a'].Perm [a] := (List.perm_append_right_iff t').mp hperm
      rw [List.singleton_perm_singleton.mp hhead]

/-- **Counting down** gives every permutation from one sequence of choices. -/
theorem fisherYates_bijOn (hl : l.Nodup) :
    Set.BijOn (fun js => fisherYates js l) {js | Rolls (l.length - 1) js} {l' | l'.Perm l} := by
  rcases eq_or_ne l [] with rfl | hne
  · refine ⟨fun js _ => .refl [], ?_, fun l' hl' => ⟨[], .nil, ?_⟩⟩
    · rintro js hjs js' hjs' -
      rw [List.forall₂_nil_left_iff.mp hjs, List.forall₂_nil_left_iff.mp hjs']
    · exact (List.Perm.eq_nil hl').symm
  have hfit := countdown_fits hne
  refine ⟨fun js _ => settle_perm _ js l, fun js hjs js' hjs' h => ?_, fun l' hl' => ?_⟩
  · exact settle_inj hl hfit (rolls_iff.mp hjs) (rolls_iff.mp hjs') fun q _ => congrArg (·[q]?) h
  · have hout : ∀ k, k ∉ Set.Iic (l.length - 1) → l'[k]? = l[k]? := by
      intro k hk
      have hk' : ¬ k ≤ l.length - 1 := hk
      have hlen := List.Perm.length_eq hl'
      rw [List.getElem?_eq_none (by omega), List.getElem?_eq_none (by omega)]
    obtain ⟨js, hjs, hsettled⟩ := settle_surj hl hfit hl' hout
    refine ⟨js, rolls_iff.mpr hjs, eq_of_tail ((settle_perm _ js l).trans (List.Perm.symm hl'))
      fun k hk => ?_⟩
    by_cases hkl : k ≤ l.length - 1
    · exact hsettled k (mem_countdown.mpr ⟨hk, hkl⟩)
    · rw [hout k hkl]
      exact settle_fixed hfit hjs hkl

/-- There are `n!` arrangements of `n` items. -/
theorem ncard_perms (hl : l.Nodup) : {l' : List α | l'.Perm l}.ncard = l.length.factorial := by
  classical
  have hset : {l' : List α | l'.Perm l} = (l.permutations.toFinset : Set (List α)) := by
    ext l'
    simp
  rw [hset, Set.ncard_coe_finset, List.toFinset_card_of_nodup (List.nodup_permutations l hl),
    List.length_permutations]

/-! ## Counting up -/

/-- A choice from `k..n-1` for every `k` from 0 to `count - 1`. -/
def Picks (n count : Nat) (js : List Nat) : Prop :=
  List.Forall₂ (fun k j => k ≤ j ∧ j < n) (List.range count) js

/-- The items at the first places, once these are settled. -/
def selection (count : Nat) (js : List Nat) (l : List α) : List α :=
  (settle (List.range count) js l).take count

theorem picks_from {n i count : Nat} (h : i + count ≤ n) :
    List.Forall₂ (fun k j => k ≤ j ∧ j < n) (List.range' i count) js ↔
      Choices (Set.Ico i n) (List.range' i count) js := by
  induction count generalizing i js with
  | zero => cases js <;> simp [Choices]
  | succ count ih =>
    cases js with
    | nil => simp [List.range'_succ, Choices]
    | cons j js =>
      have hrest : Set.Ico i n \ {i} = Set.Ico (i + 1) n := by
        ext k
        simp only [Set.mem_sdiff, Set.mem_Ico, Set.mem_singleton_iff]
        omega
      rw [List.range'_succ, List.forall₂_cons, Choices, hrest, ih (by omega)]
      rfl

theorem picks_iff {n count : Nat} (h : count ≤ n) : Picks n count js ↔
    Choices (Set.Ico 0 n) (List.range count) js := by
  rw [Picks, List.range_eq_range', picks_from (by omega)]

theorem range_fits {count : Nat} (h : count ≤ l.length) :
    Fits (Set.Ico 0 l.length) (List.range count) l where
  inside _ hk := hk.2
  places q hq := ⟨Nat.zero_le q, (List.mem_range.mp hq).trans_le h⟩
  nodup := List.nodup_range

/-- **Counting up** gives every selection of `count` items from one sequence of choices. -/
theorem selection_bijOn {count : Nat} (hl : l.Nodup) (hcount : count ≤ l.length) :
    Set.BijOn (fun js => selection count js l) {js | Picks l.length count js}
      {sel | sel.Nodup ∧ sel ⊆ l ∧ sel.length = count} := by
  have hfit := range_fits hcount
  refine ⟨fun js _ => ⟨?_, ?_, ?_⟩, fun js hjs js' hjs' h => ?_, ?_⟩
  · exact ((settle_perm _ js l).nodup_iff.mpr hl).sublist (List.take_sublist _ _)
  · exact fun x hx => (settle_perm _ js l).mem_iff.mp (List.mem_of_mem_take hx)
  · show (List.take count _).length = count
    rw [List.length_take, (settle_perm _ js l).length_eq]
    omega
  · refine settle_inj hl hfit ((picks_iff hcount).mp hjs) ((picks_iff hcount).mp hjs')
      fun q hq => ?_
    have hat : (selection count js l)[q]? = (selection count js' l)[q]? := congrArg (·[q]?) h
    have hlt := List.mem_range.mp hq
    simpa only [selection, List.getElem?_take_of_lt hlt] using hat
  · rintro sel ⟨hnd, hsub, hlen⟩
    obtain ⟨m, hm, hml⟩ := List.subperm_of_subset hnd hsub
    obtain ⟨rest, hrest⟩ := hml.exists_perm_append
    have hperm : (sel ++ rest).Perm l := ((hm.append_right rest).symm).trans hrest.symm
    have hout : ∀ k, k ∉ Set.Ico 0 l.length → (sel ++ rest)[k]? = l[k]? := by
      intro k hk
      have hk' : ¬ k < l.length := fun h => hk ⟨Nat.zero_le k, h⟩
      have hlen' := hperm.length_eq
      rw [List.getElem?_eq_none (by omega), List.getElem?_eq_none (by omega)]
    obtain ⟨js, hjs, hsettled⟩ := settle_surj hl hfit hperm hout
    refine ⟨js, (picks_iff hcount).mpr hjs, List.ext_getElem? fun k => ?_⟩
    show (selection count js l)[k]? = sel[k]?
    by_cases hk : k < count
    · have hat := hsettled k (List.mem_range.mpr hk)
      rw [selection, List.getElem?_take_of_lt hk, hat, List.getElem?_append_left (by omega)]
    · have hsel := (settle_perm (List.range count) js l).length_eq
      rw [List.getElem?_eq_none (by rw [selection, List.length_take]; omega),
        List.getElem?_eq_none (by omega)]

end Boardgame
