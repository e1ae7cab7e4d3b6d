import Mathlib.Algebra.Group.Pi.Basic
import Mathlib.Algebra.BigOperators.Group.List.Basic

/-!
# Lib.Ledger

Bookkeeping for accounts that hold amounts in several units: a `Ledger` says by how much each
account changes in each unit, ledgers add up, and `entry` is the ledger of one posting.

* `total_entry`: what one posting adds to the total over a list of accounts.
-/

/-- An amount of each unit for each account. -/
abbrev Ledger (A U M : Type) := A → U → M

namespace Ledger

variable {A U M : Type} [DecidableEq A] [DecidableEq U] [AddCommGroup M]

/-- One posting: `q` of `u` to the account `a`. -/
def entry (a : A) (u : U) (q : M) : Ledger A U M := fun a' u' => if a' = a ∧ u' = u then q else 0

theorem entry_apply (a a' : A) (u u' : U) (q : M) :
    entry a u q a' u' = if a' = a ∧ u' = u then q else 0 := rfl

@[simp] theorem entry_zero (a : A) (u : U) : entry a u (0 : M) = 0 := by
  funext a' u'
  simp [entry]

/-- What a ledger adds up to over the accounts `as`. -/
def total (as : List A) (d : Ledger A U M) (u : U) : M := (as.map fun a => d a u).sum

omit [DecidableEq A] [DecidableEq U] in
@[simp] theorem total_zero (as : List A) (u : U) : total as (0 : Ledger A U M) u = 0 := by
  simp [total]

omit [DecidableEq A] [DecidableEq U] in
@[simp] theorem total_add (as : List A) (d e : Ledger A U M) (u : U) :
    total as (d + e) u = total as d u + total as e u := by
  simp [total, List.sum_map_add]

theorem total_entry {as : List A} (hnd : as.Nodup) {a : A} (ha : a ∈ as) (u u' : U) (q : M) :
    total as (entry a u q) u' = if u' = u then q else 0 := by
  induction as with
  | nil => cases ha
  | cons b bs ih =>
    rw [List.nodup_cons] at hnd
    have hrest : a = b → total bs (entry a u q) u' = 0 := by
      rintro rfl
      refine List.sum_eq_zero fun x hx => ?_
      obtain ⟨c, hc, rfl⟩ := List.mem_map.mp hx
      exact if_neg fun h : c = a ∧ u' = u => hnd.1 (h.1 ▸ hc)
    have hcons : total (b :: bs) (entry a u q) u' =
        entry a u q b u' + total bs (entry a u q) u' := by
      simp [total]
    rw [hcons]
    by_cases hab : a = b
    · rw [hrest hab, add_zero, entry_apply]
      simp [hab]
    · rw [ih hnd.2 ((List.mem_cons.mp ha).resolve_left hab), entry_apply]
      simp [Ne.symm hab]

end Ledger
