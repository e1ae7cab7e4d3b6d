import Mathlib.Data.BitVec
import Mathlib.Data.Fintype.EquivFin
import Mathlib.Data.Set.Function

/-!
# Lib.Xorshift

The word xored with a shift of itself. By a positive distance that loses nothing: a word that is a
shift of itself is zero, since shifting on moves every bit out.

* `xorLeft_bijective`, `xorRight_bijective`: the steps are bijections of the words.
-/

namespace Boardgame

variable {w k : Nat} {z : BitVec w}

def xorLeft (k : Nat) (x : BitVec w) : BitVec w := x ^^^ (x <<< k)

def xorRight (k : Nat) (x : BitVec w) : BitVec w := x ^^^ (x >>> k)

theorem zero_of_shiftLeft (hk : 0 < k) (h : z <<< k = z) : z = 0#w := by
  have hiter : ∀ n, z <<< (n * k) = z := by
    intro n
    induction n with
    | zero => simp
    | succ n ih => rw [Nat.add_mul, Nat.one_mul, BitVec.shiftLeft_add, ih, h]
  rw [← hiter w]
  exact BitVec.shiftLeft_eq_zero (Nat.le_mul_of_pos_right w hk)

theorem zero_of_shiftRight (hk : 0 < k) (h : z >>> k = z) : z = 0#w := by
  have hiter : ∀ n, z >>> (n * k) = z := by
    intro n
    induction n with
    | zero => simp
    | succ n ih => rw [Nat.add_mul, Nat.one_mul, BitVec.shiftRight_add, ih, h]
  rw [← hiter w]
  exact BitVec.ushiftRight_eq_zero (Nat.le_mul_of_pos_right w hk)

/-- Words with the same xor differ from each other in the same bits. -/
theorem xor_exchange {a b c d : BitVec w} (h : a ^^^ b = c ^^^ d) : b ^^^ d = a ^^^ c := by
  have hzero : (a ^^^ b) ^^^ (c ^^^ d) = 0#w := BitVec.xor_eq_zero_iff.mpr h
  rw [← BitVec.xor_eq_zero_iff, ← hzero]
  ac_rfl

theorem xorLeft_injective (hk : 0 < k) : Function.Injective (xorLeft k : BitVec w → BitVec w) := by
  intro x y h
  have hz : (x ^^^ y) <<< k = x ^^^ y := by
    rw [BitVec.shiftLeft_xor_distrib]
    exact xor_exchange h
  exact BitVec.xor_eq_zero_iff.mp (zero_of_shiftLeft hk hz)

theorem xorRight_injective (hk : 0 < k) :
    Function.Injective (xorRight k : BitVec w → BitVec w) := by
  intro x y h
  have hz : (x ^^^ y) >>> k = x ^^^ y := by
    rw [BitVec.ushiftRight_xor_distrib]
    exact xor_exchange h
  exact BitVec.xor_eq_zero_iff.mp (zero_of_shiftRight hk hz)

theorem bijective_of_injective {f : BitVec w → BitVec w} (h : Function.Injective f) :
    Function.Bijective f := by
  have hfinite : Finite (BitVec w) := Finite.of_injective BitVec.toFin fun x y =>
    BitVec.toFin_inj.mp
  exact Finite.injective_iff_bijective.mp h

theorem xorLeft_bijective (hk : 0 < k) : Function.Bijective (xorLeft k : BitVec w → BitVec w) :=
  bijective_of_injective (xorLeft_injective hk)

theorem xorRight_bijective (hk : 0 < k) : Function.Bijective (xorRight k : BitVec w → BitVec w) :=
  bijective_of_injective (xorRight_injective hk)

/-- A bijection that keeps zero is one of the other words. -/
theorem bijOn_nonzero {f : BitVec w → BitVec w} (h : Function.Bijective f) (h0 : f 0#w = 0#w) :
    Set.BijOn f {x | x ≠ 0#w} {x | x ≠ 0#w} := by
  refine ⟨fun x hx hfx => hx ?_, h.1.injOn, fun y hy => ?_⟩
  · exact h.1 (hfx.trans h0.symm)
  · obtain ⟨x, rfl⟩ := h.2 y
    refine ⟨x, ?_, rfl⟩
    rintro rfl
    exact hy h0

end Boardgame
