import Mathlib.Data.Int.ModEq

/-!
# Lib.Int32

The bitwise operators of JavaScript on integers. An operand is reduced modulo `2^32`; the result is
read as a signed word, only `>>>` gives an unsigned one. What a number stands for is its `word`.

* `word_bitXor`, `word_shiftLeft`, `word_shiftRight`, `word_imul`: on words these are the operations
  of bit vectors, whichever way the operands were read.
-/

namespace Boardgame.Js

/-- The 32 bits of a number. -/
def word (x : Int) : BitVec 32 := BitVec.ofInt 32 x

/-- `ToUint32`. -/
def toUint32 (x : Int) : Int := x % 2 ^ 32

/-- `ToInt32`, which `x | 0` computes. -/
def toInt32 (x : Int) : Int := if x % 2 ^ 32 < 2 ^ 31 then x % 2 ^ 32 else x % 2 ^ 32 - 2 ^ 32

/-- `x ^ y`. -/
def bitXor (x y : Int) : Int := toInt32 (((toUint32 x).toNat ^^^ (toUint32 y).toNat : Nat) : Int)

/-- `x << n`, for `n` below 32. -/
def shiftLeft (x : Int) (n : Nat) : Int := toInt32 (toInt32 x * 2 ^ n)

/-- `x >>> n`, for `n` below 32. -/
def shiftRight (x : Int) (n : Nat) : Int := toUint32 x / 2 ^ n

/-- `Math.imul(x, y)`. -/
def imul (x y : Int) : Int := toInt32 (x * y)

/-! ## Readings of a word -/

theorem toUint32_eq (x : Int) : toUint32 x = (word x).toNat := by
  simp only [toUint32, word, BitVec.toNat_ofInt]
  omega

theorem word_eq_iff (x y : Int) : word x = word y ↔ x % 2 ^ 32 = y % 2 ^ 32 := by
  have hx := toUint32_eq x
  have hy := toUint32_eq y
  simp only [toUint32] at hx hy
  rw [← BitVec.toNat_inj]
  omega

theorem word_toUint32 (x : Int) : word (toUint32 x) = word x := by
  rw [word_eq_iff, toUint32]
  omega

theorem word_toInt32 (x : Int) : word (toInt32 x) = word x := by
  rw [word_eq_iff, toInt32]
  split <;> omega

theorem word_natCast (n : Nat) : word (n : Int) = BitVec.ofNat 32 n := BitVec.ofInt_natCast 32 n

theorem word_toNat (w : BitVec 32) : word (w.toNat : Int) = w := by
  rw [word_natCast, BitVec.ofNat_toNat, BitVec.setWidth_eq]

/-- Signed words are numbers of their own. -/
theorem toInt32_word_inj {x y : Int} (h : word x = word y) : toInt32 x = toInt32 y := by
  rw [word_eq_iff] at h
  rw [toInt32, toInt32, h]

theorem toInt32_toInt32 (x : Int) : toInt32 (toInt32 x) = toInt32 x :=
  toInt32_word_inj (word_toInt32 x)

theorem word_eq_zero (x : Int) : word x = 0#32 ↔ toInt32 x = 0 := by
  have h0 : word 0 = 0#32 := rfl
  rw [← h0, word_eq_iff, toInt32]
  split <;> omega

/-! ## Operators -/

theorem word_bitXor (x y : Int) : word (bitXor x y) = word x ^^^ word y := by
  rw [bitXor, word_toInt32, word_natCast, toUint32_eq, toUint32_eq]
  apply BitVec.eq_of_toNat_eq
  simp

theorem toInt32_bitXor (x y : Int) : toInt32 (bitXor x y) = bitXor x y := by
  rw [bitXor, toInt32_toInt32]

theorem word_imul (x y : Int) : word (imul x y) = word x * word y := by
  rw [imul, word_toInt32, word, word, word, BitVec.ofInt_mul]

theorem word_shiftLeft (x : Int) (n : Nat) : word (shiftLeft x n) = word x <<< n := by
  have hmod : toInt32 x * 2 ^ n ≡ toUint32 x * 2 ^ n [ZMOD 2 ^ 32] :=
    Int.ModEq.mul_right _ ((word_eq_iff _ _).mp ((word_toInt32 x).trans (word_toUint32 x).symm))
  have hint : (toInt32 x * 2 ^ n) % 2 ^ 32 = (((word x).toNat * 2 ^ n % 2 ^ 32 : Nat) : Int) := by
    push_cast
    rw [← toUint32_eq]
    exact hmod
  have hnat := toUint32_eq (toInt32 x * 2 ^ n)
  rw [toUint32, hint] at hnat
  rw [shiftLeft, word_toInt32, ← BitVec.toNat_inj, BitVec.toNat_shiftLeft, Nat.shiftLeft_eq]
  exact_mod_cast hnat.symm

theorem word_shiftRight (x : Int) (n : Nat) : word (shiftRight x n) = word x >>> n := by
  have hint : shiftRight x n = (((word x).toNat / 2 ^ n : Nat) : Int) := by
    rw [shiftRight, toUint32_eq]
    push_cast
    rfl
  rw [hint, word_natCast, ← BitVec.toNat_inj, BitVec.toNat_ofNat, BitVec.toNat_ushiftRight,
    Nat.shiftRight_eq_div_pow]
  exact Nat.mod_eq_of_lt ((Nat.div_le_self _ _).trans_lt (word x).isLt)

/-- `x >>> 0` is the unsigned reading. -/
theorem shiftRight_zero (x : Int) : shiftRight x 0 = (word x).toNat := by
  rw [shiftRight, toUint32_eq, pow_zero, Int.ediv_one]

end Boardgame.Js
