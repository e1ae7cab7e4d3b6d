import Mathlib.Data.Rat.Floor
import Boardgame.Core.Players
import Boardgame.Lib.Shuffle

/-!
# Core.Random

The seeded generator of `dice/random.ts`: FNV-1a over the UTF-16 code units of a string, and
xorshift32 on 32-bit words. The signed and the unsigned reading of a JavaScript 32-bit word have
the same bits, so a word is a `BitVec 32`; `next` is the exact rational `word / 2^32`.
-/

namespace Boardgame

/-- `s.charCodeAt(i)` for all `i`: one UTF-16 unit for a character below `0x10000`, else a
surrogate pair. -/
def charCodes (s : String) : List Nat :=
  s.toList.flatMap fun c =>
    if c.toNat < 0x10000 then [c.toNat]
    else [0xD800 + (c.toNat - 0x10000) / 0x400, 0xDC00 + (c.toNat - 0x10000) % 0x400]

def seedFromString (s : String) : BitVec 32 :=
  let h := (charCodes s).foldl (fun h code => (h ^^^ BitVec.ofNat 32 code) * 16777619#32)
    2166136261#32
  if h = 0#32 then 1#32 else h

def xorshift (x : BitVec 32) : BitVec 32 :=
  let x := x ^^^ (x <<< 13)
  let x := x ^^^ (x >>> 17)
  x ^^^ (x <<< 5)

structure SeededRandom where
  state : BitVec 32
  deriving DecidableEq

namespace SeededRandom

/-- The constructor: `seed | 0`, and 1 in place of 0. -/
def new (seed : Int) : SeededRandom :=
  let state := BitVec.ofInt 32 seed
  ⟨if state = 0#32 then 1#32 else state⟩

def next (rng : SeededRandom) : ℚ × SeededRandom :=
  let x := xorshift rng.state
  ((x.toNat : ℚ) / 0x100000000, ⟨x⟩)

def intInRange (rng : SeededRandom) (min max : Int) : Except JsError (Int × SeededRandom) :=
  if max < min then .error ⟨"max < min"⟩
  else
    let (x, rng) := rng.next
    .ok (min + ⌊x * ((max - min + 1 : Int) : ℚ)⌋, rng)

theorem next_range (rng : SeededRandom) : 0 ≤ rng.next.1 ∧ rng.next.1 < 1 := by
  have h : ((xorshift rng.state).toNat : ℚ) < 0x100000000 := by
    exact_mod_cast (xorshift rng.state).isLt
  constructor
  · simp only [next]; positivity
  · simp only [next]
    rw [div_lt_one (by norm_num)]
    exact h

theorem intInRange_ok (rng : SeededRandom) {min max : Int} (h : min ≤ max) :
    ∃ v, rng.intInRange min max = .ok (v, rng.next.2) ∧ min ≤ v ∧ v ≤ max := by
  refine ⟨_, by rw [intInRange, if_neg (by omega)], ?_⟩
  obtain ⟨h0, h1⟩ := rng.next_range
  have hpos : (0 : ℚ) < ((max - min + 1 : Int) : ℚ) := by
    have : (0 : Int) < max - min + 1 := by omega
    exact_mod_cast this
  have hlo : 0 ≤ ⌊rng.next.1 * ((max - min + 1 : Int) : ℚ)⌋ :=
    Int.floor_nonneg.mpr (mul_nonneg h0 hpos.le)
  have hhi : ⌊rng.next.1 * ((max - min + 1 : Int) : ℚ)⌋ < max - min + 1 := by
    rw [Int.floor_lt]
    calc rng.next.1 * ((max - min + 1 : Int) : ℚ)
        < 1 * ((max - min + 1 : Int) : ℚ) := mul_lt_mul_of_pos_right h1 hpos
      _ = _ := one_mul _
  constructor <;> omega

end SeededRandom

end Boardgame
