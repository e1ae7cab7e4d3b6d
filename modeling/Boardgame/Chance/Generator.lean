import Boardgame.Chance.Shuffles
import Boardgame.Lib.Int32
import Boardgame.Lib.Xorshift

/-!
# Chance.Generator

The generator of `dice/random.ts` and the copy of it in `kingdoms/map.ts`, on JavaScript's numbers:
a word is signed after `^` and `<<`, unsigned after `>>>`, and the two copies do not start with the
same reading of the seed. Words with the same bits go the same way, so all of this computes what
`Core.Random` says of bit vectors.

* `xorshift_bijOn`: the step is a bijection of the words other than zero.
* `Alive.call`, `Alive.after`: the state of a generator is never zero, whatever is asked of it.
* `bits_next`, `seededShuffle_eq`: the code on numbers computes what the model on words does.
* `loopSteps_words`: the copy runs through the states of the generator with the same seed.
* `generator_sound`: all of it, for every seed and any number of draws.
-/

namespace Boardgame.Js

/-! ## The code on numbers -/

/-- `seedFromString`, the same in `dice/random.ts` and in `kingdoms/map.ts`. -/
def seedFromString (s : String) : Int :=
  let h := (charCodes s).foldl (fun (h : Int) (code : Nat) => imul (bitXor h code) 16777619)
    2166136261
  if shiftRight h 0 = 0 then 1 else shiftRight h 0

/-- `x ^= x << 13; x ^= x >>> 17; x ^= x << 5;`. -/
def xorshift (x : Int) : Int :=
  let x := bitXor x (shiftLeft x 13)
  let x := bitXor x (shiftRight x 17)
  bitXor x (shiftLeft x 5)

structure SeededRandom where
  state : Int

namespace SeededRandom

def new (seed : Int) : SeededRandom :=
  let state := toInt32 seed
  ⟨if state = 0 then 1 else state⟩

def next (rng : SeededRandom) : ℚ × SeededRandom :=
  let x := xorshift rng.state
  ((shiftRight x 0 : ℚ) / 0x100000000, ⟨toInt32 x⟩)

def intInRange (rng : SeededRandom) (min max : Int) : Except JsError (Int × SeededRandom) :=
  if max < min then .error ⟨"max < min"⟩
  else
    let (x, rng) := rng.next
    .ok (min + ⌊x * ((max - min + 1 : Int) : ℚ)⌋, rng)

end SeededRandom

/-- The loop of `seededShuffle`, with `i` counting down to 1. -/
def shuffleLoop {α : Type} : Nat → Int → List α → List α
  | 0, _, copy => copy
  | i + 1, x, copy =>
    let x := xorshift x
    let j := shiftRight x 0 % ((i + 1 : Nat) + 1)
    shuffleLoop i x (swapAt copy (i + 1) j.toNat)

def seededShuffle {α : Type} (arr : List α) (seed : String) : List α :=
  shuffleLoop (arr.length - 1) (seedFromString seed) arr

/-! ## What it does to words -/

theorem word_xorshift (x : Int) : word (xorshift x) = Boardgame.xorshift (word x) := by
  simp only [xorshift, Boardgame.xorshift, word_bitXor, word_shiftLeft, word_shiftRight]

/-- The result of a step is signed. -/
theorem toInt32_xorshift (x : Int) : toInt32 (xorshift x) = xorshift x := by
  simp only [xorshift, toInt32_bitXor]

/-- Numbers with the same bits have the same next number. -/
theorem xorshift_congr {x y : Int} (h : word x = word y) : xorshift x = xorshift y := by
  rw [← toInt32_xorshift x, ← toInt32_xorshift y]
  apply toInt32_word_inj
  rw [word_xorshift, word_xorshift, h]

/-- The hash of a string is its hash on words. -/
theorem word_hash (codes : List Nat) (h : Int) :
    word (codes.foldl (fun (h : Int) (code : Nat) => imul (bitXor h code) 16777619) h) =
      codes.foldl (fun h code => (h ^^^ BitVec.ofNat 32 code) * 16777619#32) (word h) := by
  induction codes generalizing h with
  | nil => rfl
  | cons code codes ih =>
    have hprime : word 16777619 = 16777619#32 := rfl
    rw [List.foldl_cons, List.foldl_cons, ih, word_imul, word_bitXor, word_natCast, hprime]

theorem seedFromString_eq (s : String) : seedFromString s = (Boardgame.seedFromString s).toNat := by
  have hbasis : word 2166136261 = 2166136261#32 := rfl
  simp only [seedFromString, Boardgame.seedFromString, shiftRight_zero, word_hash, hbasis]
  generalize (charCodes s).foldl (fun h code => (h ^^^ BitVec.ofNat 32 code) * 16777619#32)
    2166136261#32 = h
  by_cases hzero : h = 0#32
  · subst hzero
    rfl
  · have hnat : (h.toNat : Int) ≠ 0 := by
      intro h0
      exact hzero (BitVec.eq_of_toNat_eq (by exact_mod_cast h0))
    rw [if_neg hzero, if_neg hnat]

theorem word_seedFromString (s : String) :
    word (seedFromString s) = Boardgame.seedFromString s := by
  rw [seedFromString_eq, word_toNat]

/-- A seed is an unsigned word, and never zero. -/
theorem seedFromString_range (s : String) : 0 < seedFromString s ∧ seedFromString s < 2 ^ 32 := by
  have hne : Boardgame.seedFromString s ≠ 0#32 := by
    rw [Boardgame.seedFromString]
    split
    · decide
    · assumption
  have hpos : (Boardgame.seedFromString s).toNat ≠ 0 := fun h0 => hne (BitVec.eq_of_toNat_eq h0)
  have hlt := (Boardgame.seedFromString s).isLt
  rw [seedFromString_eq]
  constructor
  · omega
  · exact_mod_cast hlt

theorem xorshift_bijOn : Set.BijOn Boardgame.xorshift {x | x ≠ 0#32} {x | x ≠ 0#32} := by
  have hsteps : Boardgame.xorshift = xorLeft 5 ∘ xorRight 17 ∘ xorLeft 13 := rfl
  have hbij : Function.Bijective Boardgame.xorshift := by
    rw [hsteps]
    exact (xorLeft_bijective (by decide)).comp
      ((xorRight_bijective (by decide)).comp (xorLeft_bijective (by decide)))
  exact bijOn_nonzero hbij (by decide)

/-! ## The generator -/

namespace SeededRandom

variable {rng : SeededRandom}

/-- The generator on words. -/
def bits (rng : SeededRandom) : Boardgame.SeededRandom := ⟨word rng.state⟩

theorem bits_new (seed : Int) : (new seed).bits = Boardgame.SeededRandom.new seed := by
  have hword : BitVec.ofInt 32 seed = word seed := rfl
  simp only [bits, new, Boardgame.SeededRandom.new, hword, word_eq_zero]
  split
  · rfl
  · rw [word_toInt32]

theorem bits_next (rng : SeededRandom) : rng.bits.next = (rng.next.1, rng.next.2.bits) := by
  simp only [bits, next, Boardgame.SeededRandom.next, word_toInt32, ← word_xorshift,
    shiftRight_zero, Int.cast_natCast]

theorem bits_intInRange (rng : SeededRandom) (min max : Int) :
    rng.bits.intInRange min max = (rng.intInRange min max).map fun r => (r.1, r.2.bits) := by
  simp only [intInRange, Boardgame.SeededRandom.intInRange, bits_next]
  split <;> rfl

theorem next_state (rng : SeededRandom) : rng.next.2.state = xorshift rng.state := by
  rw [next, toInt32_xorshift]

/-- A generator with a signed word other than zero. -/
structure Alive (rng : SeededRandom) : Prop where
  signed : toInt32 rng.state = rng.state
  nonzero : rng.state ≠ 0

theorem alive_new (seed : Int) : (new seed).Alive := by
  simp only [new]
  split
  · exact ⟨rfl, by decide⟩
  · rename_i hne
    exact ⟨toInt32_toInt32 seed, hne⟩

theorem Alive.word_ne (h : rng.Alive) : word rng.state ≠ 0#32 := by
  rw [Ne, word_eq_zero, h.signed]
  exact h.nonzero

theorem Alive.next (h : rng.Alive) : rng.next.2.Alive where
  signed := by rw [next_state, toInt32_xorshift]
  nonzero := by
    have hstep : Boardgame.xorshift (word rng.state) ≠ 0#32 := xorshift_bijOn.mapsTo h.word_ne
    rwa [← word_xorshift, Ne, word_eq_zero, toInt32_xorshift, ← next_state] at hstep

/-! ### Calls -/

inductive Call where
  | next
  | intInRange (min max : Int)

/-- What a call returns and the state it leaves; one that throws draws nothing. -/
def call (rng : SeededRandom) : Call → Except JsError ℚ × SeededRandom
  | .next => (.ok rng.next.1, rng.next.2)
  | .intInRange min max =>
    match rng.intInRange min max with
    | .ok (v, rng') => (.ok v, rng')
    | .error e => (.error e, rng)

/-- The generator after some calls. -/
def after (rng : SeededRandom) (calls : List Call) : SeededRandom :=
  calls.foldl (fun rng c => (rng.call c).2) rng

theorem next_range (rng : SeededRandom) : 0 ≤ rng.next.1 ∧ rng.next.1 < 1 := by
  have h := rng.bits.next_range
  rwa [bits_next] at h

theorem intInRange_ok (rng : SeededRandom) {min max : Int} (h : min ≤ max) :
    ∃ v, rng.intInRange min max = .ok (v, rng.next.2) ∧ min ≤ v ∧ v ≤ max := by
  obtain ⟨v, hv, hrange⟩ := rng.bits.intInRange_ok h
  have hdraw : rng.intInRange min max = .ok
      (min + ⌊rng.next.1 * ((max - min + 1 : Int) : ℚ)⌋, rng.next.2) := by
    rw [intInRange, if_neg (by omega)]
  rw [bits_intInRange, hdraw] at hv
  simp only [Except.map, Except.ok.injEq, Prod.mk.injEq] at hv
  exact ⟨v, by rw [hdraw, hv.1], hrange⟩

theorem Alive.call (h : rng.Alive) (c : Call) : (rng.call c).2.Alive := by
  cases c with
  | next => exact h.next
  | intInRange min max =>
    by_cases hle : min ≤ max
    · obtain ⟨v, hv, -⟩ := rng.intInRange_ok hle
      simp only [SeededRandom.call, hv]
      exact h.next
    · simp only [SeededRandom.call, intInRange, if_pos (Int.not_le.mp hle)]
      exact h

theorem Alive.after (h : rng.Alive) (calls : List Call) : (rng.after calls).Alive := by
  induction calls generalizing rng with
  | nil => exact h
  | cons c calls ih => exact ih (h.call c)

end SeededRandom

/-! ## The copy -/

/-- The words that the loop of `seededShuffle` runs through, each with the index it takes from
it. -/
def loopSteps : Nat → Int → List (Int × Int)
  | 0, _ => []
  | i + 1, x =>
    let x := xorshift x
    (x, shiftRight x 0 % ((i + 1 : Nat) + 1)) :: loopSteps i x

/-- The states of a generator in its next `n` draws. -/
def drawn : Nat → SeededRandom → List Int
  | 0, _ => []
  | n + 1, rng => rng.next.2.state :: drawn n rng.next.2

theorem loopSteps_words {i : Nat} {x : Int} {rng : SeededRandom} (h : word x = word rng.state) :
    (loopSteps i x).map Prod.fst = drawn i rng := by
  induction i generalizing x rng with
  | zero => rfl
  | succ i ih =>
    have hstep : xorshift x = rng.next.2.state := by rw [SeededRandom.next_state, xorshift_congr h]
    have hrest := ih (congrArg word hstep)
    rw [loopSteps, drawn, List.map_cons, hrest, hstep]

theorem loopSteps_range (i : Nat) (x : Int) :
    List.Forall₂ (fun k e => 0 ≤ e ∧ e ≤ (k : Int)) (countdown i)
      ((loopSteps i x).map Prod.snd) := by
  induction i generalizing x with
  | zero => exact .nil
  | succ i ih =>
    have hlow := Int.emod_nonneg (shiftRight (xorshift x) 0)
      (by omega : ((i + 1 : Nat) + 1 : Int) ≠ 0)
    have hhigh := Int.emod_lt_of_pos (shiftRight (xorshift x) 0)
      (by omega : (0 : Int) < (i + 1 : Nat) + 1)
    exact .cons ⟨hlow, by omega⟩ (ih _)

theorem shuffleLoop_steps {α : Type} (i : Nat) (x : Int) (l : List α) :
    shuffleLoop i x l = settle (countdown i) ((loopSteps i x).map fun e => e.2.toNat) l := by
  induction i generalizing x l with
  | zero => rfl
  | succ i ih => rw [shuffleLoop, loopSteps, countdown, List.map_cons, settle, ih]

theorem shuffleLoop_eq {α : Type} (i : Nat) (x : Int) (l : List α) :
    shuffleLoop i x l = Kingdoms.shuffleLoop i (word x) l := by
  induction i generalizing x l with
  | zero => rfl
  | succ i ih =>
    have hindex : (shiftRight (xorshift x) 0 % ((i + 1 : Nat) + 1)).toNat =
        (word (xorshift x)).toNat % (i + 2) := by
      have hcast : (((word (xorshift x)).toNat % (i + 2) : Nat) : Int) =
          (word (xorshift x)).toNat % ((i + 1 : Nat) + 1) := by
        push_cast
        ring_nf
      rw [shiftRight_zero, ← hcast, Int.toNat_natCast]
    rw [shuffleLoop, Kingdoms.shuffleLoop, ih, hindex, word_xorshift]

/-- The shuffle of the map is the one on words. -/
theorem seededShuffle_eq {α : Type} (arr : List α) (seed : String) :
    seededShuffle arr seed = Kingdoms.seededShuffle arr seed := by
  rw [seededShuffle, shuffleLoop_eq, word_seedFromString, Kingdoms.seededShuffle]

/-! ## Soundness -/

/-- The two copies start with two readings of the same word. -/
theorem word_new_seed (s : String) :
    word (SeededRandom.new (seedFromString s)).state = word (seedFromString s) := by
  have hne : toInt32 (seedFromString s) ≠ 0 := by
    have hrange := seedFromString_range s
    rw [toInt32]
    split <;> omega
  rw [SeededRandom.new, if_neg hne, word_toInt32]

/-- **The generator never dies or leaves its range.** For every integer seed, those of strings among
them, and after any calls; and the copy of the loop has the states of the generator for its
words. -/
theorem generator_sound :
    (∀ x, word (xorshift x) = Boardgame.xorshift (word x)) ∧
    Set.BijOn Boardgame.xorshift {x | x ≠ 0#32} {x | x ≠ 0#32} ∧
    (∀ s, 0 < seedFromString s ∧ seedFromString s < 2 ^ 32) ∧
    (∀ (seed : Int) (calls : List SeededRandom.Call),
      let rng := (SeededRandom.new seed).after calls
      rng.state ≠ 0 ∧ word rng.state ≠ 0#32 ∧
      (0 ≤ rng.next.1 ∧ rng.next.1 < 1) ∧
      ∀ min max : Int, min ≤ max → ∃ v rng', rng.intInRange min max = .ok (v, rng') ∧
        min ≤ v ∧ v ≤ max) ∧
    ∀ s : String,
      word (seedFromString s) = word (SeededRandom.new (seedFromString s)).state ∧
      (∀ i, (loopSteps i (seedFromString s)).map Prod.fst =
        drawn i (SeededRandom.new (seedFromString s)) ∧
        List.Forall₂ (fun k e => 0 ≤ e ∧ e ≤ (k : Int)) (countdown i)
          ((loopSteps i (seedFromString s)).map Prod.snd)) ∧
      ∀ {α : Type} (arr : List α), seededShuffle arr s =
        fisherYates ((loopSteps (arr.length - 1) (seedFromString s)).map fun e => e.2.toNat)
          arr := by
  refine ⟨word_xorshift, xorshift_bijOn, seedFromString_range, fun seed calls => ?_, fun s => ?_⟩
  · have halive := (SeededRandom.alive_new seed).after calls
    refine ⟨halive.nonzero, halive.word_ne, SeededRandom.next_range _, fun min max h => ?_⟩
    obtain ⟨v, hdraw, hrange⟩ := SeededRandom.intInRange_ok _ h
    exact ⟨v, _, hdraw, hrange⟩
  · have hseed := (word_new_seed s).symm
    exact ⟨hseed, fun i => ⟨loopSteps_words hseed, loopSteps_range i _⟩, fun arr =>
      shuffleLoop_steps _ _ arr⟩

end Boardgame.Js
