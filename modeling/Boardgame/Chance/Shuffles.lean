import Boardgame.Core.Combat
import Boardgame.Frontier.Defs
import Boardgame.Kingdoms.Defs

/-!
# Chance.Shuffles

The four loops that shuffle: of a deck (`cards/deck.ts`), of the two maps, and of the casualty draw.
What they do to a list depends on the numbers they draw and on nothing else; with a generator that
reads its numbers from a script it shows which numbers these may be.

* `shuffle_script`, `pickRandom_script`: the scripts that the loops run through, and what they
  return.
* `shuffleTerrains_eq`, `shuffleLoop_eq`: the loops of the maps draw such scripts from their
  generators.
* `shuffles_fair`: the scripts are one for each permutation, or for each selection.
-/

namespace Boardgame.Chance

/-! ## Decks -/

structure Deck (C : Type) where
  drawPile : List C
  discardPile : List C

/-- `RandomSource.intInRange`, of a source with the state `G`. -/
abbrev RandomSource (G : Type) := CombatRng G

section Deck

variable {C G : Type}

/-- The loop of `Deck.shuffle`, with `i` counting down to 1. -/
def shuffleFrom (rng : RandomSource G) : Nat → EStateM JsError (Deck C × G) Unit
  | 0 => pure ()
  | i + 1 => do
    let j ← Eff.zoom Prod.snd (fun g s => (s.1, g)) (rng 0 ((i + 1 : Nat) : Int))
    modify fun s => ({ s.1 with drawPile := swapAt s.1.drawPile (i + 1) j.toNat }, s.2)
    shuffleFrom rng i

def Deck.shuffle (rng : RandomSource G) : EStateM JsError (Deck C × G) Unit := do
  let s ← get
  shuffleFrom rng (s.1.drawPile.length - 1)

end Deck

/-! ## Scripts -/

/-- A source that returns the next number of the script, if it is in the range. -/
def script : RandomSource (List Nat) := fun min max js =>
  match js with
  | [] => .error ⟨"the script has ended"⟩ []
  | j :: rest => if min ≤ j ∧ (j : Int) ≤ max then .ok j rest else .error ⟨"not in the range"⟩ js

theorem script_ok {min max v : Int} {js js' : List Nat} :
    (script min max).run js = .ok v js' ↔ ∃ j : Nat, v = j ∧ js = j :: js' ∧ min ≤ j ∧
    (j : Int) ≤ max := by
  cases js with
  | nil => simp [script, EStateM.run]
  | cons j rest =>
    simp only [script, EStateM.run, List.cons.injEq]
    by_cases h : min ≤ j ∧ (j : Int) ≤ max
    · rw [if_pos h]
      constructor
      · intro heq
        cases heq
        exact ⟨j, rfl, ⟨rfl, rfl⟩, h⟩
      · rintro ⟨i, rfl, ⟨rfl, rfl⟩, -⟩
        rfl
    · rw [if_neg h]
      constructor
      · intro heq
        cases heq
      · rintro ⟨i, rfl, ⟨rfl, rfl⟩, hrange⟩
        exact absurd hrange h

section Script

variable {C : Type}

/-- One pass of the loop takes one number of the script. -/
theorem shuffleFrom_step {i : Nat} {js : List Nat} {d : Deck C} {s : Deck C × List Nat} :
    (shuffleFrom script (i + 1)).run (d, js) = .ok () s ↔ ∃ j rest, js = j :: rest ∧ j ≤ i + 1 ∧
      (shuffleFrom script i).run ({ d with drawPile := swapAt d.drawPile (i + 1) j }, rest) =
        .ok () s := by
  rw [shuffleFrom, Eff.bind_eq_ok]
  constructor
  · rintro ⟨v, s₁, hdraw, hrun⟩
    obtain ⟨rest, hscript, rfl⟩ := Eff.zoom_eq_ok.mp hdraw
    obtain ⟨j, rfl, hjs, -, hle⟩ := script_ok.mp hscript
    exact ⟨j, rest, hjs, by exact_mod_cast hle, hrun⟩
  · rintro ⟨j, rest, rfl, hle, hrun⟩
    have hscript : (script 0 ((i + 1 : Nat) : Int)).run (j :: rest) = .ok (j : Int) rest :=
      script_ok.mpr ⟨j, rfl, rfl, by omega, by exact_mod_cast hle⟩
    exact ⟨j, (d, rest), Eff.zoom_eq_ok.mpr ⟨rest, hscript, rfl⟩, hrun⟩

theorem shuffleFrom_script {i : Nat} {js : List Nat} {d d' : Deck C} :
    (shuffleFrom script i).run (d, js) = .ok () (d', []) ↔
      Rolls i js ∧ d' = { d with drawPile := settle (countdown i) js d.drawPile } := by
  induction i generalizing js d with
  | zero =>
    constructor
    · intro h
      cases h
      exact ⟨.nil, rfl⟩
    · rintro ⟨hrolls, rfl⟩
      rw [List.forall₂_nil_left_iff.mp hrolls]
      rfl
  | succ i ih =>
    rw [shuffleFrom_step]
    constructor
    · rintro ⟨j, rest, rfl, hle, hrun⟩
      obtain ⟨hrolls, rfl⟩ := ih.mp hrun
      exact ⟨.cons hle hrolls, rfl⟩
    · rintro ⟨hrolls, rfl⟩
      cases hrolls with
      | cons hle hrest => exact ⟨_, _, rfl, hle, ih.mpr ⟨hrest, rfl⟩⟩

theorem shuffle_script {js : List Nat} {d d' : Deck C} :
    (Deck.shuffle script).run (d, js) = .ok () (d', []) ↔
      Rolls (d.drawPile.length - 1) js ∧ d' = { d with drawPile := fisherYates js d.drawPile } :=
  shuffleFrom_script

/-- One pass of the casualty draw. -/
theorem drawLoop_step {left i : Nat} {js : List Nat} {copy : List C} {s : List Nat} {out : List C} :
    (drawLoop script (left + 1) i copy).run js = .ok out s ↔
      ∃ j rest, js = j :: rest ∧ i ≤ j ∧ j < copy.length ∧
      (drawLoop script left (i + 1) (swapAt copy i j)).run rest = .ok out s := by
  rw [drawLoop, Eff.bind_eq_ok]
  constructor
  · rintro ⟨v, rest, hdraw, hrun⟩
    obtain ⟨j, rfl, hjs, hmin, hmax⟩ := script_ok.mp hdraw
    exact ⟨j, rest, hjs, by exact_mod_cast hmin, by omega, hrun⟩
  · rintro ⟨j, rest, rfl, hmin, hmax, hrun⟩
    exact ⟨j, rest, script_ok.mpr ⟨j, rfl, rfl, by exact_mod_cast hmin, by omega⟩, hrun⟩

theorem drawLoop_script {left i : Nat} {js : List Nat} {copy out : List C} :
    (drawLoop script left i copy).run js = .ok out [] ↔
      List.Forall₂ (fun k j => k ≤ j ∧ j < copy.length) (List.range' i left) js ∧
        out = settle (List.range' i left) js copy := by
  induction left generalizing i js copy with
  | zero =>
    constructor
    · intro h
      cases h
      exact ⟨.nil, rfl⟩
    · rintro ⟨hpicks, rfl⟩
      rw [List.forall₂_nil_left_iff.mp hpicks]
      rfl
  | succ left ih =>
    rw [drawLoop_step, List.range'_succ]
    constructor
    · rintro ⟨j, rest, rfl, hmin, hmax, hrun⟩
      obtain ⟨hpicks, rfl⟩ := ih.mp hrun
      rw [length_swapAt] at hpicks
      exact ⟨.cons ⟨hmin, hmax⟩ hpicks, rfl⟩
    · rintro ⟨hpicks, rfl⟩
      cases hpicks with
      | cons hj hrest =>
        refine ⟨_, _, rfl, hj.1, hj.2, ih.mpr ⟨?_, rfl⟩⟩
        rwa [length_swapAt]

theorem pickRandom_script {l sel : List C} {count : Nat} {js : List Nat}
    (hcount : count < l.length) :
    (pickRandom l (count : Int) (some script)).run js = .ok sel [] ↔
      Picks l.length count js ∧ sel = selection count js l := by
  rcases Nat.eq_zero_or_pos count with rfl | hpos
  · rw [Picks, List.range_zero, List.forall₂_nil_left_iff]
    constructor
    · intro h
      cases h
      exact ⟨rfl, rfl⟩
    · rintro ⟨rfl, rfl⟩
      rfl
  · rw [pickRandom, if_neg (by omega)]
    simp only [ge_iff_le, Nat.cast_le, if_neg (Nat.not_le.mpr hcount), Int.toNat_natCast,
      Eff.bind_eq_ok]
    rw [Picks, selection, List.range_eq_range']
    constructor
    · rintro ⟨copy, s, hrun, hpure⟩
      cases hpure
      obtain ⟨hpicks, rfl⟩ := drawLoop_script.mp hrun
      exact ⟨hpicks, rfl⟩
    · rintro ⟨hpicks, rfl⟩
      exact ⟨_, [], drawLoop_script.mpr ⟨hpicks, rfl⟩, rfl⟩

end Script

/-! ## The loops of the maps -/

/-- The numbers that the loop of `buildDemoMap` draws. -/
def terrainDraws : Nat → SeededRandom → List Nat
  | 0, _ => []
  | i + 1, rng =>
    match rng.intInRange 0 ((i + 1 : Nat) : Int) with
    | .ok (j, rng) => j.toNat :: terrainDraws i rng
    | .error _ => []

/-- The numbers that the loop of `seededShuffle` draws. -/
def wordDraws : Nat → BitVec 32 → List Nat
  | 0, _ => []
  | i + 1, x =>
    let x := xorshift x
    x.toNat % (i + 2) :: wordDraws i x

/-- One pass of the loop draws one number of the range. -/
theorem terrainDraws_step (i : Nat) (rng : SeededRandom) : ∃ j, j ≤ i + 1 ∧
    terrainDraws (i + 1) rng = j :: terrainDraws i rng.next.2 ∧ ∀ terrains,
      Frontier.shuffleTerrains (i + 1) rng terrains =
        Frontier.shuffleTerrains i rng.next.2 (swapAt terrains (i + 1) j) := by
  have hrange : (0 : Int) ≤ ((i + 1 : Nat) : Int) := Int.natCast_nonneg _
  obtain ⟨v, hdraw, hmin, hmax⟩ := rng.intInRange_ok hrange
  refine ⟨v.toNat, by omega, ?_, fun terrains => ?_⟩
  · rw [terrainDraws, hdraw]
  · rw [Frontier.shuffleTerrains, hdraw]

theorem terrainDraws_rolls (i : Nat) (rng : SeededRandom) : Rolls i (terrainDraws i rng) := by
  induction i generalizing rng with
  | zero => exact .nil
  | succ i ih =>
    obtain ⟨j, hj, hdraws, -⟩ := terrainDraws_step i rng
    rw [hdraws]
    exact .cons hj (ih _)

theorem shuffleTerrains_eq (i : Nat) (rng : SeededRandom) (terrains : List String) :
    Frontier.shuffleTerrains i rng terrains =
      settle (countdown i) (terrainDraws i rng) terrains := by
  induction i generalizing rng terrains with
  | zero => rfl
  | succ i ih =>
    obtain ⟨j, -, hdraws, hloop⟩ := terrainDraws_step i rng
    rw [hloop, hdraws, countdown, settle, ih]

theorem wordDraws_rolls (i : Nat) (x : BitVec 32) : Rolls i (wordDraws i x) := by
  induction i generalizing x with
  | zero => exact .nil
  | succ i ih =>
    have hlt := Nat.mod_lt (xorshift x).toNat (by omega : 0 < i + 2)
    exact .cons (by omega) (ih _)

theorem shuffleLoop_eq {C : Type} (i : Nat) (x : BitVec 32) (l : List C) :
    Kingdoms.shuffleLoop i x l = settle (countdown i) (wordDraws i x) l := by
  induction i generalizing x l with
  | zero => rfl
  | succ i ih => rw [Kingdoms.shuffleLoop, wordDraws, countdown, settle, ih]

/-! ## Fairness -/

/-- **Every shuffle is fair.** The loops settle the places from the last to the second by choices
from `0..i`, one sequence of choices for each of the `n!` permutations; the casualty draw settles
the first `count` by choices from `i..n-1`, one for each selection. -/
theorem shuffles_fair {C : Type} {l : List C} (hl : l.Nodup) :
    (∀ (discards : List C) (js : List Nat) (d' : Deck C),
      (Deck.shuffle script).run (⟨l, discards⟩, js) = .ok () (d', []) ↔
        Rolls (l.length - 1) js ∧ d' = ⟨fisherYates js l, discards⟩) ∧
    (∀ (rng : SeededRandom) (terrains : List String),
      Rolls (terrains.length - 1) (terrainDraws (terrains.length - 1) rng) ∧
      Frontier.shuffleTerrains (terrains.length - 1) rng terrains =
        fisherYates (terrainDraws (terrains.length - 1) rng) terrains) ∧
    (∀ seed : String, Rolls (l.length - 1) (wordDraws (l.length - 1) (seedFromString seed)) ∧
      Kingdoms.seededShuffle l seed = fisherYates
        (wordDraws (l.length - 1) (seedFromString seed)) l) ∧
    Set.BijOn (fun js => fisherYates js l) {js | Rolls (l.length - 1) js}
      {l' : List C | l'.Perm l} ∧
    {l' : List C | l'.Perm l}.ncard = l.length.factorial ∧
    ∀ count < l.length,
      (∀ (js : List Nat) (sel : List C), (pickRandom l (count : Int) (some script)).run js =
        .ok sel [] ↔
        Picks l.length count js ∧ sel = selection count js l) ∧
      Set.BijOn (fun js => selection count js l) {js | Picks l.length count js}
        {sel | sel.Nodup ∧ sel ⊆ l ∧ sel.length = count} := by
  refine ⟨fun discards js d' => shuffle_script, fun rng terrains => ?_, fun seed => ?_,
    fisherYates_bijOn hl, ncard_perms hl, fun count hcount =>
      ⟨fun js sel => pickRandom_script hcount, selection_bijOn hl hcount.le⟩⟩
  · exact ⟨terrainDraws_rolls _ rng, shuffleTerrains_eq _ rng terrains⟩
  · exact ⟨wordDraws_rolls _ _, shuffleLoop_eq _ _ l⟩

theorem shuffles_fair_three : ∃ js, Rolls 2 js ∧ fisherYates js [1, 2, 3] = [3, 1, 2] := by
  have hfair := shuffles_fair (l := [1, 2, 3]) (by decide)
  obtain ⟨js, hjs, heq⟩ := hfair.2.2.2.1.surjOn (by decide : ([3, 1, 2] : List Nat).Perm [1, 2, 3])
  exact ⟨js, hjs, heq⟩

end Boardgame.Chance
