import Mathlib.Analysis.Real.Sqrt
import Boardgame.Core.Combat

/-!
# Core.Exact

Strengths taken as exact numbers: those of an ordered field with a floor. The reals are such numbers
(`instance : ExactStrength ℝ`), and the rationals with their rounded square root.

* `resolveAttack_report`: strengths, winner and the winner's losses, in the numbers of the field.
-/

namespace Boardgame

open Strength

/-- The operations are those of the field. -/
class ExactStrength (R : Type) [Field R] [LinearOrder R] [FloorRing R] [Strength R] : Prop where
  ofRat_eq : ∀ q : ℚ, (ofRat q : R) = q
  mul_eq : ∀ a b : R, mul a b = a * b
  div_eq : ∀ a b : R, div a b = a / b
  sqrt_nonneg : ∀ a : R, 0 ≤ sqrt a
  gt_iff : ∀ a b : R, gt a b = true ↔ b < a
  floor_eq : ∀ a : R, floor a = ⌊a⌋

instance : ExactStrength ℚ where
  ofRat_eq _ := rfl
  mul_eq _ _ := rfl
  div_eq _ _ := rfl
  sqrt_nonneg := Rat.sqrt_nonneg
  gt_iff _ _ := decide_eq_true_iff
  floor_eq _ := rfl

noncomputable instance : Strength ℝ where
  ofRat q := q
  mul := (· * ·)
  div := (· / ·)
  sqrt := Real.sqrt
  gt a b := decide (b < a)
  floor := Int.floor

instance : ExactStrength ℝ where
  ofRat_eq _ := rfl
  mul_eq _ _ := rfl
  div_eq _ _ := rfl
  sqrt_nonneg := Real.sqrt_nonneg
  gt_iff _ _ := decide_eq_true_iff
  floor_eq _ := rfl

/-! ## Shares -/

/-- A part of `n` is rounded down to between none and all. -/
theorem share_toNat {R : Type} [Field R] [LinearOrder R] [IsStrictOrderedRing R] [FloorRing R]
    {n : ℕ} {a b c : R} (hb : 0 ≤ b) (hba : b ≤ a) (hc : 0 ≤ c) (hc' : c ≤ 1) :
    ((min (⌊(n : R) * (b / a) * c⌋).toNat n : ℕ) : ℤ) = ⌊(n : R) * (b / a) * c⌋ := by
  have hratio : b / a ≤ 1 := div_le_one_of_le₀ hba (hb.trans hba)
  have hratio' : 0 ≤ b / a := div_nonneg hb (hb.trans hba)
  have hn : (0 : R) ≤ n := Nat.cast_nonneg n
  have hnonneg : 0 ≤ ⌊(n : R) * (b / a) * c⌋ :=
    Int.floor_nonneg.mpr (mul_nonneg (mul_nonneg hn hratio') hc)
  have hle : ⌊(n : R) * (b / a) * c⌋ ≤ n := by
    have hshare : (n : R) * (b / a) * c ≤ n :=
      (mul_le_of_le_one_right (mul_nonneg hn hratio') hc').trans (mul_le_of_le_one_right hn hratio)
    exact_mod_cast (Int.floor_le _).trans hshare
  omega

/-! ## The formula -/

section Formula

variable {R : Type} [Field R] [LinearOrder R] [FloorRing R] [Strength R] [ExactStrength R]

def attackSum (cs : List Combatant) : ℚ := (cs.map Combatant.attack).sum

/-- `totalAttack * Math.sqrt(combatants.length)`. -/
theorem computeStrength_eq (cs : List Combatant) :
    (computeStrength cs : R) = if cs = [] then 0 else (attackSum cs : R) * sqrt
      (cs.length : R) := by
  have hsum : cs.foldl (fun sum c => sum + c.attack) 0 = attackSum cs := by
    rw [attackSum, List.sum_eq_foldl, List.foldl_map]
  unfold computeStrength
  simp only [List.length_eq_zero_iff, ExactStrength.ofRat_eq, ExactStrength.mul_eq, hsum,
    Rat.cast_zero, Rat.cast_natCast]

/-- The multipliers of structures, taken together. -/
def defenseProduct (structures : List StructureEffect) : ℚ :=
  (structures.map StructureEffect.defenseMultiplier).prod

theorem compositeDefenseBonus_eq (tile : TileProperties) (structures : List StructureEffect) :
    (compositeDefenseBonus tile structures : R) =
      (tile.defenseBonus : R) * (defenseProduct structures : R) := by
  have hfold : ∀ acc : ℚ, structures.foldl (fun acc s => mul acc (ofRat s.defenseMultiplier))
      (acc : R) =
      ((acc * defenseProduct structures : ℚ) : R) := by
    induction structures with
    | nil => intro acc; simp [defenseProduct]
    | cons x xs ih =>
      intro acc
      rw [List.foldl_cons, ExactStrength.ofRat_eq, ExactStrength.mul_eq, ← Rat.cast_mul, ih,
        defenseProduct, defenseProduct, List.map_cons, List.prod_cons, mul_assoc]
  have hone := hfold 1
  unfold compositeDefenseBonus
  simp only [ExactStrength.mul_eq, ExactStrength.ofRat_eq] at hone ⊢
  rw [hone, one_mul]

variable [IsStrictOrderedRing R]

theorem computeStrength_nonneg {cs : List Combatant} (h : ∀ c ∈ cs, 0 ≤ c.attack) :
    (0 : R) ≤ computeStrength cs := by
  rw [computeStrength_eq]
  split
  · exact le_rfl
  · have hsum : 0 ≤ attackSum cs := List.sum_nonneg fun q hq => by
      obtain ⟨c, hc, rfl⟩ := List.mem_map.mp hq
      exact h c hc
    exact mul_nonneg (by exact_mod_cast hsum) (ExactStrength.sqrt_nonneg _)

/-- The strength of the defenders, with the bonus of their tile. -/
def defence (defenders : List Combatant) (tile : TileProperties)
    (structures : List StructureEffect) : R :=
  if defenders = [] then 0
  else computeStrength defenders * ((tile.defenseBonus : R) * (defenseProduct structures : R))

/-- The losses of the winning side. -/
def winnerLosses (m n : ℕ) (a b : R) : ℤ :=
  if n = 0 then 0
  else if b < a then ⌊(m : R) * (b / a) * (1 / 2)⌋
  else ⌊(n : R) * (a / b) * (2 / 5)⌋

/-- **What a fight reports.** -/
theorem resolveAttack_report {attackers defenders : List Combatant} {tile : TileProperties}
    {structures : List StructureEffect} {G : Type} {rng : Option (CombatRng G)} {g g' : G}
    {res : CombatResult R} (hrng : ∀ r ∈ rng, InRange r) (hatt : ∀ c ∈ attackers, 0 ≤ c.attack)
    (hdef : ∀ c ∈ defenders, 0 ≤ c.attack) (hbonus : 0 ≤ tile.defenseBonus)
    (hstr : ∀ s ∈ structures, 0 ≤ s.defenseMultiplier)
    (h : (resolveAttack attackers defenders tile structures rng).run g = .ok res g') :
    res.attackerStrength = computeStrength attackers ∧
      res.defenderStrength = defence defenders tile structures ∧
      res.attackerWins = decide (defenders = [] ∨
        (defence defenders tile structures : R) < computeStrength attackers) ∧
      (((if res.attackerWins then res.attackerLosses else res.defenderLosses).length : ℕ) : ℤ) =
        winnerLosses attackers.length defenders.length (computeStrength attackers : R)
          (defence defenders tile structures) := by
  have ha : (0 : R) ≤ computeStrength attackers := computeStrength_nonneg hatt
  have hprod : 0 ≤ defenseProduct structures := List.prod_nonneg fun q hq => by
    obtain ⟨s, hs, rfl⟩ := List.mem_map.mp hq
    exact hstr s hs
  have hb : (0 : R) ≤ defence defenders tile structures := by
    unfold defence
    split
    · exact le_rfl
    · exact mul_nonneg (computeStrength_nonneg hdef)
        (mul_nonneg (by exact_mod_cast hbonus) (by exact_mod_cast hprod))
  unfold resolveAttack at h
  dsimp only at h
  by_cases hd : defenders = []
  · subst hd
    rw [if_pos List.length_nil, EStateM.run_pure] at h
    cases h
    refine ⟨rfl, ?_, by simp, by simp [winnerLosses]⟩
    rw [defence, if_pos rfl, ExactStrength.ofRat_eq, Rat.cast_zero]
  · have hlen : defenders.length ≠ 0 := fun h0 => hd (List.length_eq_zero_iff.mp h0)
    have hstrength : mul (computeStrength defenders) (compositeDefenseBonus tile structures) =
        (defence defenders tile structures : R) := by
      rw [ExactStrength.mul_eq, compositeDefenseBonus_eq, defence, if_neg hd]
    rw [if_neg hlen, hstrength] at h
    have hshare : ∀ (n : ℕ) (x y : R) (q : ℚ),
        floor (mul (mul (ofRat n) (div x y)) (ofRat q)) = ⌊(n : R) * (x / y) * (q : R)⌋ :=
        fun n x y q => by
      simp only [ExactStrength.ofRat_eq, ExactStrength.mul_eq, ExactStrength.div_eq,
        ExactStrength.floor_eq, Rat.cast_natCast]
    rw [hshare, hshare] at h
    by_cases hwin : (defence defenders tile structures : R) < computeStrength attackers
    · rw [if_pos ((ExactStrength.gt_iff _ _).mpr hwin)] at h
      obtain ⟨lost, g₁, hrun, hlost, -⟩ := pickRandom_ok hrng attackers
        ⌊(attackers.length : R) *
        ((defence defenders tile structures : R) / computeStrength attackers) *
          ((1 / 2 : ℚ) : R)⌋ g
      rw [Eff.bind_ok hrun, EStateM.run_pure] at h
      cases h
      refine ⟨rfl, rfl, by simp [hwin], ?_⟩
      rw [if_pos rfl, List.length_map, hlost, share_toNat hb hwin.le (by positivity) (by norm_num),
        winnerLosses,
        if_neg hlen, if_pos hwin]
      norm_num
    · rw [if_neg fun hgt => hwin ((ExactStrength.gt_iff _ _).mp hgt)] at h
      obtain ⟨lost, g₁, hrun, hlost, -⟩ := pickRandom_ok hrng defenders
        ⌊(defenders.length : R) *
        ((computeStrength attackers : R) / defence defenders tile structures) *
          ((2 / 5 : ℚ) : R)⌋ g
      rw [Eff.bind_ok hrun, EStateM.run_pure] at h
      cases h
      refine ⟨rfl, rfl, by simp [hwin, hd], ?_⟩
      rw [if_neg Bool.false_ne_true, List.length_map, hlost,
        share_toNat ha (not_lt.mp hwin) (by positivity) (by norm_num), winnerLosses, if_neg hlen,
        if_neg hwin]
      norm_num

end Formula

end Boardgame
