import Mathlib.Data.List.Perm.Subperm
import Mathlib.Data.Rat.Sqrt
import Boardgame.Lib.Eff
import Boardgame.Core.Random
import Boardgame.Core.Pieces

/-!
# Core.Combat

Combat resolution (`rules/combat.ts`). Strengths are numbers of a type `R` with the operations the
formula uses (`Strength`), so that what is proved holds of doubles and of exact numbers alike.

* `pickRandom_ok`: the casualty draw never asks the generator for an empty range, and draws as many
  as asked for, or all there are, each item it is given once at most.
* `resolveAttack_spec`: who can be lost, and that the losing side is lost as a whole.
-/

namespace Boardgame

/-- The arithmetic of strengths. `floor` of a number without a floor may be any integer. -/
class Strength (R : Type) where
  ofRat : ℚ → R
  mul : R → R → R
  div : R → R → R
  sqrt : R → R
  gt : R → R → Bool
  floor : R → Int

/-- Exact numbers; the square root is exact on squares. -/
instance : Strength ℚ where
  ofRat := id
  mul := (· * ·)
  div := (· / ·)
  sqrt := Rat.sqrt
  gt a b := decide (b < a)
  floor := Int.floor

structure Combatant where
  id : PieceId
  kind : String
  attack : ℚ
  deriving DecidableEq

structure TileProperties where
  defenseBonus : ℚ

structure StructureEffect where
  defenseMultiplier : ℚ

structure CombatResult (R : Type) where
  attackerWins : Bool
  attackerStrength : R
  defenderStrength : R
  attackerLosses : List PieceId
  defenderLosses : List PieceId
  tileConquered : Bool

/-- The generator a fight draws from, with its own state `G`. -/
abbrev CombatRng (G : Type) := Int → Int → EStateM JsError G Int

def SeededRandom.draw : CombatRng SeededRandom := fun min max rng =>
  match rng.intInRange min max with
  | .ok (v, rng) => .ok v rng
  | .error e => .error e rng

section Draw

variable {α G : Type}

/-- The loop of `pickRandom` from index `i`, with `left` draws to go. -/
def drawLoop (rng : CombatRng G) : Nat → Nat → List α → EStateM JsError G (List α)
  | 0, _, copy => pure copy
  | left + 1, i, copy => do
    let j ← rng i ((copy.length : Int) - 1)
    drawLoop rng left (i + 1) (swapAt copy i j.toNat)

def pickRandom (items : List α) (count : Int) (rng : Option (CombatRng G)) :
    EStateM JsError G (List α) :=
  if count ≤ 0 then pure []
  else
    match rng with
    | none => pure (items.take count.toNat)
    | some rng =>
      if count ≥ items.length then pure (items.take count.toNat)
      else do
        let copy ← drawLoop rng count.toNat 0 items
        return copy.take count.toNat

end Draw

section Resolve

variable {R G : Type} [Strength R]

open Strength

def computeStrength (combatants : List Combatant) : R :=
  if combatants.length = 0 then ofRat 0
  else
    let totalAttack := combatants.foldl (fun sum c => sum + c.attack) 0
    mul (ofRat totalAttack) (sqrt (ofRat combatants.length))

def compositeDefenseBonus (tile : TileProperties) (structures : List StructureEffect) : R :=
  let structureMultiplier : R :=
    structures.foldl (fun acc s => mul acc (ofRat s.defenseMultiplier)) (ofRat 1)
  mul (ofRat tile.defenseBonus) structureMultiplier

def resolveAttack (attackers defenders : List Combatant) (tile : TileProperties)
    (structures : List StructureEffect) (rng : Option (CombatRng G)) :
    EStateM JsError G (CombatResult R) :=
  let attackerStrength : R := computeStrength attackers
  let defenderStrength : R := mul (computeStrength defenders)
    (compositeDefenseBonus tile structures)
  if defenders.length = 0 then
    pure ⟨true, attackerStrength, ofRat 0, [], [], true⟩
  else if gt attackerStrength defenderStrength then do
    let ratio := div defenderStrength attackerStrength
    let casualtyCount := floor (mul (mul (ofRat attackers.length) ratio) (ofRat (1 / 2)))
    let lost ← pickRandom attackers casualtyCount rng
    return ⟨true, attackerStrength, defenderStrength, lost.map Combatant.id,
      defenders.map Combatant.id, true⟩
  else do
    let ratio := div attackerStrength defenderStrength
    let casualtyCount := floor (mul (mul (ofRat defenders.length) ratio) (ofRat (2 / 5)))
    let lost ← pickRandom defenders casualtyCount rng
    return ⟨false, attackerStrength, defenderStrength, attackers.map Combatant.id,
      lost.map Combatant.id, false⟩

end Resolve

/-- `pieceAsCombatant(piece)`. -/
def pieceAsCombatant (piece : Piece) : Option Combatant :=
  (piece.stats.bind (·.get? "attack")).map fun attack => ⟨piece.id, piece.kind, attack⟩

/-! ## Draws -/

section Draws

variable {α : Type}

/-- The contract of `intInRange`: from a range that is not empty, a number of the range. -/
def InRange {G : Type} (rng : CombatRng G) : Prop :=
  ∀ (min max : Int) (g : G), min ≤ max → ∃ v g', (rng min max).run g = .ok v g' ∧ min ≤ v ∧ v ≤ max

theorem draw_inRange : InRange SeededRandom.draw := by
  intro min max rng h
  obtain ⟨v, hv, hmin, hmax⟩ := rng.intInRange_ok h
  exact ⟨v, rng.next.2, by simp only [SeededRandom.draw, EStateM.run, hv], hmin, hmax⟩

theorem some_draw_inRange : ∀ r ∈ some SeededRandom.draw, InRange r := by
  rintro r ⟨⟩
  exact draw_inRange

variable {G : Type}

theorem drawLoop_perm {rng : CombatRng G} (hrng : InRange rng) : ∀ (left i : Nat) (copy : List α)
    (g : G), i + left ≤ copy.length →
    ∃ copy' g', (drawLoop rng left i copy).run g = .ok copy' g' ∧ copy'.Perm copy := by
  intro left
  induction left with
  | zero => intro i copy g _; exact ⟨copy, g, rfl, .refl _⟩
  | succ left ih =>
    intro i copy g hi
    obtain ⟨v, g₁, h₁, -⟩ := hrng i ((copy.length : Int) - 1) g (by omega)
    have hswap := swapAt_perm copy i v.toNat
    obtain ⟨copy', g₂, h₂, hperm⟩ := ih (i + 1) (swapAt copy i v.toNat) g₁
      (by rw [hswap.length_eq]; omega)
    exact ⟨copy', g₂, by rw [drawLoop, Eff.bind_ok h₁, h₂], hperm.trans hswap⟩

/-- The items drawn are as many as asked for, if there are so many, each drawn once. -/
theorem pickRandom_ok {rng : Option (CombatRng G)} (hrng : ∀ r ∈ rng, InRange r) (items : List α)
    (count : Int) (g : G) :
    ∃ picked g', (pickRandom items count rng).run g = .ok picked g' ∧
      picked.length = min count.toNat items.length ∧ picked.Subperm items := by
  have htake : ∀ copy : List α, (copy.take count.toNat).length = min count.toNat copy.length :=
    fun copy => List.length_take
  unfold pickRandom
  split
  · rename_i hc
    exact ⟨[], g, rfl, by rw [Int.toNat_of_nonpos hc]; simp, List.nil_subperm⟩
  · split
    · exact ⟨_, g, rfl, htake items, (List.take_sublist _ _).subperm⟩
    · rename_i hc rng
      split
      · exact ⟨_, g, rfl, htake items, (List.take_sublist _ _).subperm⟩
      · obtain ⟨copy, g', h, hperm⟩ := drawLoop_perm (hrng rng rfl) count.toNat 0 items g (by omega)
        refine ⟨_, g', by rw [Eff.bind_ok h, EStateM.run_pure], ?_, ?_⟩
        · rw [htake, hperm.length_eq]
        · exact (List.take_sublist _ _).subperm.trans hperm.subperm

theorem nodup_of_subperm {β : Type} {l l' : List β} (h : l.Subperm l') (hnd : l'.Nodup) :
    l.Nodup := by
  obtain ⟨m, hperm, hsub⟩ := h
  exact hperm.nodup_iff.mp (hnd.sublist hsub)

theorem losses_subperm {lost side : List Combatant} (h : lost.Subperm side) :
    (lost.map Combatant.id).Subperm (side.map Combatant.id) := by
  obtain ⟨l, hperm, hsub⟩ := h
  exact ⟨_, hperm.map _, hsub.map _⟩

end Draws

/-- A fight always has a result, with the strength of the attackers it is given; it loses combatants
of its own sides only, each as often as it is given, all the defenders when the attacker wins, all
the attackers when the defender does. -/
theorem resolveAttack_spec {R G : Type} [Strength R] {rng : Option (CombatRng G)}
    (hrng : ∀ r ∈ rng, InRange r) (attackers defenders : List Combatant) (tile : TileProperties)
    (structures : List StructureEffect) (g : G) :
    ∃ (res : CombatResult R) (g' : G),
      (resolveAttack attackers defenders tile structures rng).run g = .ok res g' ∧
      res.attackerStrength = computeStrength attackers ∧
      res.attackerLosses.Subperm (attackers.map Combatant.id) ∧
      res.defenderLosses.Subperm (defenders.map Combatant.id) ∧
      (res.attackerWins = true → res.defenderLosses = defenders.map Combatant.id) ∧
      (res.attackerWins = false → res.attackerLosses = attackers.map Combatant.id) := by
  unfold resolveAttack
  dsimp only
  split
  · rename_i h
    rw [List.length_eq_zero_iff] at h
    exact ⟨_, g, rfl, rfl, List.nil_subperm, List.nil_subperm, by simp [h], by simp⟩
  · split
    · obtain ⟨lost, g', h, -, hsub⟩ := pickRandom_ok hrng attackers _ g
      refine ⟨_, g', by rw [Eff.bind_ok h, EStateM.run_pure], rfl, losses_subperm hsub, .refl _,
        fun _ => rfl, by simp⟩
    · obtain ⟨lost, g', h, -, hsub⟩ := pickRandom_ok hrng defenders _ g
      refine ⟨_, g', by rw [Eff.bind_ok h, EStateM.run_pure], rfl, .refl _,
        losses_subperm hsub, by simp, fun _ => rfl⟩

end Boardgame
