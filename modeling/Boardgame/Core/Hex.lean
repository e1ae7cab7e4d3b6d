import Mathlib.Data.List.Nodup
import Mathlib.Data.Rat.Cast.Order
import Mathlib.Tactic.Linarith
import Boardgame.Core.GameMap

/-!
# Core.Hex

Distances and neighbourhoods in axial coordinates (`map/coordinate.ts`, `map/hex-tile.ts`).

* `axialDistance_eq`: half the cube distance is the greatest of the three differences.
* `mem_hexesInRange`, `hexesInRange_nodup`: the row loops list what is in range, once.
* `isNeighbour_iff_mem`, `isNeighbour_iff_distance`: the three neighbour tests agree.
-/

namespace Boardgame

structure CubeCoord where
  x : Int
  y : Int
  z : Int
  deriving DecidableEq

def axialToCube (c : AxialCoord) : CubeCoord := { x := c.q, z := c.r, y := -c.q - c.r }

/-- The sum is even, but the source divides numbers. -/
def axialDistance (a b : AxialCoord) : ℚ :=
  let ac := axialToCube a
  let bc := axialToCube b
  ((ac.x - bc.x).natAbs + (ac.y - bc.y).natAbs + (ac.z - bc.z).natAbs : Nat) / 2

/-- `AXIAL_NEIGHBOURS`. -/
def axialDirections : List AxialCoord := [⟨1, 0⟩, ⟨1, -1⟩, ⟨0, -1⟩, ⟨-1, 0⟩, ⟨-1, 1⟩, ⟨0, 1⟩]

def axialNeighbours (c : AxialCoord) : List AxialCoord :=
  axialDirections.map fun d => ⟨c.q + d.q, c.r + d.r⟩

/-- `for (let i = lo; i <= hi; i++)`. -/
def intsFrom (lo hi : Int) : List Int :=
  (List.range (hi + 1 - lo).toNat).map fun (i : Nat) => lo + i

def hexesInRange (centre : AxialCoord) (radius : Int) : List AxialCoord :=
  (intsFrom (-radius) radius).flatMap fun dq =>
    let rMin := max (-radius) (-dq - radius)
    let rMax := min radius (-dq + radius)
    (intsFrom rMin rMax).map fun dr => ⟨centre.q + dq, centre.r + dr⟩

@[ext] theorem AxialCoord.ext {a b : AxialCoord} (hq : a.q = b.q) (hr : a.r = b.r) : a = b := by
  cases a; cases b; cases hq; cases hr; rfl

/-! ## Distance -/

/-- How far apart two coordinates are: the greatest of the differences along the three axes. -/
def hexGap (a b : AxialCoord) : Nat :=
  max (max (a.q - b.q).natAbs (a.r - b.r).natAbs) ((a.q - b.q) + (a.r - b.r)).natAbs

theorem hexGap_comm (a b : AxialCoord) : hexGap a b = hexGap b a := by
  have hq : (a.q - b.q).natAbs = (b.q - a.q).natAbs := by omega
  have hr : (a.r - b.r).natAbs = (b.r - a.r).natAbs := by omega
  have hsum : ((a.q - b.q) + (a.r - b.r)).natAbs = ((b.q - a.q) + (b.r - a.r)).natAbs := by omega
  rw [hexGap, hexGap, hq, hr, hsum]

theorem axialDistance_eq (a b : AxialCoord) : axialDistance a b = hexGap a b := by
  have hsum : (a.q - b.q).natAbs + ((-a.q - a.r) - (-b.q - b.r)).natAbs + (a.r - b.r).natAbs =
      2 * hexGap a b := by
    unfold hexGap
    omega
  have hcast :
      (((a.q - b.q).natAbs + ((-a.q - a.r) - (-b.q - b.r)).natAbs + (a.r - b.r).natAbs : Nat) : ℚ) =
      2 * hexGap a b := by rw [hsum, Nat.cast_mul, Nat.cast_ofNat]
  change (((a.q - b.q).natAbs + ((-a.q - a.r) - (-b.q - b.r)).natAbs + (a.r - b.r).natAbs : Nat)
    : ℚ) / 2 = _
  rw [hcast]
  linarith

theorem axialDistance_le {a b : AxialCoord} {n : Nat} : axialDistance a b ≤ n ↔ hexGap a b ≤ n := by
  rw [axialDistance_eq, Nat.cast_le]

/-! ## Range -/

theorem mem_intsFrom {lo hi i : Int} : i ∈ intsFrom lo hi ↔ lo ≤ i ∧ i ≤ hi := by
  simp only [intsFrom, List.mem_map, List.mem_range]
  constructor
  · rintro ⟨k, hk, rfl⟩
    omega
  · rintro ⟨hlo, hhi⟩
    exact ⟨(i - lo).toNat, by omega, by omega⟩

theorem intsFrom_nodup (lo hi : Int) : (intsFrom lo hi).Nodup :=
  List.nodup_range.map fun i j h => by simpa using h

theorem mem_hexesInRange {c x : AxialCoord} {n : Nat} : x ∈ hexesInRange c n ↔ hexGap c x ≤ n := by
  simp only [hexesInRange, List.mem_flatMap, List.mem_map, mem_intsFrom, hexGap]
  constructor
  · rintro ⟨dq, hdq, dr, hdr, rfl⟩
    dsimp only
    omega
  · intro h
    refine ⟨x.q - c.q, by omega, x.r - c.r, by omega, AxialCoord.ext ?_ ?_⟩
    · dsimp only
      omega
    · dsimp only
      omega

theorem hexesInRange_nodup (c : AxialCoord) (radius : Int) : (hexesInRange c radius).Nodup := by
  refine List.nodup_flatMap.mpr ⟨fun dq _ => ?_, ?_⟩
  · refine (intsFrom_nodup _ _).map fun i j h => ?_
    have hr := congrArg AxialCoord.r h
    dsimp only at hr
    omega
  · refine (intsFrom_nodup _ _).imp fun {i j} hij => ?_
    intro x hi hj
    obtain ⟨_, -, rfl⟩ := List.mem_map.mp hi
    obtain ⟨_, -, h⟩ := List.mem_map.mp hj
    have hq := congrArg AxialCoord.q h
    dsimp only at hq
    omega

/-! ## Neighbours -/

theorem isNeighbour_iff (a b : AxialCoord) : isNeighbour a b = true ↔ hexGap a b = 1 := by
  unfold isNeighbour hexGap
  split
  · rename_i h
    subst h
    simp
  · rename_i h
    have hne : a.q ≠ b.q ∨ a.r ≠ b.r := by
      by_contra hboth
      push Not at hboth
      exact h (AxialCoord.ext hboth.1 hboth.2)
    simp only [decide_eq_true_eq]
    omega

theorem isNeighbour_iff_mem (a b : AxialCoord) : isNeighbour a b = true ↔
    b ∈ axialNeighbours a := by
  rw [isNeighbour_iff]
  simp only [axialNeighbours, axialDirections, List.map_cons, List.map_nil, List.mem_cons,
    List.not_mem_nil, or_false, AxialCoord.ext_iff, hexGap]
  omega

theorem isNeighbour_iff_distance (a b : AxialCoord) : isNeighbour a b = true ↔
    axialDistance a b = 1 := by
  rw [isNeighbour_iff, axialDistance_eq, Nat.cast_eq_one]

end Boardgame
