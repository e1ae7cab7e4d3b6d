import Boardgame.Core.Hex
import Boardgame.Kingdoms.Defs

/-!
# Kingdoms.Rings

The rings of the map (`kingdoms/map.ts`). `ring` walks six legs from the corner `(n, 0)`.

* `ring_eq`: the walk as its six legs.
* `mem_ring`, `ring_nodup`: the walk meets the coordinates of ring `n`, each once.
-/

namespace Boardgame.Kingdoms

/-- `n` steps in direction `d` from `p`, without the last. -/
def leg (n : Nat) (p : AxialCoord) (d : Int × Int) : List AxialCoord :=
  (List.range n).map fun (i : Nat) => ⟨p.q + i * d.1, p.r + i * d.2⟩

/-- A step of the walk. -/
def pace (acc : List AxialCoord × AxialCoord) (d : Int × Int) : List AxialCoord × AxialCoord :=
  (acc.1 ++ [acc.2], ⟨acc.2.q + d.1, acc.2.r + d.2⟩)

theorem walk_leg (d : Int × Int) (coords : List AxialCoord) (p : AxialCoord) (n : Nat) :
    (List.replicate n d).foldl pace (coords, p) =
      (coords ++ leg n p d, ⟨p.q + n * d.1, p.r + n * d.2⟩) := by
  induction n with
  | zero => simp [leg]
  | succ n ih =>
    rw [List.replicate_succ', List.foldl_append, ih, List.foldl_cons, List.foldl_nil,
      pace, leg, leg, List.range_succ, List.map_append, List.append_assoc]
    refine Prod.ext rfl (AxialCoord.ext ?_ ?_)
    · dsimp only
      rw [Nat.cast_succ]
      ring
    · dsimp only
      rw [Nat.cast_succ]
      ring

theorem ring_eq {n : Nat} (h : n ≠ 0) :
    ring n = leg n ⟨n, 0⟩ (0, -1) ++ leg n ⟨n, -n⟩ (-1, 0) ++ leg n ⟨0, -n⟩ (-1, 1) ++
      leg n ⟨-n, 0⟩ (0, 1) ++
      leg n ⟨-n, n⟩ (1, 0) ++ leg n ⟨0, n⟩ (1, -1) := by
  have hwalk : ring n = ((ringDirs.flatMap fun d => List.replicate n d).foldl pace
      (([] : List AxialCoord), ⟨n, 0⟩)).1 := if_neg h
  rw [hwalk]
  simp only [ringDirs, List.flatMap_cons, List.flatMap_nil, List.append_nil,
    List.foldl_append, walk_leg]
  simp

/-! ## The legs -/

theorem mem_leg {n : Nat} {p c : AxialCoord} {d : Int × Int} :
    c ∈ leg n p d ↔ ∃ i : Nat, i < n ∧ c.q = p.q + i * d.1 ∧ c.r = p.r + i * d.2 := by
  simp only [leg, List.mem_map, List.mem_range, AxialCoord.ext_iff]
  exact exists_congr fun i => and_congr_right fun _ => and_congr eq_comm eq_comm

theorem leg_nodup (n : Nat) (p : AxialCoord) {d : Int × Int} (hd : d ≠ (0, 0)) :
    (leg n p d).Nodup := by
  refine List.nodup_range.map fun i j h => ?_
  have hq := congrArg AxialCoord.q h
  have hr := congrArg AxialCoord.r h
  have hq' : (i : Int) = j ∨ d.1 = 0 := by simpa using hq
  have hr' : (i : Int) = j ∨ d.2 = 0 := by simpa using hr
  rcases hq' with hq' | hq'
  · exact_mod_cast hq'
  · rcases hr' with hr' | hr'
    · exact_mod_cast hr'
    · exact absurd (Prod.ext hq' hr') hd

/-! ## The rings -/

/-- The leg a coordinate of ring `n` is on: one that starts at a corner holds it, and stops before
the next. -/
theorem leg_cases {n : Nat} (hpos : 0 < n) {c : AxialCoord}
    (h : max (max c.q.natAbs c.r.natAbs) (c.q + c.r).natAbs = n) :
    (c.q = n ∧ -n < c.r ∧ c.r ≤ 0) ∨ (c.r = -n ∧ 0 < c.q ∧ c.q ≤ n) ∨
      (c.q + c.r = -n ∧ -n < c.q ∧ c.q ≤ 0) ∨ (c.q = -n ∧ 0 ≤ c.r ∧ c.r < n) ∨
      (c.r = n ∧ -n ≤ c.q ∧ c.q < 0) ∨ (c.q + c.r = n ∧ 0 ≤ c.q ∧ c.q < n) := by
  have hbounds : (-n ≤ c.q ∧ c.q ≤ n) ∧ (-n ≤ c.r ∧ c.r ≤ n) ∧ -n ≤ c.q + c.r ∧
      c.q + c.r ≤ n := by omega
  have hside : (c.q = n ∨ c.q = -n) ∨ (c.r = n ∨ c.r = -n) ∨ c.q + c.r = n ∨
      c.q + c.r = -n := by omega
  obtain ⟨hq, hr, hqr⟩ := hbounds
  rcases hside with (hc | hc) | (hc | hc) | hc | hc
  · rcases eq_or_ne c.r (-n) with hr' | hr'
    · exact .inr (.inl ⟨hr', by omega⟩)
    · exact .inl ⟨hc, by omega⟩
  · rcases eq_or_ne c.r n with hr' | hr'
    · exact .inr (.inr (.inr (.inr (.inl ⟨hr', by omega⟩))))
    · exact .inr (.inr (.inr (.inl ⟨hc, by omega⟩)))
  · rcases eq_or_ne c.q 0 with hq' | hq'
    · exact .inr (.inr (.inr (.inr (.inr ⟨by omega, by omega⟩))))
    · exact .inr (.inr (.inr (.inr (.inl ⟨hc, by omega⟩))))
  · rcases eq_or_ne c.q 0 with hq' | hq'
    · exact .inr (.inr (.inl ⟨by omega, by omega⟩))
    · exact .inr (.inl ⟨hc, by omega⟩)
  · rcases eq_or_ne c.q n with hq' | hq'
    · exact .inl ⟨hq', by omega⟩
    · exact .inr (.inr (.inr (.inr (.inr ⟨hc, by omega⟩))))
  · rcases eq_or_ne c.q (-n) with hq' | hq'
    · exact .inr (.inr (.inr (.inl ⟨hq', by omega⟩)))
    · exact .inr (.inr (.inl ⟨hc, by omega⟩))

theorem mem_ring {n : Nat} {c : AxialCoord} : c ∈ ring n ↔ tileRing c = n := by
  rcases Nat.eq_zero_or_pos n with rfl | hpos
  · simp only [ring, if_true, List.mem_singleton, AxialCoord.ext_iff, tileRing]
    omega
  rw [ring_eq hpos.ne']
  simp only [List.mem_append, mem_leg, tileRing]
  constructor
  · rintro (((((⟨i, hi, hq, hr⟩ | ⟨i, hi, hq, hr⟩) | ⟨i, hi, hq, hr⟩) | ⟨i, hi, hq, hr⟩) | ⟨i, hi,
      hq, hr⟩) | ⟨i, hi, hq, hr⟩)
    all_goals omega
  · intro h
    -- the leg that starts at a corner holds that corner, and stops before the next
    rcases leg_cases hpos h with hc | hc | hc | hc | hc | hc
    · exact .inl (.inl (.inl (.inl (.inl ⟨(-c.r).toNat, by omega, by omega, by omega⟩))))
    · exact .inl (.inl (.inl (.inl (.inr ⟨(n - c.q).toNat, by omega, by omega, by omega⟩))))
    · exact .inl (.inl (.inl (.inr ⟨(-c.q).toNat, by omega, by omega, by omega⟩)))
    · exact .inl (.inl (.inr ⟨c.r.toNat, by omega, by omega, by omega⟩))
    · exact .inl (.inr ⟨(c.q + n).toNat, by omega, by omega, by omega⟩)
    · exact .inr ⟨c.q.toNat, by omega, by omega, by omega⟩

theorem ring_nodup (n : Nat) : (ring n).Nodup := by
  rcases Nat.eq_zero_or_pos n with rfl | hpos
  · exact List.nodup_singleton _
  rw [ring_eq hpos.ne']
  refine ((((leg_nodup n _ (by decide)).append (leg_nodup n _ (by decide)) ?_).append
    (leg_nodup n _ (by decide)) ?_ |>.append (leg_nodup n _ (by decide)) ?_).append
      (leg_nodup n _ (by decide)) ?_).append (leg_nodup n _ (by decide)) ?_
  all_goals
    intro c hc hc'
    simp only [List.mem_append, mem_leg] at hc hc'
    obtain ⟨j, hj, hq', hr'⟩ := hc'
  · obtain ⟨i, hi, hq, hr⟩ := hc
    omega
  · rcases hc with ⟨i, hi, hq, hr⟩ | ⟨i, hi, hq, hr⟩
    all_goals omega
  · rcases hc with (⟨i, hi, hq, hr⟩ | ⟨i, hi, hq, hr⟩) | ⟨i, hi, hq, hr⟩
    all_goals omega
  · rcases hc with ((⟨i, hi, hq, hr⟩ | ⟨i, hi, hq, hr⟩) | ⟨i, hi, hq, hr⟩) | ⟨i, hi, hq, hr⟩
    all_goals omega
  · rcases hc with (((⟨i, hi, hq, hr⟩ | ⟨i, hi, hq, hr⟩) | ⟨i, hi, hq, hr⟩) | ⟨i, hi, hq, hr⟩) | ⟨i,
      hi, hq, hr⟩
    all_goals omega

/-- Rings share no coordinate. -/
theorem rings_nodup (n : Nat) : ((List.range n).flatMap ring).Nodup := by
  refine List.nodup_flatMap.mpr ⟨fun k _ => ring_nodup k, List.nodup_range.imp fun {i j} hij => ?_⟩
  intro c hi hj
  exact hij ((mem_ring.mp hi).symm.trans (mem_ring.mp hj))

theorem mem_rings {n : Nat} {c : AxialCoord} : c ∈ (List.range n).flatMap ring ↔
    tileRing c < n := by
  simp only [List.mem_flatMap, List.mem_range, mem_ring]
  exact ⟨fun ⟨k, hk, hc⟩ => hc ▸ hk, fun h => ⟨_, h, rfl⟩⟩

theorem hexGap_origin (c : AxialCoord) : hexGap ⟨0, 0⟩ c = tileRing c := by
  simp only [hexGap, tileRing, zero_sub, ← neg_add, Int.natAbs_neg]

/-- **The geometry is coherent.** Ring `n` is the coordinates whose greatest axis is `n`; rings up
to `n` and the range `n` about any centre, moved to the origin, are the coordinates at distance at
most `n`; and the three neighbour tests are one. -/
theorem hexes_coherent :
    (∀ n : Nat, (ring n).Nodup ∧
      ∀ c : AxialCoord, c ∈ ring n ↔ max (max |c.q| |c.r|) |c.q + c.r| = n) ∧
    (∀ (n : Nat) (centre : AxialCoord),
      let rings := (List.range (n + 1)).flatMap ring
      let range := (hexesInRange centre n).map fun x =>
        (⟨x.q - centre.q, x.r - centre.r⟩ : AxialCoord)
      rings.Nodup ∧ range.Nodup ∧
        ∀ c : AxialCoord, (c ∈ rings ↔ axialDistance ⟨0, 0⟩ c ≤ n) ∧
          (c ∈ range ↔ axialDistance ⟨0, 0⟩ c ≤ n)) ∧
    ∀ a b : AxialCoord, (isNeighbour a b = true ↔ b ∈ axialNeighbours a) ∧
      (b ∈ axialNeighbours a ↔ axialDistance a b = 1) := by
  refine ⟨fun n => ⟨ring_nodup n, fun c => ?_⟩, fun n centre =>
    ⟨rings_nodup _, ?_, fun c => ⟨?_, ?_⟩⟩, fun a b => ?_⟩
  · rw [mem_ring, tileRing, Int.abs_eq_natAbs, Int.abs_eq_natAbs, Int.abs_eq_natAbs]
    omega
  · refine (hexesInRange_nodup centre n).map fun x y h => ?_
    have hq := congrArg AxialCoord.q h
    have hr := congrArg AxialCoord.r h
    exact AxialCoord.ext (by simpa using hq) (by simpa using hr)
  · rw [mem_rings, axialDistance_le, hexGap_origin, Nat.lt_succ_iff]
  · rw [axialDistance_le, List.mem_map]
    constructor
    · rintro ⟨x, hx, rfl⟩
      rw [mem_hexesInRange] at hx
      unfold hexGap at hx ⊢
      dsimp only
      omega
    · intro h
      refine ⟨⟨c.q + centre.q, c.r + centre.r⟩, ?_, AxialCoord.ext (by simp) (by simp)⟩
      rw [mem_hexesInRange]
      unfold hexGap at h ⊢
      dsimp only at h ⊢
      omega
  · rw [← isNeighbour_iff_mem]
    exact ⟨Iff.rfl, isNeighbour_iff_distance a b⟩

end Boardgame.Kingdoms
