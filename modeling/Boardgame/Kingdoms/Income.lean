import Mathlib.Algebra.Order.BigOperators.Group.List
import Boardgame.Kingdoms.Upkeep

/-!
# Kingdoms.Income

The income of a player as a sum over the tiles connected to the capital.

* `connected_owned`, `connected_nodup`: those tiles are the player's own, each once.
* `computeIncome_of`: the income is the sum of the shares of the tiles.
* `income_mono`: with more tiles connected, and the same shares, no income is lower.
-/

namespace Boardgame.Kingdoms

variable {R : Type}

/-! ## The connected tiles -/

theorem mem_playerOwnedTiles {own : OrderedMap TileId PlayerId} {p : PlayerId} {t : TileId} :
    t ∈ playerOwnedTiles own p ↔ own.get? t = some p := by
  simp only [playerOwnedTiles, List.mem_map, List.mem_filter, Prod.exists, OrderedMap.mem_entries,
    decide_eq_true_eq]
  constructor
  · rintro ⟨t, o, ⟨h, rfl⟩, rfl⟩
    exact h
  · exact fun h => ⟨t, p, ⟨h, rfl⟩, rfl⟩

theorem mem_playerGateTileIds {s : KState R} {p : PlayerId} {t : TileId} :
    t ∈ playerGateTileIds s p ↔
      ∃ id q, s.pieces.get? id = some q ∧ q.kind = "gate" ∧ q.owner = p ∧ tileOf q = some t := by
  simp only [playerGateTileIds, List.mem_filterMap, OrderedMap.mem_values]
  constructor
  · rintro ⟨q, ⟨id, hq⟩, h⟩
    split at h
    · rename_i hgate
      exact ⟨id, q, hq, hgate.1, hgate.2, h⟩
    · cases h
  · rintro ⟨id, q, hq, hk, ho, ht⟩
    exact ⟨q, ⟨id, hq⟩, by rw [if_pos ⟨hk, ho⟩, ht]⟩

section Connected

variable {s s' : KState R} {p : PlayerId}

theorem connected_nodup : (playerConnectedTiles s p).Nodup := by
  unfold playerConnectedTiles
  split
  · exact List.nodup_nil
  · split
    · exact List.nodup_nil
    · exact getConnectedTiles_nodup

theorem connected_owned {t : TileId} (h : t ∈ playerConnectedTiles s p) :
    s.extras.ownership.get? t = some p := by
  unfold playerConnectedTiles at h
  split at h
  · exact absurd h List.not_mem_nil
  · split at h
    · exact absurd h List.not_mem_nil
    · exact mem_playerOwnedTiles.mp (getConnectedTiles_owned t h)

theorem connected_mono (hmap : s'.map = s.map) (hcap : s'.extras.capitals = s.extras.capitals)
    (howned : ∀ t, s.extras.ownership.get? t = some p → s'.extras.ownership.get? t = some p)
    (hgates : ∀ t ∈ playerGateTileIds s p, t ∈ playerGateTileIds s' p) :
    playerConnectedTiles s p ⊆ playerConnectedTiles s' p := by
  unfold playerConnectedTiles
  rw [hmap, hcap]
  split
  · exact List.nil_subset _
  · split
    · exact List.nil_subset _
    · refine getConnectedTiles_mono (fun t ht => ?_) hgates
      exact mem_playerOwnedTiles.mpr (howned t (mem_playerOwnedTiles.mp ht))

theorem connected_congr (hmap : s'.map = s.map) (hcap : s'.extras.capitals = s.extras.capitals)
    (howned : ∀ t, s'.extras.ownership.get? t = some p ↔ s.extras.ownership.get? t = some p)
    (hgates : ∀ t, t ∈ playerGateTileIds s' p ↔ t ∈ playerGateTileIds s p) :
    playerConnectedTiles s' p = playerConnectedTiles s p := by
  unfold playerConnectedTiles
  rw [hmap, hcap]
  split
  · rfl
  · split
    · rfl
    · refine getConnectedTiles_congr (fun t => ?_) hgates
      rw [mem_playerOwnedTiles, mem_playerOwnedTiles, howned]

end Connected

/-! ## Shares -/

theorem IncomeResult.ext_of {i j : IncomeResult} (h : ∀ r, i.of r = j.of r) : i = j := by
  obtain ⟨w, f, n, g⟩ := i
  obtain ⟨w', f', n', g'⟩ := j
  have hw : w = w' := h "wood"
  have hf : f = f' := h "food"
  have hn : n = n' := h "iron"
  have hg : g = g' := h "gold"
  rw [hw, hf, hn, hg]

@[simp] theorem IncomeResult.of_zero (r : ResourceType) :
    (⟨0, 0, 0, 0⟩ : IncomeResult).of r = 0 := by
  unfold IncomeResult.of
  split_ifs <;> rfl

theorem addResource_of (i : IncomeResult) (resource : String) (q : ℚ) (r : ResourceType) :
    (addResource i resource q).of r = i.of r + (addResource ⟨0, 0, 0, 0⟩ resource q).of r := by
  unfold addResource
  split <;> unfold IncomeResult.of <;> split_ifs <;> simp

theorem addYield_of (i : IncomeResult) (income : TileIncome) (r : ResourceType) :
    (addYield i income).of r = i.of r + (addYield ⟨0, 0, 0, 0⟩ income).of r := by
  have hgold : ({ i with gold := i.gold + income.gold } : IncomeResult).of r =
      i.of r + ({ gold := 0 + income.gold, wood := 0, food := 0, iron := 0 } : IncomeResult).of
      r := by
    unfold IncomeResult.of
    split_ifs <;> simp
  unfold addYield
  dsimp only
  split
  · exact hgold
  · split
    · rw [addResource_of, hgold, addResource_of ⟨0, 0, 0, 0 + income.gold⟩, add_assoc]
    · exact hgold

theorem addDevelopBonus_of (i : IncomeResult) (tile : Tile) (r : ResourceType) :
    (addDevelopBonus i tile).of r = i.of r + (addDevelopBonus ⟨0, 0, 0, 0⟩ tile).of r := by
  unfold addDevelopBonus
  split
  · simp
  · split
    · exact addResource_of _ _ _ _
    · simp

/-- What a tile adds to an income. -/
def tileShare (s : KState R) (t : TileId) : IncomeResult := addTileIncome s ⟨0, 0, 0, 0⟩ t

theorem addTileIncome_of (s : KState R) (i : IncomeResult) (t : TileId) (r : ResourceType) :
    (addTileIncome s i t).of r = i.of r + (tileShare s t).of r := by
  unfold tileShare addTileIncome
  split
  · simp
  · dsimp only
    split
    · rw [addDevelopBonus_of, addYield_of, addDevelopBonus_of (addYield ⟨0, 0, 0, 0⟩ _), add_assoc]
    · exact addYield_of _ _ _

theorem shares_of (s : KState R) (ts : List TileId) (i : IncomeResult) (r : ResourceType) :
    (ts.foldl (addTileIncome s) i).of r = i.of r + (ts.map fun t => (tileShare s t).of r).sum := by
  induction ts generalizing i with
  | nil => simp
  | cons t ts ih =>
    rw [List.foldl_cons, ih, addTileIncome_of, List.map_cons, List.sum_cons, add_assoc]

/-- **Income is a sum of shares**. -/
theorem computeIncome_of (s : KState R) (p : PlayerId) (r : ResourceType) :
    (computeIncome s p).of r =
      ((playerConnectedTiles s p).map fun t => (tileShare s t).of r).sum := by
  cases hc : s.extras.capitals.get? p with
  | none => simp [computeIncome, playerConnectedTiles, hc]
  | some c =>
    by_cases hne : c = ""
    · simp [computeIncome, playerConnectedTiles, hc, hne]
    · simp only [computeIncome, hc, if_neg hne]
      rw [shares_of, IncomeResult.of_zero, zero_add]

variable {s s' : KState R} {p : PlayerId}

theorem tileShare_nonneg (hm : Fertile s.map) (t : TileId) (r : ResourceType) :
    0 ≤ (tileShare s t).of r :=
  (addTileIncome_nonneg hm (i := ⟨0, 0, 0, 0⟩) ⟨le_rfl, le_rfl, le_rfl, le_rfl⟩ t).of r

/-- A share depends on the tile, the structures on it and whether it is developed. -/
theorem tileShare_congr (hmap : s'.map = s.map) (hdev : s'.extras.developed = s.extras.developed)
    {t : TileId} (hst : structuresAt s' s'.extras.mortgagedCities t =
      structuresAt s s.extras.mortgagedCities t) :
    tileShare s' t = tileShare s t := by
  unfold tileShare addTileIncome
  rw [hmap, hdev, hst]

theorem income_mono (hm : Fertile s'.map)
    (hsub : playerConnectedTiles s p ⊆ playerConnectedTiles s' p)
    (hshare : ∀ t ∈ playerConnectedTiles s p, tileShare s' t = tileShare s t) (r : ResourceType) :
    (computeIncome s p).of r ≤ (computeIncome s' p).of r := by
  obtain ⟨l, hperm, hl⟩ := connected_nodup.subperm hsub
  have hsame : (playerConnectedTiles s p).map (fun t => (tileShare s t).of r) =
      (playerConnectedTiles s p).map fun t => (tileShare s' t).of r :=
    List.map_congr_left fun t ht => by rw [hshare t ht]
  rw [computeIncome_of, computeIncome_of, hsame, ← (hperm.map _).sum_eq]
  refine (hl.map _).sum_le_sum fun q hq => ?_
  obtain ⟨t, _, rfl⟩ := List.mem_map.mp hq
  exact tileShare_nonneg hm t r

theorem income_congr (hsame : playerConnectedTiles s' p = playerConnectedTiles s p)
    (hshare : ∀ t ∈ playerConnectedTiles s p, tileShare s' t = tileShare s t) :
    computeIncome s' p = computeIncome s p := by
  refine IncomeResult.ext_of fun r => ?_
  rw [computeIncome_of, computeIncome_of, hsame]
  exact congrArg List.sum (List.map_congr_left fun t ht => by rw [hshare t ht])

end Boardgame.Kingdoms
