import Boardgame.Kingdoms.Armory
import Boardgame.Kingdoms.Income

/-!
# Kingdoms.Terrain

The tiles of the Kingdoms map: each has one of the three resources and some gold to give.

* `kingdomsMap_resource`, `kingdomsMap_value`: what a tile of the map yields.
* `connected_on_map`: supply never leaves the map.
* `owned_on_map`: nobody owns what is not on the map.
-/

namespace Boardgame.Kingdoms

variable {R : Type}

/-! ## The map -/

theorem shuffleLoop_perm {α : Type} (i : Nat) :
    ∀ (x : BitVec 32) (l : List α), (shuffleLoop i x l).Perm l := by
  induction i with
  | zero => exact fun x l => .refl l
  | succ i ih => exact fun x l => (ih _ _).trans (swapAt_perm l _ _)

theorem seededShuffle_perm {α : Type} (l : List α) (seed : String) :
    (seededShuffle l seed).Perm l :=
  shuffleLoop_perm _ _ _

/-- The tiles a Kingdoms map is built from. -/
theorem kingdomsMap_made {n : Nat} {seed : String} {id : TileId} {tile : Tile}
    (h : (buildKingdomsMap n seed).tileById id = some tile) :
    ∃ c terrain, terrain ∈ terrainBag ∧ tile = kingdomsTile c terrain := by
  obtain ⟨hmem, -⟩ := GameMap.tileById_build h
  obtain ⟨i, hi, rfl⟩ := List.mem_mapIdx.mp hmem
  refine ⟨_, _, ?_, rfl⟩
  cases hterrain : (seededShuffle terrainBag seed)[i]? with
  | none => exact List.mem_append_left _ (by decide)
  | some terrain =>
    exact (seededShuffle_perm terrainBag seed).mem_iff.mp (List.mem_of_getElem? hterrain)

/-- The resources of income. -/
def yields : List ResourceType := ["wood", "food", "iron"]

theorem kingdomsMap_resource {n : Nat} {seed : String} {id : TileId} {tile : Tile}
    (h : (buildKingdomsMap n seed).tileById id = some tile) :
    ∃ r ∈ yields, tile.properties.bind TileProps.resourceType = some r := by
  obtain ⟨c, terrain, hterrain, rfl⟩ := kingdomsMap_made h
  have hall : ∀ terrain ∈ terrainBag, ∃ r ∈ yields, terrainResource terrain = some r := by
    decide +kernel
  exact hall terrain hterrain

theorem kingdomsMap_value {n : Nat} {seed : String} {id : TileId} {tile : Tile}
    (h : (buildKingdomsMap n seed).tileById id = some tile) :
    1 ≤ (tile.properties.bind TileProps.economicValue).getD 1 := by
  obtain ⟨c, terrain, -, rfl⟩ := kingdomsMap_made h
  simp [kingdomsTile, economicValue]

theorem kingdomsMap_on {n : Nat} {seed : String} {c : AxialCoord} (hc : c ∈ allCoords) :
    ∃ tile, (buildKingdomsMap n seed).tileById (tileId c) = some tile := by
  obtain ⟨i, hi, hci⟩ := List.getElem_of_mem hc
  have hmade : ∃ terrain, kingdomsTile c terrain ∈
      allCoords.mapIdx fun i c => kingdomsTile c
      ((seededShuffle terrainBag seed)[i]?.getD "plains") :=
    ⟨_, List.mem_mapIdx.mpr ⟨i, hi, by rw [hci]⟩⟩
  obtain ⟨terrain, hmem⟩ := hmade
  have hfound := GameMap.tileById_of_mem hmem
  rw [buildKingdomsMap]
  exact hfound

/-! ## The tiles of a player -/

variable {opts : GameSetupOptions} {s : KState R} {p : PlayerId}

theorem capital_on_map (hground : Ground opts s)
    (hsize : 2 ≤ opts.players.length ∧ opts.players.length ≤ 4) {t : TileId}
    (h : s.extras.capitals.get? p = some t) : ∃ tile, s.map.tileById t = some tile := by
  obtain ⟨e, he, -, rfl⟩ := hground.capital p t h
  have hmem := List.mem_map_of_mem (f := Prod.snd) he
  rw [seats_tiles hsize] at hmem
  obtain ⟨c, hc, hct⟩ := List.mem_map.mp hmem
  have hon : ∀ n, 2 ≤ n ∧ n ≤ 4 → ∀ c ∈ kingdomsStartingCoords n, c ∈ allCoords := by
    rintro n hn
    obtain rfl | rfl | rfl : n = 2 ∨ n = 3 ∨ n = 4 := by omega
    all_goals decide +kernel
  rw [hground.map, ← hct]
  exact kingdomsMap_on (hon _ hsize c hc)

theorem Ground.keyed (hground : Ground opts s) {id : TileId} {tile : Tile}
    (h : s.map.tileById id = some tile) :
    tile.id = id := by
  rw [hground.map] at h
  exact (kingdomsMap_tile h).2.1

theorem Ground.named (hground : Ground opts s) {id : TileId} {tile : Tile}
    (h : s.map.tileById id = some tile) :
    id ≠ "" := by
  rw [hground.map] at h
  exact (kingdomsMap_tile h).2.2 ▸ tileId_ne _

theorem adjacent_on_map (hground : Ground opts s) {a b : TileId} (h : Adjacent s.map a b) :
    ∃ tile, s.map.tileById b = some tile := by
  obtain ⟨_, _, n, hn, rfl⟩ := h
  obtain ⟨id, hget⟩ := GameMap.mem_tiles.mp (List.mem_filter.mp hn).1
  exact ⟨n, by rw [hground.keyed hget]; exact hget⟩

/-- The search starts on the map and goes from neighbour to neighbour. -/
theorem connected_on_map (hground : Ground opts s)
    (hsize : 2 ≤ opts.players.length ∧ opts.players.length ≤ 4) {t : TileId}
    (h : t ∈ playerConnectedTiles s p) : ∃ tile, s.map.tileById t = some tile := by
  unfold playerConnectedTiles at h
  split at h
  · exact absurd h List.not_mem_nil
  · rename_i c hcap
    split at h
    · exact absurd h List.not_mem_nil
    · have hclosed : Supplied s.map c (playerOwnedTiles s.extras.ownership p)
          (playerGateTileIds s p)
          {t | ∃ tile, s.map.tileById t = some tile} :=
        ⟨fun _ => capital_on_map hground hsize hcap, fun _ _ _ _ hab => adjacent_on_map hground hab,
          fun _ _ _ _ _ _ _ _ hnb => adjacent_on_map hground hnb⟩
      exact getConnectedTiles_least.2 hclosed h

/-- What a player owns after an action was owned before it, or is a neighbour they have captured. -/
theorem Effect.land {payload : KingdomsPayload} {evs : List (KEvent R)} {s' : KState R}
    (h : Effect s p payload evs s') {t : TileId} {o : PlayerId}
    (ht : s'.extras.ownership.get? t = some o) :
    s.extras.ownership.get? t = some o ∨ ∃ f, isAdjacent s.map f t = true := by
  cases h with
  | @attacked f t' ids losses survivor rng battle aftermath s₂ _ _ hadj _ _ _ _ hafter =>
    have htaken : (s.extras.ownership.set t' p).get? t = some o →
        s.extras.ownership.get? t = some o ∨ ∃ f, isAdjacent s.map f t = true := by
      intro h
      rw [OrderedMap.get?_set] at h
      split at h
      · rename_i hsame
        exact .inr ⟨f, hsame ▸ hadj⟩
      · exact .inl h
    cases hafter with
    | repelled => exact .inl ht
    | eroded => exact .inl ht
    | occupied => exact htaken ht
    | annexed => exact htaken ht
    | toppled =>
      simp only [eliminated, captured, setExtras, OrderedMap.get?_filter,
        Option.filter_eq_some_iff] at ht
      exact htaken ht.1
  | wrapped _ hs₁ =>
    subst hs₁
    exact .inl ht
  | _ => exact .inl ht

theorem neighbour_on_map (hground : Ground opts s) {f t : TileId}
    (h : isAdjacent s.map f t = true) :
    ∃ tile, s.map.tileById t = some tile := by
  unfold isAdjacent at h
  split at h
  · cases h
  · rename_i tileA hA
    obtain ⟨n, hn, hid⟩ := List.any_eq_true.mp h
    exact adjacent_on_map hground ⟨tileA, hA, n, hn, of_decide_eq_true hid⟩

theorem owned_on_map [Strength R] (hid : (opts.players.map Player.id).Nodup)
    (hseat : (opts.players.map Player.seat).Nodup) {calls : List (KCall R)} {g : KGame R}
    (h : Game.RunFrom (kingdomsScenario R) opts calls g) {t : TileId} {o : PlayerId}
    (ht : g.state.extras.ownership.get? t = some o) :
    ∃ tile, g.state.map.tileById t = some tile := by
  have hland : ∀ t o, g.state.extras.ownership.get? t = some o →
      ∃ tile, g.state.map.tileById t = some tile := by
    refine (kingdoms_inv (I := fun s => Ground opts s ∧
      ∀ t o, s.extras.ownership.get? t = some o → ∃ tile, s.map.tileById t = some tile)
      ?_ ?_ hid hseat ?_ h).2.2
    · exact fun s st hi ⟨hground, hland⟩ => ⟨⟨hground.map, hground.capital⟩, hland⟩
    · rintro s payload evs s' _ _ ⟨hground, hland⟩ heff
      obtain ⟨hmap, hcap⟩ := heff.ground
      refine ⟨⟨hmap.trans hground.map, fun o t ht => hground.capital o t (hcap ▸ ht)⟩,
        fun t o ht => ?_⟩
      rw [hmap]
      obtain hown | ⟨f, hadj⟩ := heff.land ht
      · exact hland t o hown
      · exact neighbour_on_map hground hadj
    · intro s hf _
      have hground : Ground opts s := ⟨hf.map, fun o t ht => (hf.capital hid).mp ht⟩
      refine ⟨hground, fun t o ht => ?_⟩
      obtain ⟨e, he, rfl, rfl⟩ := hf.owner.mp ht
      exact capital_on_map hground hf.size ((hf.capital hid).mpr ⟨e, he, rfl, rfl⟩)
  exact hland t o ht

end Boardgame.Kingdoms
