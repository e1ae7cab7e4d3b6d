import Mathlib.Data.Rat.Defs
import Boardgame.Lib.OrderedMap

/-!
# Core.GameMap

Coordinates, tiles and the tile container (`map/`). A tile's `properties` bag holds the three
values the Kingdoms map sets; an absent bag and an absent key both read as the reader's default.
-/

namespace Boardgame

abbrev TileId := String

structure AxialCoord where
  q : Int
  r : Int
  deriving DecidableEq

def tileId (c : AxialCoord) : TileId := toString c.q ++ "," ++ toString c.r

structure TileProps where
  resourceType : Option String
  economicValue : Option ℚ
  combatValue : Option ℚ
  deriving DecidableEq

structure Tile where
  id : TileId
  coord : AxialCoord
  terrain : String
  properties : Option TileProps := none
  deriving DecidableEq

def isNeighbour (a b : AxialCoord) : Bool :=
  if a = b then false
  else
    let dq := a.q - b.q
    let dr := a.r - b.r
    dq.natAbs ≤ 1 ∧ dr.natAbs ≤ 1 ∧ (dq + dr).natAbs ≤ 1

structure GameMap where
  tileMap : OrderedMap TileId Tile

namespace GameMap

def addTile (m : GameMap) (tile : Tile) : GameMap := ⟨m.tileMap.set tile.id tile⟩

def tileById (m : GameMap) (id : TileId) : Option Tile := m.tileMap.get? id

def tiles (m : GameMap) : List Tile := m.tileMap.values

def neighboursOf (m : GameMap) (coord : AxialCoord) : List Tile :=
  m.tiles.filter fun t => isNeighbour coord t.coord

/-- `MapBuilder.build` on the accumulated tile definitions. -/
def build (tiles : List Tile) : GameMap := tiles.foldl addTile ⟨∅⟩

theorem tileById_foldl {tiles : List Tile} : ∀ {m : GameMap} {id : TileId} {tile : Tile},
    (tiles.foldl addTile m).tileById id = some tile →
      m.tileById id = some tile ∨ (tile ∈ tiles ∧ tile.id = id) := by
  induction tiles with
  | nil => exact fun h => .inl h
  | cons x xs ih =>
    intro m id tile h
    rcases ih h with h | ⟨h, hid⟩
    · simp only [tileById, addTile, OrderedMap.get?_set] at h
      split at h
      · rename_i hx
        cases h
        exact .inr ⟨List.mem_cons_self, hx.symm⟩
      · exact .inl h
    · exact .inr ⟨List.mem_cons_of_mem _ h, hid⟩

/-- A tile of the map is one of those it was built from, under its own id. -/
theorem tileById_build {tiles : List Tile} {id : TileId} {tile : Tile}
    (h : (build tiles).tileById id = some tile) : tile ∈ tiles ∧ tile.id = id := by
  rcases tileById_foldl h with h | h
  · simp [tileById] at h
  · exact h

theorem tileById_foldl_of_mem {tiles : List Tile} {id : TileId} : ∀ {m : GameMap},
    (∃ tile, m.tileById id = some tile) ∨ (∃ tile ∈ tiles, tile.id = id) →
      ∃ tile, (tiles.foldl addTile m).tileById id = some tile := by
  induction tiles with
  | nil => exact fun h => h.resolve_right fun ⟨_, hx, _⟩ => absurd hx List.not_mem_nil
  | cons x xs ih =>
    intro m h
    refine ih ?_
    by_cases hx : x.id = id
    · exact .inl ⟨x, by simp [tileById, addTile, OrderedMap.get?_set, hx]⟩
    · rcases h with ⟨tile, htile⟩ | ⟨tile, hmem, hid⟩
      · exact .inl ⟨tile, by
          simp only [tileById, addTile, OrderedMap.get?_set, if_neg (Ne.symm hx)]
          exact htile⟩
      · rcases List.mem_cons.mp hmem with rfl | hmem
        · exact absurd hid hx
        · exact .inr ⟨tile, hmem, hid⟩

/-- A tile the map was built from has a tile under its id. -/
theorem tileById_of_mem {tiles : List Tile} {tile : Tile} (h : tile ∈ tiles) :
    ∃ found, (build tiles).tileById tile.id = some found :=
  tileById_foldl_of_mem (.inr ⟨tile, h, rfl⟩)

theorem mem_tiles {m : GameMap} {tile : Tile} : tile ∈ m.tiles ↔
    ∃ id, m.tileById id = some tile := by
  simp only [tiles, OrderedMap.values, List.mem_map, Prod.exists, exists_eq_right,
    OrderedMap.mem_entries, tileById]

end GameMap

end Boardgame
