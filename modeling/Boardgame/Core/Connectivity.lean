import Boardgame.Core.GameMap
import Boardgame.Lib.Worklist

/-!
# Core.Connectivity

The supply-line search of `utils/connectivity.ts`: breadth first from a capital over owned tiles,
hopping over one unowned tile from a tile that carries a bridge. A JavaScript `Set` of tile ids is
the list of its elements in insertion order.

* `visit_returns`: the loop stops with the visited set that `visit` computes.
* `supply_least`: the search is the least set with the capital that is closed under supply.
* `supply_monotone`: more land and more gates connect no tile less.
-/

namespace Boardgame

/-- The ids one visit pushes, the visited set being the one after the visit. -/
def expand (map : GameMap) (owned bridge visited : List TileId) (current : TileId) : List TileId :=
  match map.tileById current with
  | none => []
  | some tile => (map.neighboursOf tile.coord).flatMap fun neighbour =>
    if neighbour.id ∈ owned then
      if neighbour.id ∈ visited then [] else [neighbour.id]
    else if current ∈ bridge then
      match map.tileById neighbour.id with
      | none => []
      | some bridgePassTile =>
        ((map.neighboursOf bridgePassTile.coord).filter fun beyond =>
          beyond.id ∈ owned ∧ beyond.id ∉ visited).map Tile.id
    else []

/-- The `while` loop: skip what has been visited, visit the next id, push its neighbours. Every id
pushed is owned, so as many visits as there are owned tiles empty the queue. -/
def visit (map : GameMap) (owned bridge : List TileId) :
    Nat → List TileId → List TileId → List TileId
  | 0, _, visited => visited
  | visits + 1, queue, visited =>
    match queue.dropWhile (· ∈ visited) with
    | [] => visited
    | current :: queue =>
      let visited := visited ++ [current]
      visit map owned bridge visits (queue ++ expand map owned bridge visited current) visited

def getConnectedTiles (map : GameMap) (capitalTileId : TileId) (owned bridge : List TileId) :
    List TileId :=
  if capitalTileId ∈ owned then visit map owned bridge owned.length [capitalTileId] [] else []

/-! ## What the search is for -/

/-- `b` is the id of a neighbour of the tile `a`. -/
def Adjacent (map : GameMap) (a b : TileId) : Prop :=
  ∃ tile, map.tileById a = some tile ∧ ∃ neighbour ∈ map.neighboursOf tile.coord, neighbour.id = b

/-- Supply goes to an owned neighbour, and from a bridge to any owned tile behind a neighbour that
is not owned. -/
inductive Supplies (map : GameMap) (owned bridge : List TileId) : TileId → TileId → Prop where
  | neighbour {a b : TileId} : Adjacent map a b → b ∈ owned → Supplies map owned bridge a b
  | across {a n b : TileId} : a ∈ bridge → Adjacent map a n → n ∉ owned → Adjacent map n b →
      b ∈ owned → Supplies map owned bridge a b

/-- The sets of tiles with the capital, if it is owned, that supply does not leave. -/
structure Supplied (map : GameMap) (capital : TileId) (owned bridge : List TileId)
    (S : Set TileId) : Prop where
  start : capital ∈ owned → capital ∈ S
  neighbour : ∀ a ∈ S, ∀ b ∈ owned, Adjacent map a b → b ∈ S
  across : ∀ a ∈ S, a ∈ bridge → ∀ n, Adjacent map a n → n ∉ owned →
    ∀ b ∈ owned, Adjacent map n b → b ∈ S

section
variable {map : GameMap} {capital : TileId} {owned bridge : List TileId}

theorem Supplies.dest_owned {a b : TileId} (h : Supplies map owned bridge a b) : b ∈ owned := by
  cases h <;> assumption

/-- One visit pushes the tiles it supplies that have not been visited. -/
theorem expand_pushes : Worklist.Pushes (expand map owned bridge) (Supplies map owned bridge) := by
  intro visited a b
  unfold expand
  constructor
  · intro h
    split at h
    · exact absurd h List.not_mem_nil
    · rename_i tile htile
      obtain ⟨n, hn, h⟩ := List.mem_flatMap.mp h
      have hadj : Adjacent map a n.id := ⟨tile, htile, n, hn, rfl⟩
      split_ifs at h with hown hvis hbridge
      · exact absurd h List.not_mem_nil
      · rw [List.mem_singleton.mp h]
        exact ⟨.neighbour hadj hown, hvis⟩
      · split at h
        · exact absurd h List.not_mem_nil
        · rename_i pass hpass
          obtain ⟨beyond, hbeyond, rfl⟩ := List.mem_map.mp h
          obtain ⟨hmem, hbeyond⟩ := List.mem_filter.mp hbeyond
          rw [decide_eq_true_iff] at hbeyond
          exact ⟨.across hbridge hadj hown ⟨pass, hpass, beyond, hmem, rfl⟩ hbeyond.1, hbeyond.2⟩
      · exact absurd h List.not_mem_nil
  · rintro ⟨h, hvis⟩
    cases h with
    | neighbour hadj hown =>
      obtain ⟨tile, htile, n, hn, rfl⟩ := hadj
      rw [htile]
      refine List.mem_flatMap.mpr ⟨n, hn, ?_⟩
      simp [hown, hvis]
    | across hbridge hadj hfree hbeyond hown =>
      obtain ⟨tile, htile, n, hn, rfl⟩ := hadj
      obtain ⟨pass, hpass, beyond, hmem, rfl⟩ := hbeyond
      rw [htile]
      refine List.mem_flatMap.mpr ⟨n, hn, ?_⟩
      rw [if_neg hfree, if_pos hbridge, hpass]
      exact List.mem_map.mpr ⟨beyond, List.mem_filter.mpr ⟨hmem, by simp [hown, hvis]⟩, rfl⟩

theorem visit_eq_search (visits : Nat) (queue visited : List TileId) :
    visit map owned bridge visits queue visited =
      Worklist.search (expand map owned bridge) visits queue visited := by
  induction visits generalizing queue visited with
  | zero => rfl
  | succ visits ih =>
    rw [visit, Worklist.search]
    split
    · rename_i hempty
      rw [hempty]
    · rename_i x rest hrest
      rw [hrest]
      exact ih _ _

/-- The loop from an owned capital stops, with what `getConnectedTiles` returns. -/
theorem visit_returns (h : capital ∈ owned) :
    Worklist.Returns (expand map owned bridge) [capital] []
      (getConnectedTiles map capital owned bridge) := by
  rw [getConnectedTiles, if_pos h, visit_eq_search]
  refine @Worklist.search_returns _ _ _ owned ?_ _ _ _ List.nodup_nil ?_ ?_ ?_
  · exact fun visited x y hy => ((expand_pushes _ _ _).mp hy).1.dest_owned
  · exact fun x hx => absurd hx List.not_mem_nil
  · intro x hx
    rwa [List.mem_singleton.mp hx]
  · simp

theorem getConnectedTiles_lost (h : capital ∉ owned) :
    getConnectedTiles map capital owned bridge = [] := if_neg h

theorem getConnectedTiles_nodup : (getConnectedTiles map capital owned bridge).Nodup := by
  by_cases h : capital ∈ owned
  · exact (visit_returns h).nodup List.nodup_nil
  · rw [getConnectedTiles_lost h]
    exact List.nodup_nil

theorem getConnectedTiles_least :
    IsLeast {S | Supplied map capital owned bridge S}
      {t | t ∈ getConnectedTiles map capital owned bridge} := by
  by_cases h : capital ∈ owned
  · have hleast := (@visit_returns map capital owned bridge h).isLeast expand_pushes
    refine ⟨⟨fun _ => hleast.1.1, ?_, ?_⟩, fun S hS => ?_⟩
    · exact fun a ha b hb hab => hleast.1.2 a ha b (.neighbour hab hb)
    · exact fun a ha hbr n hn hfree b hb hnb => hleast.1.2 a ha b (.across hbr hn hfree hnb hb)
    · refine hleast.2 ⟨hS.start h, fun a ha b hab => ?_⟩
      cases hab with
      | neighbour hab hb => exact hS.neighbour a ha b hb hab
      | across hbr hn hfree hnb hb => exact hS.across a ha hbr _ hn hfree b hb hnb
  · rw [getConnectedTiles_lost h]
    refine ⟨⟨fun h' => absurd h' h, ?_, ?_⟩, fun S _ t ht => absurd ht List.not_mem_nil⟩
    · exact fun a ha => absurd ha List.not_mem_nil
    · exact fun a ha => absurd ha List.not_mem_nil

theorem getConnectedTiles_owned : ∀ t ∈ getConnectedTiles map capital owned bridge, t ∈ owned := by
  have hclosed : Supplied map capital owned bridge {t | t ∈ owned} :=
    ⟨fun h => h, fun _ _ _ hb _ => hb, fun _ _ _ _ _ _ _ hb _ => hb⟩
  exact fun t ht => getConnectedTiles_least.2 hclosed ht

/-- The search only asks who is owned and who is a bridge. -/
theorem getConnectedTiles_congr {owned' bridge' : List TileId}
    (howned : ∀ t, t ∈ owned ↔ t ∈ owned')
    (hbridge : ∀ t, t ∈ bridge ↔ t ∈ bridge') :
    getConnectedTiles map capital owned bridge = getConnectedTiles map capital owned' bridge' := by
  have hexpand : expand map owned bridge = expand map owned' bridge' := by
    funext visited current
    simp only [expand, howned, hbridge]
  by_cases h : capital ∈ owned
  · have hreturns := @visit_returns map capital owned bridge h
    rw [hexpand] at hreturns
    exact hreturns.unique (visit_returns ((howned capital).mp h))
  · rw [getConnectedTiles_lost h, getConnectedTiles_lost fun h' => h ((howned capital).mpr h')]

end

/-- The search stops, with one possible result: the least set of tiles with the capital that supply
does not leave. -/
theorem supply_least (map : GameMap) (capital : TileId) (owned bridge : List TileId) :
    (capital ∈ owned → ∀ result, Worklist.Returns (expand map owned bridge) [capital] [] result ↔
      result = getConnectedTiles map capital owned bridge) ∧
    IsLeast {S | Supplied map capital owned bridge S}
      {t | t ∈ getConnectedTiles map capital owned bridge} ∧
    (∀ t ∈ getConnectedTiles map capital owned bridge, t ∈ owned) ∧
    (getConnectedTiles map capital owned bridge).Nodup ∧
    (capital ∉ owned → getConnectedTiles map capital owned bridge = []) := by
  refine ⟨fun h result => ⟨fun hr => hr.unique (visit_returns h), ?_⟩, getConnectedTiles_least,
    getConnectedTiles_owned, getConnectedTiles_nodup, getConnectedTiles_lost⟩
  rintro rfl
  exact visit_returns h

/-- A gate bridges no longer over a tile that has been gained, but then supply goes through it. -/
theorem getConnectedTiles_mono {map : GameMap} {capital : TileId}
    {owned bridge owned' bridge' : List TileId} (howned : owned ⊆ owned')
    (hbridge : bridge ⊆ bridge') :
    getConnectedTiles map capital owned bridge ⊆ getConnectedTiles map capital owned' bridge' := by
  have hmore := (@getConnectedTiles_least map capital owned' bridge').1
  have hclosed : Supplied map capital owned bridge
      {t | t ∈ getConnectedTiles map capital owned' bridge'} := by
    refine ⟨fun h => hmore.start (howned h), ?_, ?_⟩
    · exact fun a ha b hb hab => hmore.neighbour a ha b (howned hb) hab
    · intro a ha hbr n han hn b hb hnb
      by_cases hn' : n ∈ owned'
      · have hvia := hmore.neighbour a ha n hn' han
        exact hmore.neighbour n hvia b (howned hb) hnb
      · exact hmore.across a ha (hbridge hbr) n han hn' b (howned hb) hnb
  exact fun t ht => getConnectedTiles_least.2 hclosed ht

theorem supply_monotone (map : GameMap) (capital : TileId)
    (owned bridge owned' bridge' : List TileId) (howned : ∀ t ∈ owned, t ∈ owned')
    (hbridge : ∀ t ∈ bridge, t ∈ bridge') :
    ∀ t ∈ getConnectedTiles map capital owned bridge,
      t ∈ getConnectedTiles map capital owned' bridge' :=
  fun _ ht => getConnectedTiles_mono howned hbridge ht

/-- Three tiles in a row, a gate on the first: gaining the middle one switches the bridge off. -/
theorem supply_monotone_middle :
    let map := GameMap.build [⟨"a", ⟨0, 0⟩, "plain", none⟩, ⟨"n", ⟨1, 0⟩, "plain", none⟩,
      ⟨"b", ⟨2, 0⟩, "plain", none⟩]
    "b" ∈ getConnectedTiles map "a" ["a", "b"] ["a"] ∧
      ∀ t ∈ getConnectedTiles map "a" ["a", "b"] ["a"],
        t ∈ getConnectedTiles map "a" ["a", "n", "b"] ["a"] :=
  ⟨by decide, supply_monotone _ "a" ["a", "b"] ["a"] ["a", "n", "b"] ["a"] (by decide) (by decide)⟩

end Boardgame
