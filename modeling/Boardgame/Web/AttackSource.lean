import Mathlib.Data.List.MinMax
import Boardgame.Core.Hex
import Boardgame.Kingdoms.Permitted
import Boardgame.Kingdoms.Terrain
import Boardgame.Kingdoms.View

/-!
# Web.AttackSource

Where the Kingdoms page attacks from (`pages/KingdomsPage.tsx`): of the player's tiles next to the
target, the first of those with the most units for the attack. The engine also asks for a tile that
is connected to the capital, which the page does not look at.

* `findAttackSource_eq`: the loop keeps the first of the greatest.
* `legal_iff`: which attacks the engine accepts, in terms of the view.
* `source_usable_iff`: the page's choice is accepted unless a tile that is cut off beats the others.
-/

namespace Boardgame.Web

open Kingdoms

/-- `HEX_DIRS`. -/
def hexDirs : List AxialCoord := [⟨1, 0⟩, ⟨-1, 0⟩, ⟨0, 1⟩, ⟨0, -1⟩, ⟨1, -1⟩, ⟨-1, 1⟩]

def getNeighbours (view : KingdomsView) (tile : KingdomsTileView) : List KingdomsTileView :=
  hexDirs.filterMap fun d => view.tiles.find? fun t => t.q = tile.q + d.q ∧ t.r = tile.r + d.r

/-- The units on `n` that count for an attack on the target. -/
def eligible (targetTile : KingdomsTileView) (userId : PlayerId) (n : KingdomsTileView) :
    List KingdomsTilepiece :=
  let targetIsUnowned := targetTile.owner = none
  n.pieces.filter fun p => p.attack.any (· > 0) ∧ p.owner = userId ∧
    (targetIsUnowned ∨ p.kind ≠ "noble")

/-- One pass of the loop, on `best` and `bestCount`. -/
def consider (targetTile : KingdomsTileView) (userId : PlayerId) (attackedFrom : List TileId)
    (best : Option KingdomsTileView × Int) (n : KingdomsTileView) : Option KingdomsTileView × Int :=
  if n.owner ≠ some userId then best
  else if n.id ∈ attackedFrom then best
  else
    let count : Int := (eligible targetTile userId n).length
    if count > best.2 then (some n, count) else best

def findAttackSource (view : KingdomsView) (targetTile : KingdomsTileView) (userId : PlayerId)
    (attackedFrom : List TileId) : Option KingdomsTileView :=
  let best := (getNeighbours view targetTile).foldl (consider targetTile userId attackedFrom)
    (none, -1)
  if best.2 > 0 then best.1 else none

/-! ## The loop -/

section Loop

variable {view : KingdomsView} {target b : KingdomsTileView} {u : PlayerId}
  {attackedFrom : List TileId}

/-- How many units `n` has for the attack. -/
def force (target : KingdomsTileView) (u : PlayerId) (n : KingdomsTileView) : Nat :=
  (eligible target u n).length

/-- The tiles that the loop does not skip. -/
def candidate (u : PlayerId) (attackedFrom : List TileId) (n : KingdomsTileView) : Bool :=
  n.owner = some u ∧ n.id ∉ attackedFrom

theorem consider_eq (best : Option KingdomsTileView × Int) (n : KingdomsTileView) :
    consider target u attackedFrom best n =
      if candidate u attackedFrom n ∧ (force target u n : Int) > best.2 then (some n,
        (force target u n : Int)) else best := by
  unfold consider candidate force
  by_cases howner : n.owner = some u <;> by_cases hid : n.id ∈ attackedFrom <;> simp [howner, hid]

theorem foldl_consider (l : List KingdomsTileView) :
    l.foldl (consider target u attackedFrom) (none, -1) =
      ((l.filter (candidate u attackedFrom)).argmax (force target u),
        (((l.filter (candidate u attackedFrom)).argmax (force target u)).map fun n =>
          (force target u n : Int)).getD (-1)) := by
  induction l using List.reverseRecOn with
  | nil => rfl
  | append_singleton l n ih =>
    rw [List.foldl_append, ih, List.foldl_cons, List.foldl_nil, consider_eq, List.filter_append]
    by_cases hn : candidate u attackedFrom n = true
    · rw [List.filter_cons_of_pos hn, List.filter_nil, List.argmax_concat]
      cases hbest : (l.filter (candidate u attackedFrom)).argmax (force target u) with
      | none =>
        have hpos : (-1 : Int) < force target u n := by omega
        simp [hn, hpos]
      | some c => by_cases hlt : force target u c < force target u n <;> simp [hn, hlt]
    · rw [List.filter_cons_of_neg hn, List.filter_nil, List.append_nil, if_neg fun h => hn h.1]

/-- The page attacks from the first of the strongest candidates, if it has a unit. -/
theorem findAttackSource_eq : findAttackSource view target u attackedFrom = some b ↔
    ((getNeighbours view target).filter (candidate u attackedFrom)).argmax
      (force target u) = some b ∧
      0 < force target u b := by
  rw [findAttackSource, foldl_consider]
  cases hbest : ((getNeighbours view target).filter (candidate u attackedFrom)).argmax
    (force target u) with
  | none => simp
  | some c =>
    by_cases hpos : 0 < force target u c
    · rw [if_pos (by simpa using hpos)]
      exact ⟨fun h => ⟨h, Option.some.inj h ▸ hpos⟩, And.left⟩
    · rw [if_neg (by simpa using hpos)]
      exact ⟨nofun, fun h => absurd h.2 (Option.some.inj h.1 ▸ hpos)⟩

end Loop

/-! ## What the engine accepts -/

section Legal

variable {R : Type} {s : KState R} {u : PlayerId} {f t : TileId}

theorem eligibleKinds_sub {k : String} (h : k ∈ eligibleKinds s t) : k ∈ unitKinds := by
  unfold eligibleKinds at h
  split at h
  · exact h
  · exact combat_unit h

theorem attackTile_ok (ht : s.extras.ownership.get? t ≠ some u) :
    attackTileValidator s (some u) f t (some (unitsOnTile s f (some u) (eligibleKinds s t))) =
      .ok () ↔
      guardActivePlayer s (some u) = .ok () ∧ s.extras.attackedFrom = [] ∧
        s.extras.ownership.get? f = some u ∧
        isAdjacent s.map f t = true ∧ f ∈ playerConnectedTiles s u ∧
        0 < (unitsOnTile s f (some u) (eligibleKinds s t)).length := by
  have hown : ∀ id ∈ unitsOnTile s f (some u) (eligibleKinds s t), id ∈ unitsOnTile s f
      (some u) unitKinds :=
    fun id hid => by
      obtain ⟨q, hq, hk, hrest⟩ := mem_unitsOnTile.mp hid
      exact mem_unitsOnTile.mpr ⟨q, hq, eligibleKinds_sub hk, hrest⟩
  rw [attack_ok]
  constructor
  · rintro ⟨hguard, hf, hconn, -, hadj, -, hfirst, hsome, -⟩
    exact ⟨hguard, hfirst, hf, hadj, hconn, List.length_pos_iff.mpr hsome⟩
  · rintro ⟨hguard, hfirst, hf, hadj, hconn, hpos⟩
    obtain ⟨id, hid⟩ := List.exists_mem_of_length_pos hpos
    obtain ⟨q, hq, hk, -⟩ := mem_unitsOnTile.mp hid
    exact ⟨hguard, hf, hconn, ht, hadj, List.ne_nil_of_mem (hown id hid), hfirst,
      List.ne_nil_of_mem hid, hown, id, hid, q, hq, hk⟩

end Legal

/-! ## What the view shows of it -/

section View

variable {R : Type} {opts : GameSetupOptions} {s : KState R} {tile n : Tile}

theorem combat_iff {k : String} : k ∈ combatUnitKinds ↔ k ∈ unitKinds ∧ k ≠ "noble" := by
  have hall : ∀ k ∈ unitKinds, k ∈ combatUnitKinds ↔ k ≠ "noble" := by decide
  exact ⟨fun h => ⟨combat_unit h, (hall k (combat_unit h)).mp h⟩, fun h => (hall k h.1).mpr h.2⟩

/-- Every unit has a strength to attack with, and nothing else has. -/
theorem tilepiece_attack (q : Piece) : (tilepiece q).attack.any (· > 0) = true ↔
    q.kind ∈ unitKinds := by
  have hall : ∀ k ∈ unitKinds, ((unitStats k).map UnitDef.attack).any (· > 0) = true := by
    decide +kernel
  by_cases hk : q.kind ∈ unitKinds
  · refine ⟨fun _ => hk, fun _ => ?_⟩
    rw [tilepiece, if_pos hk]
    exact hall _ hk
  · simp [tilepiece, hk]

theorem eligible_kind (q : Piece) (t : TileId) :
    ((tilepiece q).attack.any (· > 0) = true ∧
      (s.extras.ownership.get? t = none ∨ q.kind ≠ "noble")) ↔
      q.kind ∈ eligibleKinds s t := by
  rw [tilepiece_attack, eligibleKinds]
  by_cases hfree : s.extras.ownership.get? t = none
  · simp [hfree]
  · simp [hfree, combat_iff]

/-- The page counts the units that the engine counts. -/
theorem eligible_ids (hs : Sound s) (players : List Player) (u : PlayerId) (tile : Tile)
    (hn : n.id ≠ "") :
    (eligible (buildTileView s players tile) u
      (buildTileView s players n)).map KingdomsTilepiece.id =
      unitsOnTile s n.id (some u) (eligibleKinds s tile.id) := by
  obtain ⟨howner, -⟩ := buildTileView_of (s := s) players (rfl : tile.id = tile.id)
  obtain ⟨-, hpieces⟩ := buildTileView_of (s := s) players (rfl : n.id = n.id)
  have hfilter : ∀ e ∈ s.pieces.entries,
      (decide ((tilepiece e.2).attack.any (· > 0) = true ∧ (tilepiece e.2).owner = u ∧
        (s.extras.ownership.get? tile.id = none ∨ (tilepiece e.2).kind ≠ "noble")) &&
          decide (tileOf e.2 = some n.id)) =
      decide (e.2.kind ∈ eligibleKinds s tile.id ∧ tileOf e.2 = some n.id ∧
        (some u = none ∨ some u = some e.2.owner)) := by
    intro e _
    have hkind := eligible_kind (s := s) e.2 tile.id
    have howner : (tilepiece e.2).owner = u ↔ some u = some e.2.owner := by
      rw [Option.some.injEq, eq_comm]
      rfl
    rw [← Bool.decide_and, decide_eq_decide, ← hkind, howner]
    constructor
    · rintro ⟨⟨hpos, hmine, hfree⟩, htile⟩
      exact ⟨⟨hpos, hfree⟩, htile, .inr hmine⟩
    · rintro ⟨⟨hpos, hfree⟩, htile, hnone | hmine⟩
      · cases hnone
      · exact ⟨⟨hpos, hmine, hfree⟩, htile⟩
  rw [eligible, howner, hpieces, piecesByTileId_eq s hn, List.filter_map, List.map_map,
    List.filter_filter, unitsOnTile]
  refine (congrArg (List.map _) (List.filter_congr hfilter)).trans
    (List.map_congr_left fun e he => ?_)
  exact hs.keyed e.1 e.2 (OrderedMap.mem_entries.mp (List.mem_filter.mp he).1)

theorem isNeighbour_dirs (a b : AxialCoord) :
    isNeighbour a b = true ↔ ∃ d ∈ hexDirs, b.q = a.q + d.q ∧ b.r = a.r + d.r := by
  have hperm : axialDirections.Perm hexDirs := by decide
  rw [isNeighbour_iff_mem, axialNeighbours, List.mem_map]
  refine exists_congr fun d => and_congr hperm.mem_iff ⟨?_, fun h => (AxialCoord.ext h.1 h.2).symm⟩
  rintro rfl
  exact ⟨rfl, rfl⟩

theorem tileById_of_tiles (hground : Ground opts s) (h : tile ∈ s.map.tiles) :
    s.map.tileById tile.id = some tile := by
  obtain ⟨id, hget⟩ := GameMap.mem_tiles.mp h
  rw [hground.keyed hget]
  exact hget

/-- A tile is found by its coordinates. -/
theorem tile_of_coord (hground : Ground opts s) (h : tile ∈ s.map.tiles) (hn : n ∈ s.map.tiles)
    (hcoord : tile.coord = n.coord) : tile = n := by
  have hget := tileById_of_tiles hground h
  have hget' := tileById_of_tiles hground hn
  have hid : tile.id = n.id := by
    rw [hground.map] at hget hget'
    rw [← (kingdomsMap_tile hget).2.2, ← (kingdomsMap_tile hget').2.2, hcoord]
  rw [hid, hget', Option.some.injEq] at hget
  exact hget.symm

theorem mem_getNeighbours (hground : Ground opts s) (players : List Player)
    (victory : Option VictoryResult) (hn : n ∈ s.map.tiles) :
    buildTileView s players n ∈ getNeighbours (buildKingdomsView s players victory)
      (buildTileView s players tile) ↔
      isNeighbour tile.coord n.coord = true := by
  rw [isNeighbour_dirs, getNeighbours, List.mem_filterMap]
  refine exists_congr fun d => and_congr_right fun _ => ?_
  constructor
  · intro h
    have hcoord := List.find?_some h
    rwa [decide_eq_true_eq] at hcoord
  · intro hcoord
    have hmem : buildTileView s players n ∈ (buildKingdomsView s players victory).tiles :=
      List.mem_map_of_mem hn
    cases hfind : (buildKingdomsView s players victory).tiles.find? fun t =>
        t.q = (buildTileView s players tile).q + d.q ∧
        t.r = (buildTileView s players tile).r + d.r with
    | none => exact absurd (decide_eq_true hcoord) (List.find?_eq_none.mp hfind _ hmem)
    | some x =>
      obtain ⟨m, hm, rfl⟩ := List.mem_map.mp (List.mem_of_find?_eq_some hfind)
      have hcoord' := List.find?_some hfind
      rw [decide_eq_true_eq] at hcoord'
      have hsame : m.coord = n.coord :=
        AxialCoord.ext (hcoord'.1.trans hcoord.1.symm) (hcoord'.2.trans hcoord.2.symm)
      rw [tile_of_coord hground hm hn hsame]

theorem isAdjacent_tiles (hground : Ground opts s) (ht : tile ∈ s.map.tiles)
    (hn : n ∈ s.map.tiles) :
    isAdjacent s.map n.id tile.id = true ↔ isNeighbour tile.coord n.coord = true := by
  have hsymm : isNeighbour n.coord tile.coord = true ↔ isNeighbour tile.coord n.coord = true := by
    rw [isNeighbour_iff, isNeighbour_iff, hexGap_comm]
  rw [isAdjacent, tileById_of_tiles hground hn, ← hsymm]
  simp only [GameMap.neighboursOf, List.any_eq_true, List.mem_filter, decide_eq_true_eq]
  constructor
  · rintro ⟨x, ⟨hx, hxn⟩, hid⟩
    have hget := tileById_of_tiles hground hx
    rw [hid, tileById_of_tiles hground ht, Option.some.injEq] at hget
    rwa [hget]
  · exact fun h => ⟨tile, ⟨ht, h⟩, rfl⟩

end View

/-! ## The choice of the page -/

/-- The engine accepts an attack on the target from `n` with all that count for it. -/
def Legal {R : Type} (s : KState R) (u : PlayerId) (target n : KingdomsTileView) : Prop :=
  attackTileValidator s (some u) n.id target.id
  (some ((eligible target u n).map KingdomsTilepiece.id)) = .ok ()

instance {R : Type} (s : KState R) (u : PlayerId) (target n : KingdomsTileView) :
    Decidable (Legal s u target n) :=
  match h : attackTileValidator s (some u) n.id target.id
    (some ((eligible target u n).map KingdomsTilepiece.id)) with
  | .ok () => isTrue h
  | .error _ => isFalse fun hok => by
    rw [Legal, h] at hok
    cases hok

/-- If the player can attack the target from some tile, then from the one the page chooses. -/
def SourceUsable {R : Type} (s : KState R) (view : KingdomsView) (u : PlayerId)
    (target : KingdomsTileView) : Prop :=
  (∃ n ∈ view.tiles, Legal s u target n) →
    ∃ b, findAttackSource view target u view.turnState.attackedFrom = some b ∧ Legal s u target b

/-- The player's tiles next to the target, in the order of `hexDirs`. -/
def ownNeighbours (view : KingdomsView) (u : PlayerId) (target : KingdomsTileView) :
    List KingdomsTileView :=
  (getNeighbours view target).filter fun n => n.owner = some u

/-- Every neighbour that is cut off from the capital has a connected one before it: one with more
units, or with as many and earlier in the list. -/
def Outranked {R : Type} (s : KState R) (view : KingdomsView) (u : PlayerId)
    (target : KingdomsTileView) : Prop :=
  ∀ d ∈ ownNeighbours view u target, d.id ∉ playerConnectedTiles s u →
    ∃ c ∈ ownNeighbours view u target, c.id ∈ playerConnectedTiles s u ∧
      (force target u d < force target u c ∨ force target u d = force target u c ∧
        (ownNeighbours view u target).idxOf c < (ownNeighbours view u target).idxOf d)

section Choice

variable {R : Type} {opts : GameSetupOptions} {s : KState R} {players : List Player}
  {victory : Option VictoryResult} {u : PlayerId} {target n : KingdomsTileView}

theorem legal_iff (hs : Sound s) (hground : Ground opts s)
    (ht : target ∈ (buildKingdomsView s players victory).tiles)
    (hn : n ∈ (buildKingdomsView s players victory).tiles) (hother : target.owner ≠ some u) :
    Legal s u target n ↔ guardActivePlayer s (some u) = .ok () ∧ s.extras.attackedFrom = [] ∧
      n ∈ ownNeighbours (buildKingdomsView s players victory) u target ∧
      n.id ∈ playerConnectedTiles s u ∧
      0 < force target u n := by
  obtain ⟨tile, htile, rfl⟩ := List.mem_map.mp ht
  obtain ⟨m, hm, rfl⟩ := List.mem_map.mp hn
  have hname : m.id ≠ "" := hground.named (tileById_of_tiles hground hm)
  have hunits := eligible_ids hs players u tile hname
  have hcount : force (buildTileView s players tile) u (buildTileView s players m) =
      (unitsOnTile s m.id (some u) (eligibleKinds s tile.id)).length := by
    rw [← hunits, List.length_map, force]
  have hadj := isAdjacent_tiles hground htile hm
  rw [← mem_getNeighbours hground players victory hm] at hadj
  rw [Legal, hunits, hcount, ownNeighbours, List.mem_filter, decide_eq_true_eq, ← hadj]
  refine (attackTile_ok hother).trans ?_
  constructor
  · rintro ⟨hguard, hfirst, hf, hnear, hconn, hpos⟩
    exact ⟨hguard, hfirst, ⟨hnear, hf⟩, hconn, hpos⟩
  · rintro ⟨hguard, hfirst, ⟨hnear, hf⟩, hconn, hpos⟩
    exact ⟨hguard, hfirst, hf, hnear, hconn, hpos⟩

theorem mem_tiles_of_own {view : KingdomsView} (h : n ∈ ownNeighbours view u target)
    : n ∈ view.tiles := by
  obtain ⟨d, -, hfind⟩ := List.mem_filterMap.mp (List.mem_filter.mp h).1
  exact List.mem_of_find?_eq_some hfind

theorem usable_iff (hs : Sound s) (hground : Ground opts s)
    (ht : target ∈ (buildKingdomsView s players victory).tiles) (hother : target.owner ≠ some u) :
    SourceUsable s (buildKingdomsView s players victory) u target ↔
      ((∃ n ∈ (buildKingdomsView s players victory).tiles, Legal s u target n) →
        Outranked s (buildKingdomsView s players victory) u target) := by
  refine imp_congr_right fun ⟨n, hn, h⟩ => ?_
  obtain ⟨hguard, hfirst, hnear, -, hpos⟩ := (legal_iff hs hground ht hn hother).mp h
  have hused : (buildKingdomsView s players victory).turnState.attackedFrom = [] := hfirst
  generalize hview : buildKingdomsView s players victory = view at *
  have hlegal : ∀ b ∈ ownNeighbours view u target, Legal s u target b ↔
      b.id ∈ playerConnectedTiles s u ∧ 0 < force target u b := fun b hb => by
    subst hview
    rw [legal_iff hs hground ht (mem_tiles_of_own hb) hother]
    exact ⟨fun h => h.2.2.2, fun h => ⟨hguard, hfirst, hb, h⟩⟩
  have hsource : ∀ b, findAttackSource view target u view.turnState.attackedFrom = some b ↔
      (ownNeighbours view u target).argmax (force target u) = some b ∧ 0 < force target u b :=
      fun b => by
    have hskip : (getNeighbours view target).filter (candidate u []) =
        ownNeighbours view u target :=
      List.filter_congr fun n _ => by simp [candidate]
    rw [hused, findAttackSource_eq, hskip]
  constructor
  · rintro ⟨b, hb, hb'⟩ d hd hcut
    obtain ⟨hbest, -⟩ := (hsource b).mp hb
    have hown := List.argmax_mem hbest
    have hconn := ((hlegal b hown).mp hb').1
    refine ⟨b, hown, hconn, (lt_or_eq_of_le (List.le_of_mem_argmax hd hbest)).imp_right fun heq =>
      ⟨heq, ?_⟩⟩
    refine lt_of_le_of_ne (List.index_of_argmax hbest hd heq.ge) fun hidx => hcut ?_
    rw [← (List.idxOf_inj hown).mp hidx]
    exact hconn
  · intro hout
    cases hbest : (ownNeighbours view u target).argmax (force target u) with
    | none =>
      rw [List.argmax_eq_none.mp hbest] at hnear
      exact absurd hnear List.not_mem_nil
    | some b =>
      have hown := List.argmax_mem hbest
      have hpos' : 0 < force target u b := hpos.trans_le (List.le_of_mem_argmax hnear hbest)
      refine ⟨b, (hsource b).mpr ⟨hbest, hpos'⟩, (hlegal b hown).mpr ⟨?_, hpos'⟩⟩
      by_contra hcut
      obtain ⟨c, hc, -, hlt | ⟨heq, hidx⟩⟩ := hout b hown hcut
      · exact absurd hlt (not_lt.mpr (List.le_of_mem_argmax hc hbest))
      · exact absurd hidx (not_lt.mpr (List.index_of_argmax hbest hc heq.le))

variable [Strength R]

/-- **The page's choice** is accepted in exactly the games where, if an attack on the target is
possible at all, the neighbours that are cut off come after connected ones. -/
theorem source_usable_iff (hid : (opts.players.map Player.id).Nodup)
    (hseat : (opts.players.map Player.seat).Nodup) {calls : List (KCall R)} {g : KGame R}
    (h : Game.RunFrom (kingdomsScenario R) opts calls g) (players : List Player)
    (victory : Option VictoryResult)
    (ht : target ∈ (buildKingdomsView g.state players victory).tiles)
    (hother : target.owner ≠ some g.state.rounds.turn.activePlayer) :
    SourceUsable g.state (buildKingdomsView g.state players victory)
      g.state.rounds.turn.activePlayer target ↔
      ((∃ n ∈ (buildKingdomsView g.state players victory).tiles,
          Legal g.state g.state.rounds.turn.activePlayer target n) →
        Outranked g.state (buildKingdomsView g.state players victory)
          g.state.rounds.turn.activePlayer target) := by
  obtain ⟨hs, -, -⟩ := board_reachable hid hseat h
  exact usable_iff hs (armory_reachable hid hseat h).ground ht hother

end Choice

/-! ## A tile that is cut off -/

/-- Three rounds in which both players attack, after their moves. -/
def campaigns (a b moves₁ moves₂ : List KingdomsPayload) : List (Game.Request KingdomsPayload) :=
  turns (moves₁ ++ a) (moves₂ ++ b) ++ turns a b ++ turns a b

/-- `p1` takes a line of tiles to `1,0`, leaves a spearman there and another on `2,-2`, and loses
`1,-1` between them. -/
def cutOff : List (Game.Request KingdomsPayload) :=
  let noble₁ := "noble-p1-0"
  let noble₂ := "noble-p2-0"
  let attack (noble : PieceId) (f t : TileId) : List KingdomsPayload :=
    [.attackTile f t (some [noble])]
  .start :: campaigns (attack noble₁ "4,-4" "3,-3") (attack noble₂ "-4,4" "-3,3") [] [] ++
  campaigns (attack noble₁ "3,-3" "2,-2") (attack noble₂ "-3,3" "-2,2") [.moveUnit noble₁ "3,-3"]
    [.moveUnit noble₂ "-3,3"] ++
  campaigns (attack noble₁ "2,-2" "1,-1") (attack noble₂ "-2,2" "-1,1") [.moveUnit noble₁ "2,-2"]
    [.moveUnit noble₂ "-2,2"] ++
  campaigns (attack noble₁ "1,-1" "1,0") (attack noble₂ "-1,1" "0,0") [.moveUnit noble₁ "1,-1"]
    [.moveUnit noble₂ "-1,1"] ++
  campaigns [] [.attackTile "0,0" "1,-1" (some [noble₂, "sp-p2-1"])]
    [.moveUnit noble₁ "1,0", .moveUnit "sp-p1-1" "1,0", .moveUnit "sp-p1-2" "2,-2"]
    [.moveUnit noble₂ "0,0", .moveUnit "sp-p2-1" "0,0"]

/-- The page's view of a game. -/
def viewOf (s : KState ℚ) : KingdomsView := buildKingdomsView s s.players.all none

/-- What the page and the engine make of an attack on the tile that `p1` lost. -/
structure Appraisal where
  owner : Option PlayerId
  /-- The tile that the page chooses. -/
  source : Option TileId
  /-- The engine accepts an attack from there. -/
  usable : Bool
  /-- It accepts one from `2,-2`. -/
  possible : Bool
  deriving DecidableEq

def appraise (s : KState ℚ) : Option Appraisal :=
  let view := viewOf s
  (view.tiles.find? (·.id = "1,-1")).bind fun target =>
    (view.tiles.find? (·.id = "2,-2")).map fun n =>
      let source := findAttackSource view target "p1" view.turnState.attackedFrom
      { owner := target.owner
        source := source.map KingdomsTileView.id
        usable := source.any fun b => Legal s "p1" target b
        possible := Legal s "p1" target n }

theorem of_appraise {s : KState ℚ} {a : Appraisal} (h : appraise s = some a)
    (hno : a.usable = false) (hcan : a.possible = true) :
    ∃ target ∈ (viewOf s).tiles, target.owner = a.owner ∧
      ¬ SourceUsable s (viewOf s) "p1" target := by
  obtain ⟨target, htarget, h⟩ := Option.bind_eq_some_iff.mp h
  obtain ⟨n, hn, rfl⟩ := Option.map_eq_some_iff.mp h
  refine ⟨target, List.mem_of_find?_eq_some htarget, rfl, fun husable => ?_⟩
  obtain ⟨b, hb, hb'⟩ := husable ⟨n, List.mem_of_find?_eq_some hn, of_decide_eq_true hcan⟩
  rw [hb] at hno
  exact of_decide_eq_false hno hb'

theorem cutOff_played : ∃ r, Game.play (kingdomsScenario ℚ) duel cutOff = .ok r ∧
    Game.RunFrom (kingdomsScenario ℚ) duel r.1 r.2 ∧ r.2.state.rounds.turn.activePlayer = "p1" ∧
    ∃ target ∈ (viewOf r.2.state).tiles, target.owner = some "p2" ∧
      ¬ SourceUsable r.2.state (viewOf r.2.state) "p1" target := by
  have hobserved : (Game.play (kingdomsScenario ℚ) duel cutOff).toOption.map
      (fun r => (r.2.state.rounds.turn.activePlayer, appraise r.2.state)) =
      some ("p1", some ⟨some "p2", some "1,0", false, true⟩) := by decide +kernel
  obtain ⟨r, hr, hrun, hx⟩ := Game.play_observed hobserved
  rw [Prod.mk.injEq] at hx
  exact ⟨r, hr, hrun, hx.1, of_appraise hx.2 rfl rfl⟩

/-- The page chooses the tile that is cut off, and the engine refuses. -/
theorem source_cut_off : ∃ r, Game.play (kingdomsScenario ℚ) duel cutOff = .ok r ∧
    Game.RunFrom (kingdomsScenario ℚ) duel r.1 r.2 ∧ r.2.state.rounds.turn.activePlayer = "p1" ∧
    ∃ target ∈ (viewOf r.2.state).tiles, target.owner ≠ some "p1" ∧
      ¬ SourceUsable r.2.state (viewOf r.2.state) "p1" target := by
  obtain ⟨r, hr, hrun, hturn, target, htarget, howner, hnot⟩ := cutOff_played
  exact ⟨r, hr, hrun, hturn, target, htarget, by rw [howner]; decide, hnot⟩

theorem source_usable_iff_cutOff : ∃ r target, Game.play (kingdomsScenario ℚ) duel cutOff = .ok r ∧
    (SourceUsable r.2.state (viewOf r.2.state) r.2.state.rounds.turn.activePlayer target ↔
      ((∃ n ∈ (viewOf r.2.state).tiles,
        Legal r.2.state r.2.state.rounds.turn.activePlayer target n) →
        Outranked r.2.state (viewOf r.2.state) r.2.state.rounds.turn.activePlayer target)) := by
  obtain ⟨r, hr, hrun, hturn, target, htarget, howner, -⟩ := cutOff_played
  exact ⟨r, target, hr, source_usable_iff (by decide) (by decide) hrun _ _ htarget
    (by rw [howner, hturn]; decide)⟩

end Boardgame.Web
