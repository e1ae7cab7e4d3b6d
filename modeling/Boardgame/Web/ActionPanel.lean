import Boardgame.Kingdoms.Permitted
import Boardgame.Kingdoms.Forecast
import Boardgame.Kingdoms.Limits
import Boardgame.Kingdoms.Survivor
import Boardgame.Web.AttackSource

/-!
# Web.ActionPanel

What the Kingdoms page offers on a selected tile (`games/kingdoms/ActionPanel.tsx` in idle mode, and
the end-turn button of `pages/KingdomsPage.tsx`). The panel has its own tables of costs and its own
conditions; the engine has its validators.

* `canAfford_iff`, `rows_priced`: the panel charges what the engine charges.
* `recruit_iff` and its siblings: what the engine accepts, in terms of the view.
* `panel_exact`: the panel hides nothing the engine accepts, and what it offers is refused only for
  what it does not look at.
-/

namespace Boardgame.Web.ActionPanel

open Kingdoms

/-! ## Costs -/

/-- An amount that is absent reads as 0. -/
structure ResourceCost where
  gold : Option ℚ := none
  wood : Option ℚ := none
  iron : Option ℚ := none
  food : Option ℚ := none

def unitCosts : List (String × ResourceCost) :=
  [("spearman", { gold := some 10, food := some 1 }),
    ("cannoneer", { gold := some 20, iron := some 2 })]

def structureCosts : List (String × ResourceCost) :=
  [("farm", { wood := some 2 }), ("city", { wood := some 3, iron := some 2 }),
   ("castle", { wood := some 4, iron := some 3 }), ("gate", { wood := some 2, iron := some 1 })]

def developCost : ℚ := 8

def recruitStructures : List String := ["capital-base", "city"]

def dynamicNobleCost (currentNobleCount : Nat) : ResourceCost where
  gold := some (⌈(8 : ℚ) * (17 / 10) ^ (currentNobleCount - 1)⌉ : ℚ)
  iron := some 1
  food := some 1

def canAfford (player : KingdomsPlayerView) (cost : ResourceCost) : Bool :=
  if cost.gold.getD 0 > player.gold then false
  else if cost.wood.getD 0 > player.wood then false
  else if cost.iron.getD 0 > player.iron then false
  else if cost.food.getD 0 > player.food then false
  else true

/-! ## The panel -/

/-- `!!userId && view.currentActivePlayer === userId`. -/
def isMyTurn (view : KingdomsView) (userId : Option PlayerId) : Bool :=
  userId.any fun u => u ≠ "" ∧ view.currentActivePlayer = u

/-- `userId ? view.players.find((p) => p.id === userId) : null`. -/
def me (view : KingdomsView) (userId : Option PlayerId) : Option KingdomsPlayerView :=
  (userId.filter (· ≠ "")).bind fun u => view.players.find? (·.id = u)

/-- How many pieces of a kind the tiles show of a player. -/
def countShown (view : KingdomsView) (u : PlayerId) (kind : String) : Nat :=
  (view.tiles.map fun t => (t.pieces.filter fun p => p.kind = kind ∧ p.owner = u).length).sum

def myNobleCount (view : KingdomsView) (userId : Option PlayerId) : Nat :=
  ((userId.filter (· ≠ "")).map fun u => countShown view u "noble").getD 0

def effectiveUnitCosts (view : KingdomsView) (userId : Option PlayerId) :
    List (String × ResourceCost) :=
  unitCosts ++ [("noble", dynamicNobleCost (myNobleCount view userId))]

section Tile

variable (view : KingdomsView) (userId : Option PlayerId) (selectedTile : KingdomsTileView)

def isOwnTile : Bool := userId.any (· ≠ "") ∧ selectedTile.owner = userId

def isConnected : Bool := isOwnTile userId selectedTile ∧ selectedTile.incomePreview ≠ none

def hasRecruitStructure : Bool :=
  selectedTile.pieces.any fun p => p.defenseMultiplier ≠ none ∧ p.kind ∈ recruitStructures

def existingStructures : List String :=
  (selectedTile.pieces.filter fun p => p.defenseMultiplier ≠ none).map KingdomsTilepiece.kind

/-- The rows that can be clicked: those the player can pay for. -/
def enabledRows (costs : List (String × ResourceCost)) : List String :=
  match me view userId with
  | none => []
  | some player => (costs.filter fun row => canAfford player row.2).map Prod.fst

/-- `onRecruit` of each enabled row. -/
def recruitRows : List KingdomsPayload :=
  if isMyTurn view userId ∧ isOwnTile userId selectedTile ∧ hasRecruitStructure selectedTile then
    (enabledRows view userId (effectiveUnitCosts view userId)).map (.recruitUnit selectedTile.id)
  else []

/-- `onBuild` of each enabled row; a tile with a structure disables them all. -/
def buildRows : List KingdomsPayload :=
  if isMyTurn view userId ∧ isConnected userId selectedTile ∧
    existingStructures selectedTile = [] then
    (enabledRows view userId structureCosts).map (.buildStructure selectedTile.id)
  else []

/-- `onDemolish`, one button for each structure that is not a capital base. -/
def demolishButtons : List KingdomsPayload :=
  if isMyTurn view userId ∧ isOwnTile userId selectedTile then
    ((existingStructures selectedTile).filter (· ≠ "capital-base")).map fun _ =>
      .demolishStructure selectedTile.id
  else []

def developRow : List KingdomsPayload :=
  if isMyTurn view userId ∧ isConnected userId selectedTile ∧ selectedTile.developed = false then
    match me view userId with
    | none => []
    | some player => if player.gold < developCost then [] else [.developTile selectedTile.id]
  else []

end Tile

/-- The END TURN button, which is there in every mode. -/
def endTurnButton (view : KingdomsView) (userId : Option PlayerId) : List KingdomsPayload :=
  if isMyTurn view userId then [.endTurn] else []

/-- The commands that a click on an enabled button of the idle page sends. The rows to recruit and
to build are in a `CollapsibleSection` each, which is closed until the player opens it. -/
def buttons (view : KingdomsView) (userId : Option PlayerId)
    (selectedTile : Option KingdomsTileView) :
    List KingdomsPayload :=
  (match selectedTile with
    | none => []
    | some tile =>
      recruitRows view userId tile ++ buildRows view userId tile ++
      demolishButtons view userId tile ++
        developRow view userId tile) ++
    endTurnButton view userId

/-! ## The same prices -/

/-- The amounts that are there, as the engine's tables list them. -/
def ResourceCost.entries (cost : ResourceCost) : List (ResourceType × ℚ) :=
  [("gold", cost.gold), ("wood", cost.wood), ("iron", cost.iron), ("food", cost.food)].filterMap
    fun e => e.2.map fun q => (e.1, q)

/-- The two tables of the panel, against the registry of the engine. -/
theorem rows_priced : ∀ row ∈ unitCosts ++ structureCosts,
    ((kingdomsPieces.get? row.1).map fun d => (costOf d).entries) = some row.2.entries := by
  decide +kernel

theorem noble_priced (n : Nat) : (nobleCost n).entries = (dynamicNobleCost n).entries := rfl

theorem unitCosts_kinds : unitCosts.map Prod.fst ++ ["noble"] = unitKinds := by decide

theorem structureCosts_kinds : structureCosts.map Prod.fst = buildableStructures := by decide

section Prices

variable {R : Type} {s : KState R} {players : List Player} {pl : Player} {cost : ResourceCost}

theorem absent_or_covered {q : ℚ} {o : Option ℚ} (hq : 0 ≤ q) : ¬ o.getD 0 > q ↔
    ∀ x, o = some x → x ≤ q := by
  cases o with
  | none => simpa using hq
  | some x => simp

theorem canAfford_iff (hstock : ∀ r, 0 ≤ stockOf (s.inventories.get? pl.id) r) :
    canAfford (buildPlayerView s players pl) cost = true ↔
      ∀ e ∈ cost.entries, e.2 ≤ stockOf (s.inventories.get? pl.id) e.1 := by
  have hall : canAfford (buildPlayerView s players pl) cost = true ↔
      ¬ cost.gold.getD 0 > stockOf (s.inventories.get? pl.id) "gold" ∧
      ¬ cost.wood.getD 0 > stockOf (s.inventories.get? pl.id) "wood" ∧
      ¬ cost.iron.getD 0 > stockOf (s.inventories.get? pl.id) "iron" ∧
      ¬ cost.food.getD 0 > stockOf (s.inventories.get? pl.id) "food" := by
    simp only [canAfford, buildPlayerView, stockOf]
    split_ifs <;> simp_all
  rw [hall, absent_or_covered (hstock _), absent_or_covered (hstock _),
    absent_or_covered (hstock _), absent_or_covered (hstock _)]
  simp only [ResourceCost.entries, List.mem_filterMap, List.mem_cons, List.not_mem_nil, or_false,
    Prod.forall]
  constructor
  · rintro ⟨hg, hw, hi, hf⟩ r q ⟨e, he, hq⟩
    obtain ⟨x, hx, hxq⟩ := Option.map_eq_some_iff.mp hq
    obtain ⟨rfl, rfl⟩ := Prod.mk.inj hxq
    obtain rfl | rfl | rfl | rfl := he
    · exact hg x hx
    · exact hw x hx
    · exact hi x hx
    · exact hf x hx
  · intro h
    exact ⟨fun x hx => h "gold" x ⟨_, .inl rfl, by simp [hx]⟩,
      fun x hx => h "wood" x ⟨_, .inr (.inl rfl), by simp [hx]⟩,
      fun x hx => h "iron" x ⟨_, .inr (.inr (.inl rfl)), by simp [hx]⟩,
      fun x hx => h "food" x ⟨_, .inr (.inr (.inr rfl)), by simp [hx]⟩⟩

end Prices

/-! ## What the panel reads off the view -/

theorem tilepiece_structure (q : Piece) : (tilepiece q).defenseMultiplier ≠ none ↔
    q.kind ∈ structureKinds := by
  have hall : ∀ k ∈ structureKinds, (structureStats k).map StructureDef.defenseMultiplier ≠
      none := by decide
  by_cases hk : q.kind ∈ structureKinds
  · simpa [tilepiece, hk] using hall _ hk
  · simp [tilepiece, hk]

/-- The classes of a list count together what the list counts, when everything counted has one
class. -/
theorem sum_countP_classes {α β : Type} [DecidableEq β] (P : α → Bool) (f : α → Option β)
    {classes : List β} (hnd : classes.Nodup) {l : List α} (hin : ∀ a ∈ l, P a = true →
      ∃ c ∈ classes, f a = some c) :
    (classes.map fun c => (l.filter fun a => f a = some c).countP P).sum = l.countP P := by
  induction l with
  | nil => simp
  | cons a l ih =>
    have hl := ih fun b hb => hin b (List.mem_cons_of_mem _ hb)
    have hsplit : ∀ c, ((a :: l).filter fun a => f a = some c).countP P =
        (l.filter fun a => f a = some c).countP P + if P a = true ∧ f a = some c then 1 else 0 := by
      intro c
      by_cases hc : f a = some c <;> by_cases ha : P a = true <;> simp [hc, ha]
    rw [List.map_congr_left fun c _ => hsplit c, List.sum_map_add, hl, List.countP_cons]
    congr 1
    by_cases ha : P a = true
    · obtain ⟨c, hc, hf⟩ := hin a List.mem_cons_self ha
      rw [List.sum_map_eq_nsmul_single c _ fun d hd _ => if_neg fun hac => hd ?_,
        List.count_eq_one_of_mem hnd hc]
      · simp [ha, hf]
      · exact (Option.some.inj (hf.symm.trans hac.2)).symm
    · simp [ha]

/-- The page shows the present state of a game to its players. -/
structure Shows {R : Type} (opts : GameSetupOptions) (s : KState R) (players : List Player) :
    Prop where
  sound : Sound s
  board : Board s
  ground : Ground opts s
  size : 2 ≤ opts.players.length ∧ opts.players.length ≤ 4
  land : ∀ t o, s.extras.ownership.get? t = some o → ∃ tile, s.map.tileById t = some tile
  roster : ∀ pl ∈ s.players.bySeat, pl.id ∈ players.map Player.id

namespace Shows

variable {R : Type} {opts : GameSetupOptions} {s : KState R} {players : List Player}
  {victory : Option VictoryResult} {u : PlayerId} {tile : Tile}

theorem turn_iff (h : Shows opts s players) :
    isMyTurn (buildKingdomsView s players victory) (some u) = true ↔
    guardActivePlayer s (some u) = .ok () := by
  have hturn : isMyTurn (buildKingdomsView s players victory) (some u) = true ↔
      u ≠ "" ∧ s.rounds.turn.activePlayer = u := by
    rw [isMyTurn, Option.any_some, decide_eq_true_eq]
    rfl
  rw [hturn]
  constructor
  · rintro ⟨hne, rfl⟩
    exact guard_onTurn h.sound hne
  · intro hguard
    obtain ⟨hu, hne, -⟩ := guard_ok.mp hguard
    rw [Option.some.injEq] at hu
    exact ⟨hu ▸ hne, hu.symm⟩

/-- Who may act finds themselves in the view. -/
theorem player (h : Shows opts s players) (victory : Option VictoryResult)
    (hguard : guardActivePlayer s (some u) = .ok ()) :
    u ≠ "" ∧ s.players.isEliminated u = false ∧ ∃ pl ∈ players, pl.id = u ∧
      me (buildKingdomsView s players victory) (some u) = some (buildPlayerView s players pl) := by
  obtain ⟨hu, hne, halive⟩ := guard_ok.mp hguard
  rw [Option.some.injEq] at hu
  subst hu
  obtain ⟨q, hq, -, hqid⟩ := h.sound.turn
  obtain ⟨pl, hpl, hplid⟩ := List.mem_map.mp (h.roster q hq)
  refine ⟨hne, halive, ?_⟩
  have hme : me (buildKingdomsView s players victory) (some s.rounds.turn.activePlayer) =
      (players.find? fun p => p.id = s.rounds.turn.activePlayer).map (buildPlayerView s
        players) := by
    have hnamed : (some s.rounds.turn.activePlayer).filter (· ≠ "") =
        some s.rounds.turn.activePlayer := by
      simp [Option.filter, hne]
    rw [me, hnamed, Option.bind_some, buildKingdomsView, List.find?_map]
    rfl
  cases hfind : players.find? fun p => p.id = s.rounds.turn.activePlayer with
  | none => simpa [hplid, hqid] using List.find?_eq_none.mp hfind pl hpl
  | some found =>
    exact ⟨found, List.mem_of_find?_eq_some
      hfind, by simpa using List.find?_some hfind, by rw [hme, hfind]; rfl⟩

theorem stock_nonneg (h : Shows opts s players) (u : PlayerId) (r : ResourceType) :
    0 ≤ stockOf (s.inventories.get? u) r := by
  unfold stockOf
  cases hinv : s.inventories.get? u with
  | none => exact le_refl _
  | some inv => exact (h.sound.whole u inv hinv).nonneg r

theorem found (h : Shows opts s players) (htile : tile ∈ s.map.tiles) :
    s.map.tileById tile.id = some tile :=
  tileById_of_tiles h.ground htile

theorem named (h : Shows opts s players) (htile : tile ∈ s.map.tiles) : tile.id ≠ "" :=
  h.ground.named (h.found htile)

theorem own_iff (hne : u ≠ "") : isOwnTile (some u) (buildTileView s players tile) = true ↔
    s.extras.ownership.get? tile.id = some u := by
  simp [isOwnTile, buildTileView, hne]

/-- A tile shows an income to its owner if supply reaches it. -/
theorem connected_iff (h : Shows opts s players) (hguard : guardActivePlayer s (some u) = .ok ())
    (htile : tile ∈ s.map.tiles) : isConnected (some u) (buildTileView s players tile) = true ↔
      tile.id ∈ playerConnectedTiles s u := by
  obtain ⟨hne, halive, pl, hpl, rfl, -⟩ := h.player none hguard
  rw [isConnected, decide_eq_true_eq, own_iff hne]
  constructor
  · rintro ⟨hown, hincome⟩
    by_contra hcut
    rw [incomePreview_eq hne hpl halive (h.found htile) (h.named htile) hown,
      if_neg hcut] at hincome
    exact hincome rfl
  · intro hconn
    have hown := connected_owned hconn
    rw [incomePreview_eq hne hpl halive (h.found htile) (h.named htile) hown, if_pos hconn]
    exact ⟨hown, Option.some_ne_none _⟩

/-- The pieces on a tile of the view are those of the board. -/
theorem mem_pieces (h : Shows opts s players) (htile : tile ∈ s.map.tiles) {p : KingdomsTilepiece} :
    p ∈ (buildTileView s players tile).pieces ↔
      ∃ id q, s.pieces.get? id = some q ∧ tileOf q = some tile.id ∧ p = tilepiece q := by
  obtain ⟨-, hpieces⟩ := buildTileView_of (s := s) players (rfl : tile.id = tile.id)
  simp only [hpieces, piecesByTileId_eq s (h.named htile), List.mem_map, List.mem_filter,
    decide_eq_true_eq, Prod.exists, OrderedMap.mem_entries]
  constructor
  · rintro ⟨id, q, ⟨hq, ht⟩, heq⟩
    exact ⟨id, q, hq, ht, heq.symm⟩
  · rintro ⟨id, q, hq, ht, heq⟩
    exact ⟨id, q, ⟨hq, ht⟩, heq.symm⟩

theorem structure_iff {ks : List String} {t : TileId} : structureOnTile s t ks ≠ none ↔
    ∃ id q, s.pieces.get? id = some q ∧ q.kind ∈ ks ∧ tileOf q = some t := by
  constructor
  · intro hsome
    obtain ⟨⟨id, q⟩, hq⟩ := Option.ne_none_iff_exists'.mp hsome
    exact ⟨id, q, structureOnTile_some hq⟩
  · rintro ⟨id, q, hq, hk, ht⟩ hnone
    exact structureOnTile_none hnone hq hk ht

theorem recruitStructure_iff (h : Shows opts s players) (htile : tile ∈ s.map.tiles) :
    hasRecruitStructure (buildTileView s players tile) = true ↔
      structureOnTile s tile.id Kingdoms.recruitStructures ≠ none := by
  have hsub : ∀ k ∈ recruitStructures, k ∈ structureKinds := by decide
  rw [structure_iff, hasRecruitStructure, List.any_eq_true]
  constructor
  · rintro ⟨p, hp, hk⟩
    obtain ⟨id, q, hq, ht, rfl⟩ := (h.mem_pieces htile).mp hp
    exact ⟨id, q, hq, (of_decide_eq_true hk).2, ht⟩
  · rintro ⟨id, q, hq, hk, ht⟩
    exact ⟨tilepiece q, (h.mem_pieces htile).mpr ⟨id, q, hq, ht, rfl⟩,
      decide_eq_true ⟨(tilepiece_structure q).mpr (hsub _ hk), hk⟩⟩

theorem mem_existing (h : Shows opts s players) (htile : tile ∈ s.map.tiles) {k : String} :
    k ∈ existingStructures (buildTileView s players tile) ↔
      ∃ id q, s.pieces.get? id = some q ∧ q.kind = k ∧ k ∈ structureKinds ∧
        tileOf q = some tile.id := by
  simp only [existingStructures, List.mem_map, List.mem_filter, decide_eq_true_eq]
  constructor
  · rintro ⟨p, ⟨hp, hs⟩, rfl⟩
    obtain ⟨id, q, hq, ht, rfl⟩ := (h.mem_pieces htile).mp hp
    exact ⟨id, q, hq, rfl, (tilepiece_structure q).mp hs, ht⟩
  · rintro ⟨id, q, hq, rfl, hk, ht⟩
    exact ⟨tilepiece q, ⟨(h.mem_pieces htile).mpr ⟨id, q, hq, ht, rfl⟩,
      (tilepiece_structure q).mpr hk⟩, rfl⟩

theorem free_iff (h : Shows opts s players) (htile : tile ∈ s.map.tiles) :
    existingStructures (buildTileView s players tile) = [] ↔
    structureOnTile s tile.id structureKinds = none := by
  rw [← not_iff_not, ← ne_eq, ← ne_eq, structure_iff]
  constructor
  · intro hne
    obtain ⟨k, hk⟩ := List.exists_mem_of_ne_nil _ hne
    obtain ⟨id, q, hq, rfl, hk, ht⟩ := (h.mem_existing htile).mp hk
    exact ⟨id, q, hq, hk, ht⟩
  · rintro ⟨id, q, hq, hk, ht⟩
    exact List.ne_nil_of_mem ((h.mem_existing htile).mpr ⟨id, q, hq, rfl, hk, ht⟩)

end Shows

/-! ## Rows and buttons -/

/-- The player has as many pieces of the kind as they may have. -/
def Full (view : KingdomsView) (u : PlayerId) (kind : String) : Prop :=
  ∃ n, limitOf kind = some n ∧ n ≤ countShown view u kind

/-- The kind eats, and the player has no food. -/
def Starving (view : KingdomsView) (u : PlayerId) (kind : String) : Prop :=
  0 < ((unitStats kind).map UnitDef.foodPerRound).getD 0 ∧
    ∃ player, me view (some u) = some player ∧ player.food ≤ 0

/-- What the panel does not look at: whether supply reaches a tile to recruit on, how many pieces a
player may have, and whether they can feed one more. -/
def Overlooked (view : KingdomsView) (u : PlayerId) (selectedTile : Option KingdomsTileView) :
    KingdomsPayload → Prop
  | .recruitUnit _ kind =>
    (∀ tile ∈ selectedTile, tile.incomePreview = none) ∨ Full view u kind ∨ Starving view u kind
  | .buildStructure _ kind => Full view u kind
  | _ => False

theorem mem_enabledRows {view : KingdomsView} {userId : Option PlayerId}
    {costs : List (String × ResourceCost)} {k : String} : k ∈ enabledRows view userId costs ↔
      ∃ player, me view userId = some player ∧ ∃ cost, (k, cost) ∈ costs ∧
        canAfford player cost = true := by
  unfold enabledRows
  cases me view userId with
  | none => simp
  | some player => simp [List.mem_map, List.mem_filter]

namespace Shows

variable {R : Type} {opts : GameSetupOptions} {s : KState R} {players : List Player}
  {victory : Option VictoryResult} {u : PlayerId} {tile : Tile} {k : String}

theorem tile_ids (h : Shows opts s players) : (s.map.tiles.map Tile.id).Nodup := by
  have hids : s.map.tiles.map Tile.id = s.map.tileMap.keys := by
    rw [GameMap.tiles, OrderedMap.values, List.map_map, OrderedMap.keys]
    exact List.map_congr_left fun e he => h.ground.keyed (OrderedMap.mem_entries.mp he)
  rw [hids]
  exact s.map.tileMap.nodup_keys

/-- The tiles show every piece, and each once. -/
theorem countShown_eq (h : Shows opts s players) (u : PlayerId) (k : String) :
    countShown (buildKingdomsView s players victory) u k = countPlayerPiecesOfKind s u k := by
  have hon : ∀ e ∈ s.pieces.entries, decide (e.2.owner = u ∧ e.2.kind = k) = true →
      ∃ c ∈ s.map.tiles.map Tile.id, tileOf e.2 = some c := by
    intro e he _
    obtain ⟨t, ht, hown⟩ := h.board.home e.1 e.2 (OrderedMap.mem_entries.mp he)
    obtain ⟨tile, htile⟩ := h.land t _ hown
    exact ⟨t, List.mem_map.mpr ⟨tile, GameMap.mem_tiles.mpr ⟨t, htile⟩, h.ground.keyed htile⟩, ht⟩
  rw [countPlayerPiecesOfKind, ← List.countP_eq_length_filter,
    ← sum_countP_classes _ _ h.tile_ids hon, List.map_map]
  rw [countShown, buildKingdomsView, List.map_map]
  refine congrArg List.sum (List.map_congr_left fun tile htile => ?_)
  obtain ⟨-, hpieces⟩ := buildTileView_of (s := s) players (rfl : tile.id = tile.id)
  simp only [Function.comp_apply, hpieces, piecesByTileId_eq s (h.named htile), List.filter_map,
    List.length_map, List.countP_eq_length_filter]
  exact congrArg List.length (List.filter_congr fun e _ => decide_eq_decide.mpr and_comm)

theorem full_iff (h : Shows opts s players) {d : PieceKindDefinition}
    (hd : kingdomsPieces.get? k = some d) :
    Full (buildKingdomsView s players victory) u k ↔
    limitReached d (countPlayerPiecesOfKind s u k) = true := by
  rw [Full, h.countShown_eq, limitOf, hd, Option.bind_some, limitReached, Option.any_eq_true]
  simp only [decide_eq_true_eq]

theorem starving_iff (h : Shows opts s players) (hguard : guardActivePlayer s (some u) = .ok ()) :
    Starving (buildKingdomsView s players victory) u k ↔
      ((unitStats k).map UnitDef.foodPerRound).getD 0 > 0 ∧
      stockOf (s.inventories.get? u) "food" ≤ 0 := by
  obtain ⟨-, -, pl, -, rfl, hme⟩ := h.player victory hguard
  rw [Starving, hme]
  simp only [Option.some.injEq, exists_eq_left']
  rfl

/-- A row is enabled if the engine would take the price. -/
theorem enabled_iff (h : Shows opts s players) (victory : Option VictoryResult)
    (hguard : guardActivePlayer s (some u) = .ok ()) {costs : List (String × ResourceCost)}
    {price : List (ResourceType × ℚ)} (hprice : ∀ cost, (k, cost) ∈ costs → price = cost.entries) :
    k ∈ enabledRows (buildKingdomsView s players victory) (some u) costs ↔
      k ∈ costs.map Prod.fst ∧ checkCost (s.inventories.get? u) price = .ok () := by
  obtain ⟨-, -, pl, -, rfl, hme⟩ := h.player victory hguard
  rw [mem_enabledRows, hme, checkCost_ok]
  constructor
  · rintro ⟨player, hplayer, cost, hrow, hpay⟩
    cases hplayer
    rw [hprice cost hrow]
    exact ⟨List.mem_map_of_mem hrow, (canAfford_iff (h.stock_nonneg pl.id)).mp hpay⟩
  · rintro ⟨hkind, hpay⟩
    obtain ⟨⟨k', cost⟩, hrow, rfl⟩ := List.mem_map.mp hkind
    rw [hprice cost hrow] at hpay
    exact ⟨_, rfl, cost, hrow, (canAfford_iff (h.stock_nonneg pl.id)).mpr hpay⟩

theorem unit_price (h : Shows opts s players) (victory : Option VictoryResult) (hne : u ≠ "")
    {d : PieceKindDefinition} (hd : kingdomsPieces.get? k = some d) {cost : ResourceCost}
    (hrow : (k, cost) ∈ effectiveUnitCosts (buildKingdomsView s players victory) (some u)) :
    (effectiveCost s u k d).entries = cost.entries := by
  obtain hrow | hrow := List.mem_append.mp hrow
  · have hplain : k ≠ "noble" := by
      have hall : ∀ row ∈ unitCosts, row.1 ≠ "noble" := by decide
      exact hall _ hrow
    have hpriced := rows_priced _ (List.mem_append_left _ hrow)
    rw [hd] at hpriced
    rw [effectiveCost, if_neg hplain]
    exact Option.some.inj hpriced
  · obtain ⟨rfl, rfl⟩ := Prod.mk.inj (List.mem_singleton.mp hrow)
    have hcount :
        myNobleCount (buildKingdomsView s players victory) (some u) =
        countPlayerPiecesOfKind s u "noble" := by
      simp [myNobleCount, Option.filter, hne, h.countShown_eq]
    rw [effectiveCost, if_pos rfl, noble_priced, hcount]

theorem structure_price {d : PieceKindDefinition} (hd : kingdomsPieces.get? k = some d)
    {cost : ResourceCost} (hrow : (k, cost) ∈ structureCosts) :
    (costOf d).entries = cost.entries := by
  have hpriced := rows_priced _ (List.mem_append_right _ hrow)
  rw [hd] at hpriced
  exact Option.some.inj hpriced

/-! ### One lemma for each kind of button -/

theorem mem_recruitRows (view : KingdomsView) (tv : KingdomsTileView) {t : TileId}
    (ht : tv.id = t) :
    .recruitUnit t k ∈ recruitRows view (some u) tv ↔
      (isMyTurn view (some u) = true ∧ isOwnTile (some u) tv = true ∧
        hasRecruitStructure tv = true) ∧
        k ∈ enabledRows view (some u) (effectiveUnitCosts view (some u)) := by
  subst ht
  have hinj : Function.Injective (KingdomsPayload.recruitUnit tv.id) :=
    fun a b hab => (KingdomsPayload.recruitUnit.inj hab).2
  rw [recruitRows, List.mem_ite_nil_right, List.mem_map_of_injective hinj]

theorem recruit_iff (h : Shows opts s players) (victory : Option VictoryResult)
    (htile : tile ∈ s.map.tiles) :
    recruitUnitValidator s (some u) tile.id k = .ok () ↔
      .recruitUnit tile.id k ∈
        recruitRows (buildKingdomsView s players victory) (some u) (buildTileView s players tile) ∧
        ¬ Overlooked (buildKingdomsView s players victory) u (some (buildTileView s players tile))
          (.recruitUnit tile.id k) := by
  have hrow := mem_recruitRows (u := u) (k := k) (t := tile.id)
    (buildKingdomsView s players victory)
    (buildTileView s players tile) rfl
  by_cases hguard : guardActivePlayer s (some u) = .ok ()
  case neg =>
    exact iff_of_false (fun hok => hguard (recruit_ok.mp hok).1)
      fun hbutton => hguard (h.turn_iff.mp (hrow.mp hbutton.1).1.1)
  obtain ⟨hne, -⟩ := h.player victory hguard
  have hconn := h.connected_iff (u := u) hguard htile
  rw [isConnected, decide_eq_true_eq, own_iff hne] at hconn
  have hkinds : (effectiveUnitCosts (buildKingdomsView s players victory) (some u)).map Prod.fst =
      unitKinds := by
    rw [← unitCosts_kinds, effectiveUnitCosts, List.map_append]
    rfl
  by_cases hk : k ∈ unitKinds
  case neg =>
    refine iff_of_false (fun hok => hk (recruit_ok.mp hok).2.1) fun hbutton => hk ?_
    obtain ⟨player, -, cost, hmem, -⟩ := mem_enabledRows.mp (hrow.mp hbutton.1).2
    rw [← hkinds]
    exact List.mem_map_of_mem hmem
  obtain ⟨d, hreq, hd⟩ := require_ok (List.mem_append_right _ hk)
  have henabled := h.enabled_iff victory (k := k) hguard
    fun _ hrow => h.unit_price victory hne hd hrow
  rw [hkinds, and_iff_right hk] at henabled
  have hover : Overlooked (buildKingdomsView s players victory) u
      (some (buildTileView s players tile))
      (.recruitUnit tile.id k) ↔ (buildTileView s players tile).incomePreview = none ∨
        limitReached d (countPlayerPiecesOfKind s u k) = true ∨
        ((unitStats k).map UnitDef.foodPerRound).getD 0 > 0 ∧
        stockOf (s.inventories.get? u) "food" ≤ 0 := by
    rw [Overlooked, h.full_iff hd, h.starving_iff hguard]
    simp
  rw [hrow, hover, h.turn_iff, own_iff hne, h.recruitStructure_iff htile, henabled, recruit_ok,
    ← hconn, hreq]
  simp only [Except.ok.injEq, exists_eq_left', not_or, Bool.not_eq_true]
  constructor
  · rintro ⟨hguard, -, hown, ⟨-, hreached⟩, hbase, hroom, hpay, hfed⟩
    exact ⟨⟨⟨hguard, hown, hbase⟩, hpay⟩, hreached, hroom, hfed⟩
  · rintro ⟨⟨⟨hguard, hown, hbase⟩, hpay⟩, hreached, hroom, hfed⟩
    exact ⟨hguard, hk, hown, ⟨hown, hreached⟩, hbase, hroom, hpay, hfed⟩

theorem mem_buildRows (view : KingdomsView) (tv : KingdomsTileView) {t : TileId} (ht : tv.id = t) :
    .buildStructure t k ∈ buildRows view (some u) tv ↔
      (isMyTurn view (some u) = true ∧ isConnected (some u) tv = true ∧
        existingStructures tv = []) ∧
        k ∈ enabledRows view (some u) structureCosts := by
  subst ht
  have hinj : Function.Injective (KingdomsPayload.buildStructure tv.id) :=
    fun a b hab => (KingdomsPayload.buildStructure.inj hab).2
  rw [buildRows, List.mem_ite_nil_right, List.mem_map_of_injective hinj]

theorem build_iff (h : Shows opts s players) (victory : Option VictoryResult)
    (htile : tile ∈ s.map.tiles) :
    buildStructureValidator s (some u) tile.id k = .ok () ↔
      .buildStructure tile.id k ∈
        buildRows (buildKingdomsView s players victory) (some u) (buildTileView s players tile) ∧
        ¬ Overlooked (buildKingdomsView s players victory) u (some (buildTileView s players tile))
          (.buildStructure tile.id k) := by
  have hrow := mem_buildRows (u := u) (k := k) (t := tile.id) (buildKingdomsView s players victory)
    (buildTileView s players tile) rfl
  by_cases hguard : guardActivePlayer s (some u) = .ok ()
  case neg =>
    exact iff_of_false (fun hok => hguard (build_ok.mp hok).1)
      fun hbutton => hguard (h.turn_iff.mp (hrow.mp hbutton.1).1.1)
  by_cases hk : k ∈ buildableStructures
  case neg =>
    refine iff_of_false (fun hok => hk (build_ok.mp hok).2.1) fun hbutton => hk ?_
    obtain ⟨player, -, cost, hmem, -⟩ := mem_enabledRows.mp (hrow.mp hbutton.1).2
    rw [← structureCosts_kinds]
    exact List.mem_map_of_mem hmem
  obtain ⟨d, hreq, hd⟩ := require_ok (List.mem_append_left _ (buildable_structure hk).1)
  have henabled := h.enabled_iff victory (k := k) hguard
    fun _ hrow => structure_price hd hrow
  rw [structureCosts_kinds, and_iff_right hk] at henabled
  have hover : Overlooked (buildKingdomsView s players victory) u
      (some (buildTileView s players tile))
      (.buildStructure tile.id k) ↔ limitReached d (countPlayerPiecesOfKind s u k) = true :=
        h.full_iff hd
  rw [hrow, hover, h.turn_iff, h.connected_iff hguard htile, h.free_iff htile, henabled,
    build_ok, hreq]
  simp only [Except.ok.injEq, exists_eq_left', Bool.not_eq_true]
  constructor
  · rintro ⟨hguard, -, -, hconn, hfree, hroom, hpay⟩
    exact ⟨⟨⟨hguard, hconn, hfree⟩, hpay⟩, hroom⟩
  · rintro ⟨⟨⟨hguard, hconn, hfree⟩, hpay⟩, hroom⟩
    exact ⟨hguard, hk, connected_owned hconn, hconn, hfree, hroom, hpay⟩

theorem mem_demolishButtons {view : KingdomsView} {tv : KingdomsTileView} {t : TileId}
    (ht : tv.id = t) :
    .demolishStructure t ∈ demolishButtons view (some u) tv ↔
      (isMyTurn view (some u) = true ∧ isOwnTile (some u) tv = true) ∧
        ∃ k ∈ existingStructures tv, k ≠ "capital-base" := by
  subst ht
  rw [demolishButtons, List.mem_ite_nil_right]
  simp only [List.mem_map, List.mem_filter, decide_eq_true_eq, and_true]

/-- There is one structure on a tile, and it belongs to the owner of the tile. -/
theorem demolish_iff (h : Shows opts s players) (victory : Option VictoryResult)
    (htile : tile ∈ s.map.tiles) :
    demolishStructureValidator s (some u) tile.id = .ok () ↔ .demolishStructure tile.id ∈
      demolishButtons (buildKingdomsView s players victory) (some u)
        (buildTileView s players tile) := by
  rw [mem_demolishButtons (t := tile.id) rfl, h.turn_iff, demolish_ok]
  by_cases hguard : guardActivePlayer s (some u) = .ok ()
  case neg => exact iff_of_false (fun hok => hguard hok.1) fun hbutton => hguard hbutton.1.1
  obtain ⟨hne, -⟩ := h.player victory hguard
  rw [own_iff hne, and_assoc]
  refine and_congr_right fun _ => and_congr_right fun hown => ?_
  constructor
  · rintro ⟨id, q, hq, hcap, -⟩
    obtain ⟨hget, hk, ht⟩ := structureOnTile_some hq
    exact ⟨q.kind, (h.mem_existing htile).mpr ⟨id, q, hget, rfl, hk, ht⟩, hcap⟩
  · rintro ⟨k, hk, hcap⟩
    obtain ⟨id, q, hget, rfl, hk, ht⟩ := (h.mem_existing htile).mp hk
    obtain ⟨⟨id', q'⟩, hq'⟩ :=
      Option.ne_none_iff_exists'.mp (structure_iff.mpr ⟨id, q, hget, hk, ht⟩)
    obtain ⟨hget', hk', ht'⟩ := structureOnTile_some hq'
    obtain rfl := h.board.lone id q id' q' hget hget' hk hk' (ht.trans ht'.symm)
    rw [hget, Option.some.injEq] at hget'
    subst hget'
    obtain ⟨t, htq, howner⟩ := h.board.home id q hget
    rw [ht, Option.some.injEq] at htq
    rw [← htq, hown, Option.some.injEq] at howner
    exact ⟨id, q, hq', hcap, howner.symm⟩

theorem mem_developRow {view : KingdomsView} {tv : KingdomsTileView} {t : TileId} (ht : tv.id = t) :
    .developTile t ∈ developRow view (some u) tv ↔
      (isMyTurn view (some u) = true ∧ isConnected (some u) tv = true ∧ tv.developed = false) ∧
        ∃ player, me view (some u) = some player ∧ ¬ player.gold < developCost := by
  subst ht
  rw [developRow, List.mem_ite_nil_right]
  refine and_congr_right fun _ => ?_
  cases me view (some u) with
  | none => simp
  | some player => simp

/-- Every tile of the map has a resource, so it can be developed. -/
theorem develop_iff (h : Shows opts s players) (victory : Option VictoryResult)
    (htile : tile ∈ s.map.tiles) :
    developTileValidator s (some u) tile.id = .ok () ↔ .developTile tile.id ∈
      developRow (buildKingdomsView s players victory) (some u) (buildTileView s players tile) := by
  rw [mem_developRow (t := tile.id) rfl, h.turn_iff, develop_ok]
  by_cases hguard : guardActivePlayer s (some u) = .ok ()
  case neg => exact iff_of_false (fun hok => hguard hok.1) fun hbutton => hguard hbutton.1.1
  obtain ⟨-, -, pl, -, rfl, hme⟩ := h.player victory hguard
  obtain ⟨r, -, hresource⟩ := kingdomsMap_resource (h.ground.map ▸ h.found htile)
  have hdeveloped : (buildTileView s players tile).developed = false ↔
      tile.id ∉ s.extras.developed :=
    decide_eq_false_iff_not
  have hgold : (∃ player, me (buildKingdomsView s players victory) (some pl.id) = some player ∧
      ¬ player.gold < developCost) ↔
      ¬ stockOf (s.inventories.get? pl.id) "gold" < Kingdoms.developCost := by
    rw [hme]
    simp only [Option.some.injEq, exists_eq_left']
    rfl
  rw [h.connected_iff hguard htile, hdeveloped, hgold, h.found htile]
  simp only [Option.some.injEq, exists_eq_left', hresource, reduceCtorEq, false_and,
    not_false_eq_true, true_and]
  constructor
  · rintro ⟨hguard, -, hconn, hfresh, hpay⟩
    exact ⟨⟨hguard, hconn, hfresh⟩, hpay⟩
  · rintro ⟨⟨hguard, hconn, hfresh⟩, hpay⟩
    exact ⟨hguard, connected_owned hconn, hconn, hfresh, hpay⟩

theorem endTurn_iff (h : Shows opts s players) : endTurnValidator s (some u) = .ok () ↔
    .endTurn ∈ endTurnButton (buildKingdomsView s players victory) (some u) := by
  rw [endTurnButton, List.mem_ite_nil_right, h.turn_iff]
  exact (and_iff_left (List.mem_singleton_self _)).symm

end Shows

/-! ## The panel and the engine -/

theorem recruitRows_form {view : KingdomsView} {userId : Option PlayerId} {tv : KingdomsTileView}
    {payload : KingdomsPayload} (h : payload ∈ recruitRows view userId tv) :
    ∃ k, payload = .recruitUnit tv.id k := by
  rw [recruitRows, List.mem_ite_nil_right] at h
  obtain ⟨k, -, rfl⟩ := List.mem_map.mp h.2
  exact ⟨k, rfl⟩

theorem buildRows_form {view : KingdomsView} {userId : Option PlayerId} {tv : KingdomsTileView}
    {payload : KingdomsPayload} (h : payload ∈ buildRows view userId tv) :
    ∃ k, payload = .buildStructure tv.id k := by
  rw [buildRows, List.mem_ite_nil_right] at h
  obtain ⟨k, -, rfl⟩ := List.mem_map.mp h.2
  exact ⟨k, rfl⟩

theorem demolishButtons_form {view : KingdomsView} {userId : Option PlayerId}
    {tv : KingdomsTileView} {payload : KingdomsPayload}
    (h : payload ∈ demolishButtons view userId tv) :
    payload = .demolishStructure tv.id := by
  rw [demolishButtons, List.mem_ite_nil_right] at h
  obtain ⟨k, -, rfl⟩ := List.mem_map.mp h.2
  rfl

theorem developRow_form {view : KingdomsView} {userId : Option PlayerId} {tv : KingdomsTileView}
    {payload : KingdomsPayload} (h : payload ∈ developRow view userId tv) :
    payload = .developTile tv.id := by
  rw [developRow, List.mem_ite_nil_right] at h
  obtain ⟨-, h⟩ := h
  split at h
  · exact absurd h List.not_mem_nil
  · exact List.mem_singleton.mp (List.mem_ite_nil_left.mp h).2

theorem endTurnButton_form {view : KingdomsView} {userId : Option PlayerId}
    {payload : KingdomsPayload} (h : payload ∈ endTurnButton view userId) : payload = .endTurn := by
  rw [endTurnButton, List.mem_ite_nil_right] at h
  exact List.mem_singleton.mp h.2

/-- The commands of a button on the page, once the section it is in is open; the others are staged
over several clicks. -/
def OneClick : KingdomsPayload → Prop
  | .recruitUnit .. | .buildStructure .. | .demolishStructure .. | .developTile .. | .endTurn =>
    True
  | _ => False

/-- A tile of the view is selected, or none. -/
def Selectable (view : KingdomsView) (selectedTile : Option KingdomsTileView) : Prop :=
  ∀ tv ∈ selectedTile, tv ∈ view.tiles

/-- What the page offers to `u`, against what the engine accepts from them. -/
structure PanelExact {R : Type} [Strength R] (g : KGame R) (view : KingdomsView) (u : PlayerId) :
    Prop where
  sound : ∀ selectedTile, Selectable view selectedTile →
    ∀ payload ∈ buttons view (some u) selectedTile, ∀ id,
    Game.accepts (kingdomsScenario R) g ⟨some u, payload, id⟩ = true ↔
    ¬ Overlooked view u selectedTile payload
  complete : ∀ payload, OneClick payload →
    ∀ id, Game.accepts (kingdomsScenario R) g ⟨some u, payload, id⟩ = true →
    ∃ selectedTile, Selectable view selectedTile ∧ payload ∈ buttons view (some u) selectedTile

section Exact

variable {R : Type} {opts : GameSetupOptions} {s : KState R} {players : List Player}
  {victory : Option VictoryResult} {u : PlayerId}

theorem Shows.reachable [Strength R] (hid : (opts.players.map Player.id).Nodup)
    (hseat : (opts.players.map Player.seat).Nodup) {calls : List (KCall R)} {g : KGame R}
    (h : Game.RunFrom (kingdomsScenario R) opts calls g)
    (hplayers : ∀ pl ∈ g.state.players.bySeat, pl.id ∈ players.map Player.id) :
    Shows opts g.state players := by
  obtain ⟨hs, hb, -⟩ := board_reachable hid hseat h
  refine ⟨hs, hb, (armory_reachable hid hseat h).ground, ?_, fun t o ht =>
    owned_on_map hid hseat h ht, hplayers⟩
  obtain ⟨_, hset, _⟩ := h
  exact (createGameState_ok hset).1

theorem Shows.offered [Strength R] (h : Shows opts s players)
    {selectedTile : Option KingdomsTileView}
    (hsel : Selectable (buildKingdomsView s players victory) selectedTile)
    {payload : KingdomsPayload}
    (hp : payload ∈ buttons (buildKingdomsView s players victory) (some u) selectedTile) :
    validatePayload s (some u) payload = .ok () ↔
      ¬ Overlooked (buildKingdomsView s players victory) u selectedTile payload := by
  obtain hp | hp := List.mem_append.mp hp
  · cases selectedTile with
    | none => exact absurd hp List.not_mem_nil
    | some tv =>
      obtain ⟨tile, htile, rfl⟩ := List.mem_map.mp (hsel tv rfl)
      simp only [List.mem_append] at hp
      obtain ((hp | hp) | hp) | hp := hp
      · obtain ⟨k, rfl⟩ := recruitRows_form hp
        exact (h.recruit_iff victory htile).trans (and_iff_right hp)
      · obtain ⟨k, rfl⟩ := buildRows_form hp
        exact (h.build_iff victory htile).trans (and_iff_right hp)
      · obtain rfl := demolishButtons_form hp
        exact iff_of_true ((h.demolish_iff victory htile).mpr hp) id
      · obtain rfl := developRow_form hp
        exact iff_of_true ((h.develop_iff victory htile).mpr hp) id
  · obtain rfl := endTurnButton_form hp
    exact iff_of_true (h.endTurn_iff.mpr hp) id

/-- What `u` may do on a tile, the page offers when that tile is selected. -/
theorem Shows.offers [Strength R] (h : Shows opts s players) {payload : KingdomsPayload}
    (hone : OneClick payload) (hok : validatePayload s (some u) payload = .ok ()) :
    ∃ selectedTile, Selectable (buildKingdomsView s players victory) selectedTile ∧
      payload ∈ buttons (buildKingdomsView s players victory) (some u) selectedTile := by
  have hselect : ∀ t, s.extras.ownership.get? t = some u → ∃ tile ∈ s.map.tiles, tile.id = t ∧
      Selectable (buildKingdomsView s players victory) (some (buildTileView s players tile)) := by
    intro t hown
    obtain ⟨tile, hget⟩ := h.land t u hown
    have htile := GameMap.mem_tiles.mpr ⟨t, hget⟩
    exact ⟨tile, htile, h.ground.keyed hget, fun tv htv =>
      Option.some.inj htv ▸ List.mem_map_of_mem htile⟩
  cases payload with
  | recruitUnit t k =>
    obtain ⟨tile, htile, rfl, hsel⟩ := hselect t (recruit_ok.mp hok).2.2.1
    have hrow := ((h.recruit_iff victory htile).mp hok).1
    exact ⟨_, hsel, by simp [buttons, hrow]⟩
  | buildStructure t k =>
    obtain ⟨tile, htile, rfl, hsel⟩ := hselect t (build_ok.mp hok).2.2.1
    have hrow := ((h.build_iff victory htile).mp hok).1
    exact ⟨_, hsel, by simp [buttons, hrow]⟩
  | demolishStructure t =>
    obtain ⟨tile, htile, rfl, hsel⟩ := hselect t (demolish_ok.mp hok).2.1
    have hrow := (h.demolish_iff victory htile).mp hok
    exact ⟨_, hsel, by simp [buttons, hrow]⟩
  | developTile t =>
    obtain ⟨tile, htile, rfl, hsel⟩ := hselect t (develop_ok.mp hok).2.1
    have hrow := (h.develop_iff victory htile).mp hok
    exact ⟨_, hsel, by simp [buttons, hrow]⟩
  | endTurn =>
    exact ⟨none, fun tv htv => absurd htv
      (Option.not_mem_none tv), by simp [buttons, h.endTurn_iff.mp hok]⟩
  | moveUnit | attackTile | unregistered => exact hone.elim

variable [Strength R]

/-- **The panel against the engine**: every recruit, build, demolish, develop and end-turn command
that the engine accepts from the user is a button of the page, and a button that the page enables is
refused exactly for what the panel does not look at. -/
theorem panel_exact (hid : (opts.players.map Player.id).Nodup)
    (hseat : (opts.players.map Player.seat).Nodup) {calls : List (KCall R)} {g : KGame R}
    (h : Game.RunFrom (kingdomsScenario R) opts calls g)
    (hplayers : ∀ pl ∈ g.state.players.bySeat, pl.id ∈ players.map Player.id)
    (victory : Option VictoryResult) (u : PlayerId) :
    PanelExact g (buildKingdomsView g.state players victory) u := by
  have hshows : Shows opts g.state players := Shows.reachable hid hseat h hplayers
  have haccepts : ∀ payload id, Game.accepts (kingdomsScenario R) g ⟨some u, payload, id⟩ = true ↔
      validatePayload g.state (some u) payload = .ok () := by
    intro payload id
    rw [Game.accepts_iff, validate_eq]
  refine ⟨fun selectedTile hsel payload hp id => ?_, fun payload hone id hacc => ?_⟩
  · rw [haccepts]
    exact hshows.offered hsel hp
  · exact hshows.offers hone ((haccepts payload id).mp hacc)

end Exact

/-- What `p1` may click on their capital in the first turn. -/
theorem panel_exact_capital : ∃ r, Game.play (kingdomsScenario ℚ) duel [.start] = .ok r ∧
    buttons (viewOf r.2.state) (some "p1") ((viewOf r.2.state).tiles.find? (·.id = "4,-4")) =
      [.recruitUnit "4,-4" "spearman", .recruitUnit "4,-4" "cannoneer", .recruitUnit "4,-4" "noble",
        .developTile "4,-4", .endTurn] ∧
    PanelExact r.2 (viewOf r.2.state) "p1" := by
  have hobserved : (Game.play (kingdomsScenario ℚ) duel [.start]).toOption.map (fun r =>
      buttons (viewOf r.2.state) (some "p1") ((viewOf r.2.state).tiles.find? (·.id = "4,-4"))) =
      some [.recruitUnit "4,-4" "spearman", .recruitUnit "4,-4" "cannoneer",
        .recruitUnit "4,-4" "noble",
        .developTile "4,-4", .endTurn] := by decide +kernel
  obtain ⟨r, hr, hrun, hbuttons⟩ := Game.play_observed hobserved
  exact ⟨r, hr, hbuttons,
    panel_exact (by decide) (by decide) hrun (fun pl hpl => List.mem_map_of_mem hpl) none "p1"⟩

end Boardgame.Web.ActionPanel
