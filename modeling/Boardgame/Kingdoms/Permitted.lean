import Boardgame.Kingdoms.Scenario

/-!
# Kingdoms.Permitted

What the rules of Kingdoms let the player on turn do. No rule asks for the status of the game.

* `recruit_ok` and its siblings: what each validator lets pass.
* `validatePayload_ok`: the validators let pass just what is permitted.
-/

namespace Boardgame.Kingdoms

variable {R : Type} {s : KState R} {u : PlayerId}

/-! ## One lemma for each validator -/

theorem recruit_ok {t : TileId} {k : String} : recruitUnitValidator s (some u) t k = .ok () ↔
    guardActivePlayer s (some u) = .ok () ∧ k ∈ unitKinds ∧ s.extras.ownership.get? t = some u ∧
      t ∈ playerConnectedTiles s u ∧ structureOnTile s t recruitStructures ≠ none ∧
      ∃ d, kingdomsPieces.require k = .ok d ∧
        limitReached d (countPlayerPiecesOfKind s u k) = false ∧
        checkCost (s.inventories.get? u) (effectiveCost s u k d).entries = .ok () ∧
        ¬ (((unitStats k).map UnitDef.foodPerRound).getD 0 > 0 ∧
          stockOf (s.inventories.get? u) "food" ≤ 0) := by
  simp only [recruitUnitValidator, Eff.except_seq_eq_ok, rejectIf_eq_ok, orThrow_bind_ok,
    not_not, ne_eq]
  simp only [actor_some, Bool.not_eq_true]

theorem build_ok {t : TileId} {k : String} : buildStructureValidator s (some u) t k = .ok () ↔
    guardActivePlayer s (some u) = .ok () ∧ k ∈ buildableStructures ∧
      s.extras.ownership.get? t = some u ∧
      t ∈ playerConnectedTiles s u ∧ structureOnTile s t structureKinds = none ∧
      ∃ d, kingdomsPieces.require k = .ok d ∧
        limitReached d (countPlayerPiecesOfKind s u k) = false ∧
        checkCost (s.inventories.get? u) (costOf d).entries = .ok () := by
  simp only [buildStructureValidator, Eff.except_seq_eq_ok, rejectIf_eq_ok, orThrow_bind_ok,
    not_not, ne_eq]
  simp only [actor_some, Bool.not_eq_true]

theorem demolish_ok {t : TileId} : demolishStructureValidator s (some u) t = .ok () ↔
    guardActivePlayer s (some u) = .ok () ∧ s.extras.ownership.get? t = some u ∧
      ∃ id q, structureOnTile s t structureKinds = some (id, q) ∧ q.kind ≠ "capital-base" ∧
        q.owner = u := by
  simp only [demolishStructureValidator, Eff.except_seq_eq_ok, rejectIf_eq_ok,
    orReject_bind_ok, not_not, Prod.exists, ne_eq, Option.some.injEq]

theorem develop_ok {t : TileId} : developTileValidator s (some u) t = .ok () ↔
    guardActivePlayer s (some u) = .ok () ∧ s.extras.ownership.get? t = some u ∧
      t ∈ playerConnectedTiles s u ∧
      t ∉ s.extras.developed ∧ ∃ tile, s.map.tileById t = some tile ∧
        ¬ (tile.properties.bind TileProps.resourceType = none ∧
          terrainDevelopsInto tile.terrain = none) ∧
        ¬ stockOf (s.inventories.get? u) "gold" < developCost := by
  simp only [developTileValidator, Eff.except_seq_eq_ok, rejectIf_eq_ok, orReject_bind_ok,
    not_not, ne_eq]
  simp only [actor_some]

theorem move_ok {id : PieceId} {t : TileId} : moveUnitValidator s (some u) id t = .ok () ↔
    guardActivePlayer s (some u) = .ok () ∧
      ∃ q, s.pieces.get? id = some q ∧ q.owner = u ∧ q.kind ∈ unitKinds ∧
        id ∉ s.extras.movedThisTurn ∧
        tileOf q ≠ some t ∧ s.extras.ownership.get? t = some u ∧ t ∈ playerConnectedTiles s u := by
  simp only [moveUnitValidator, Eff.except_seq_eq_ok, rejectIf_eq_ok, orReject_bind_ok,
    not_not, ne_eq, Option.filter_eq_some_iff, decide_eq_true_eq, Option.some.injEq, and_assoc]
  simp only [actor_some]

/-- The kinds that may attack `t`. -/
def eligibleKinds (s : KState R) (t : TileId) : List String :=
  if s.extras.ownership.get? t = none then unitKinds else combatUnitKinds

/-- The player has chosen units to attack with, or has some to take: one of them may attack. -/
def Eligible (s : KState R) (u : PlayerId) (f t : TileId) : Option (List PieceId) → Prop
  | some ids =>
    ids ≠ [] ∧ (∀ id ∈ ids, id ∈ unitsOnTile s f (some u) unitKinds) ∧
      ∃ id ∈ ids, ∃ q, s.pieces.get? id = some q ∧ q.kind ∈ eligibleKinds s t
  | none => unitsOnTile s f (some u) (eligibleKinds s t) ≠ []

theorem attack_ok {f t : TileId} {ids : Option (List PieceId)} :
    attackTileValidator s (some u) f t ids = .ok () ↔
      guardActivePlayer s (some u) = .ok () ∧ s.extras.ownership.get? f = some u ∧
        f ∈ playerConnectedTiles s u ∧
        s.extras.ownership.get? t ≠ some u ∧ isAdjacent s.map f t = true ∧
        unitsOnTile s f (some u) unitKinds ≠ [] ∧ s.extras.attackedFrom = [] ∧
        Eligible s u f t ids := by
  simp only [attackTileValidator, Eff.except_seq_eq_ok, rejectIf_eq_ok, not_not, ne_eq,
    Bool.not_eq_false]
  simp only [actor_some, not_lt, Nat.le_zero, List.length_eq_zero_iff]
  refine and_congr_right fun _ => and_congr_right fun _ => and_congr_right fun _ =>
    and_congr_right fun _ => and_congr_right fun _ => and_congr_right fun _ =>
    and_congr_right fun _ => ?_
  cases ids with
  | none => exact rejectIf_eq_ok
  | some ids =>
    simp only [Eff.except_seq_eq_ok, rejectIf_eq_ok, not_exists, not_and, not_not, not_forall,
      Option.any_eq_true, decide_eq_true_eq, Eligible, exists_prop]
    rfl

/-! ## What is permitted -/

/-- The player has what it takes. -/
def Affords (s : KState R) (u : PlayerId) (cost : OrderedMap ResourceType ℚ) : Prop :=
  ∀ e ∈ cost.entries, e.2 ≤ stockOf (s.inventories.get? u) e.1

/-- What a player may do in their turn. -/
def Permitted (s : KState R) (u : PlayerId) : KingdomsPayload → Prop
  | .recruitUnit t k =>
    k ∈ unitKinds ∧ s.extras.ownership.get? t = some u ∧ t ∈ playerConnectedTiles s u ∧
      structureOnTile s t recruitStructures ≠ none ∧
      ∃ d, kingdomsPieces.get? k = some d ∧ limitReached d (countPlayerPiecesOfKind s u k) = false ∧
        Affords s u (effectiveCost s u k d) ∧
        ¬ (0 < ((unitStats k).map UnitDef.foodPerRound).getD 0 ∧
          stockOf (s.inventories.get? u) "food" ≤ 0)
  | .moveUnit id t =>
    ∃ q, s.pieces.get? id = some q ∧ q.owner = u ∧ q.kind ∈ unitKinds ∧
      id ∉ s.extras.movedThisTurn ∧
      tileOf q ≠ some t ∧ s.extras.ownership.get? t = some u ∧ t ∈ playerConnectedTiles s u
  | .attackTile f t ids =>
    s.extras.ownership.get? f = some u ∧ f ∈ playerConnectedTiles s u ∧
      s.extras.ownership.get? t ≠ some u ∧
      isAdjacent s.map f t = true ∧ unitsOnTile s f (some u) unitKinds ≠ [] ∧
      s.extras.attackedFrom = [] ∧
      Eligible s u f t ids
  | .buildStructure t k =>
    k ∈ buildableStructures ∧ s.extras.ownership.get? t = some u ∧ t ∈ playerConnectedTiles s u ∧
      structureOnTile s t structureKinds = none ∧
      ∃ d, kingdomsPieces.get? k = some d ∧ limitReached d (countPlayerPiecesOfKind s u k) = false ∧
        Affords s u (costOf d)
  | .demolishStructure t =>
    s.extras.ownership.get? t = some u ∧
      ∃ id q, structureOnTile s t structureKinds = some (id, q) ∧ q.kind ≠ "capital-base" ∧
        q.owner = u
  | .developTile t =>
    s.extras.ownership.get? t = some u ∧ t ∈ playerConnectedTiles s u ∧ t ∉ s.extras.developed ∧
      ∃ tile, s.map.tileById t = some tile ∧
        ¬ (tile.properties.bind TileProps.resourceType = none ∧
          terrainDevelopsInto tile.terrain = none) ∧
        developCost ≤ stockOf (s.inventories.get? u) "gold"
  | .endTurn => True
  | .unregistered _ => False

theorem require_iff {k : String} {d : PieceKindDefinition} :
    kingdomsPieces.require k = .ok d ↔ kingdomsPieces.get? k = some d := by
  unfold PieceRegistry.require
  cases kingdomsPieces.get? k <;> simp

/-- The validators let pass what the rules let the player on turn do. -/
theorem validatePayload_ok (payload : KingdomsPayload) :
    validatePayload s (some u) payload = .ok () ↔
    guardActivePlayer s (some u) = .ok () ∧ Permitted s u payload := by
  cases payload with
  | recruitUnit t k =>
    refine recruit_ok.trans ?_
    simp only [require_iff, checkCost_ok]
    rfl
  | moveUnit id t => exact move_ok
  | attackTile f t ids => exact attack_ok
  | buildStructure t k =>
    refine build_ok.trans ?_
    simp only [require_iff, checkCost_ok]
    rfl
  | demolishStructure t => exact demolish_ok
  | developTile t =>
    refine develop_ok.trans ?_
    simp only [not_lt]
    rfl
  | endTurn => exact (and_iff_left trivial).symm
  | unregistered t => exact iff_of_false (fun h => by cases h) fun h => h.2.elim

end Boardgame.Kingdoms
