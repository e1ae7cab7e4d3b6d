import Boardgame.Core.Exact
import Boardgame.Kingdoms.Armory
import Boardgame.Kingdoms.View

/-!
# Kingdoms.Preview

The strength preview of the web client (`MilitaryPanel.tsx`: `computeStrength`,
`estimateCasualties`, `AttackPreview`) against the fight of the engine. The two have their own
tables, count their own pieces and combine the structures of a tile differently.

* `panel_attackers`, `panel_defenders`: the pieces the panel counts are the fighters of the fight.
* `preview_true`: what the panel shows is what the battle reports.
-/

namespace Boardgame.Kingdoms

/-! ## The panel -/

namespace MilitaryPanel

open Strength

/-- `TERRAIN_DEFENSE_BONUS[terrain] ?? 1.0`. -/
def terrainDefenseBonus (terrain : String) : ℚ :=
  match terrain with
  | "plains" => 1
  | "hills" => 13 / 10
  | "forest" => 3 / 2
  | "mountain" => 2
  | _ => 1

/-- `STRUCTURE_DEFENSE_MULT[kind] ?? 1.0`. -/
def structureDefenseMult (kind : String) : ℚ :=
  match kind with
  | "capital-base" => 2
  | "castle" => 2
  | _ => 1

def loyaltyDamagePerAttack : Int := 45

def maxLoyalty : Int := 100

structure StrengthBreakdown (R : Type) where
  totalAtk : ℚ
  count : Nat
  terrainBonus : ℚ
  structDefMult : ℚ
  strength : R

variable {R : Type} [Strength R]

/-- The pieces the panel counts. -/
def combatUnits (tile : KingdomsTileView) (ownerId : PlayerId)
    (unitFilter : Option (List PieceId)) :
    List KingdomsTilepiece :=
  tile.pieces.filter fun p => p.attack ≠ none ∧ p.owner = ownerId ∧ unitFilter.all (p.id ∈ ·)

def computeStrength (tile : KingdomsTileView) (ownerId : PlayerId) (asDefender : Bool)
    (unitFilter : Option (List PieceId)) : StrengthBreakdown R :=
  let units := combatUnits tile ownerId unitFilter
  let totalAtk := units.foldl (fun sum u => sum + u.attack.getD 0) 0
  let count := units.length
  let terrainBonus := if asDefender then terrainDefenseBonus tile.terrain else 1
  let structDefMult :=
    if asDefender then
      (tile.pieces.filter fun p => p.defenseMultiplier ≠ none).foldl
        (fun best s => max best (structureDefenseMult s.kind)) 1
    else 1
  { totalAtk, count, terrainBonus, structDefMult
    strength :=
      if count = 0 then ofRat 0
      else mul (mul (mul (ofRat totalAtk) (sqrt (ofRat count))) (ofRat terrainBonus))
        (ofRat structDefMult) }

/-- `{ attackerWins, casualties }`. -/
def estimateCasualties (attackerCount defenderCount : Nat) (attackerStr defenderStr : R) :
    Bool × Int :=
  if defenderCount = 0 then (true, 0)
  else if gt attackerStr defenderStr then
    (true, floor (mul (mul (ofRat attackerCount) (div defenderStr attackerStr)) (ofRat (1 / 2))))
  else (false, floor (mul (mul (ofRat defenderCount) (div attackerStr defenderStr))
    (ofRat (2 / 5))))

structure AttackPreviewProps where
  selectedTile : KingdomsTileView
  attackingTile : KingdomsTileView
  players : List KingdomsPlayerView
  view : KingdomsView
  attackUnitIds : Option (OrderedMap PieceId Bool)

/-- What the component shows. -/
structure AttackPreview (R : Type) where
  atk : StrengthBreakdown R
  defence : StrengthBreakdown R
  attackerLabel : String
  defenderLabel : String
  attackerWins : Bool
  casualties : Int
  hasNoble : Bool
  currentLoyalty : Int
  nextLoyalty : Int

/-- `new Set(Object.entries(attackUnitIds).filter(([, v]) => v).map(([id]) => id))`. -/
def stagedIds (attackUnitIds : OrderedMap PieceId Bool) : List PieceId :=
  (attackUnitIds.entries.filter fun e => e.2).map Prod.fst

def attackPreview (props : AttackPreviewProps) : AttackPreview R :=
  let attackerOwner := props.selectedTile.owner.getD props.view.currentActivePlayer
  -- an owner with an empty id counts as none
  let defenderOwner := props.attackingTile.owner.filter (· ≠ "")
  let unitFilter := props.attackUnitIds.map stagedIds
  let atk : StrengthBreakdown R := computeStrength props.selectedTile attackerOwner false unitFilter
  let defence : StrengthBreakdown R :=
    match defenderOwner with
    | some owner => computeStrength props.attackingTile owner true none
    | none => ⟨0, 0, 1, 1, ofRat 0⟩
  let label owner fallback :=
    ((props.players.find? (·.id = owner)).map KingdomsPlayerView.displayName).getD fallback
  let estimate := estimateCasualties atk.count defence.count atk.strength defence.strength
  let currentLoyalty :=
    ((props.view.turnState.tileLoyalty.get? props.attackingTile.id).map TileLoyalty.loyalty).getD
    maxLoyalty
  { atk, defence
    attackerLabel := label attackerOwner "attacker"
    defenderLabel := (defenderOwner.map fun owner => label owner "defender").getD "defender"
    attackerWins := estimate.1
    casualties := estimate.2
    hasNoble := props.selectedTile.pieces.any fun p =>
      p.kind = "noble" ∧ p.owner = attackerOwner ∧ unitFilter.all (p.id ∈ ·)
    currentLoyalty
    nextLoyalty := currentLoyalty - loyaltyDamagePerAttack }

/-! ## The tables -/

theorem terrainDefenseBonus_eq (terrain : String) :
    terrainDefenseBonus terrain = Kingdoms.terrainDefenseBonus terrain := rfl

theorem structureDefenseMult_eq {k : String} (hk : k ∈ structureKinds) :
    max 1 (structureDefenseMult k) =
      ((structureStats k).map StructureDef.defenseMultiplier).getD 1 := by
  revert k
  decide +kernel

/-! ## What the panel counts -/

section Count

omit [Strength R]

variable {s : KState R} {f t : TileId} {p : PlayerId} {ids : List PieceId}

/-- The units of `o` on a tile, of those in `ids` if given, as entries of the board. -/
def unitsOf (s : KState R) (t : TileId) (o : PlayerId) (ids : Option (List PieceId)) :
    List (PieceId × Piece) :=
  s.pieces.entries.filter fun e =>
    tileOf e.2 = some t ∧ e.2.kind ∈ unitKinds ∧ e.2.owner = o ∧ ids.all (e.1 ∈ ·)

theorem mem_unitsOf {o : PlayerId} {ids : Option (List PieceId)} {e : PieceId × Piece} :
    e ∈ unitsOf s t o ids ↔ s.pieces.get? e.1 = some e.2 ∧ tileOf e.2 = some t ∧
      e.2.kind ∈ unitKinds ∧
      e.2.owner = o ∧ ids.all (e.1 ∈ ·) = true := by
  simp only [unitsOf, List.mem_filter, OrderedMap.mem_entries (k := e.1) (v := e.2),
    decide_eq_true_eq]

theorem tilepiece_attack {q : Piece} : (tilepiece q).attack ≠ none ↔ q.kind ∈ unitKinds := by
  have hsome : ∀ k ∈ unitKinds, (unitStats k).map UnitDef.attack ≠ none := by decide
  constructor
  · intro h
    by_contra hk
    exact h (by simp [tilepiece, hk])
  · intro hk
    have hattack : (tilepiece q).attack = (unitStats q.kind).map UnitDef.attack := by
      simp [tilepiece, hk]
    rw [hattack]
    exact hsome q.kind hk

theorem combatUnits_eq (hs : Sound s) (ht : t ≠ "") {tile : KingdomsTileView}
    (htile : tile.pieces = piecesByTileId s t) (o : PlayerId) (ids : Option (List PieceId)) :
    combatUnits tile o ids = (unitsOf s t o ids).map fun e => tilepiece e.2 := by
  rw [combatUnits, htile, piecesByTileId_eq s ht, List.filter_map, List.filter_filter, unitsOf]
  congr 1
  refine List.filter_congr fun e he => ?_
  have hid : (tilepiece e.2).id = e.1 := hs.keyed e.1 e.2 (OrderedMap.mem_entries.mp he)
  have howner : (tilepiece e.2).owner = e.2.owner := rfl
  rw [Bool.eq_iff_iff]
  simp only [Function.comp_apply, hid, howner, tilepiece_attack, Bool.and_eq_true,
    decide_eq_true_eq]
  tauto

theorem fighters_unitsOf (o : PlayerId) (ids : Option (List PieceId)) :
    fighters s ((unitsOf s t o ids).map Prod.fst) = (unitsOf s t o ids).map fun e =>
      combatantOf e.1 e.2 := by
  rw [fighters, List.filterMap_map, ← List.filterMap_eq_map]
  refine List.filterMap_congr fun e he => ?_
  simp only [Function.comp_apply, (mem_unitsOf.mp he).1, Option.map_some]

/-- Every unit fights with the value the view shows. -/
theorem attackSum_unitsOf (harm : ∀ id q, s.pieces.get? id = some q → Armed q) (o : PlayerId)
    (ids : Option (List PieceId)) :
    attackSum (fighters s ((unitsOf s t o ids).map Prod.fst)) =
      ((unitsOf s t o ids).map fun e => (tilepiece e.2).attack.getD 0).sum := by
  rw [fighters_unitsOf, attackSum, List.map_map]
  congr 1
  refine List.map_congr_left fun e he => ?_
  obtain ⟨hget, -, hk, -⟩ := mem_unitsOf.mp he
  have hview : (tilepiece e.2).attack = (unitStats e.2.kind).map UnitDef.attack := by
    simp [tilepiece, hk]
  rw [hview, ← (harm e.1 e.2 hget).combatant hk e.1]
  rfl

/-- The chosen units, in the order they were chosen. -/
theorem chosen_perm (hnd : ids.Nodup) (hids : ∀ id ∈ ids, id ∈ unitsOnTile s f (some p) unitKinds)
    {staged : List PieceId} (hstaged : ∀ id, id ∈ staged ↔ id ∈ ids) :
    ((unitsOf s f p (some staged)).map Prod.fst).Perm ids := by
  have hnd' : ((unitsOf s f p (some staged)).map Prod.fst).Nodup :=
    s.pieces.nodup.sublist (List.filter_sublist.map _)
  refine (List.perm_ext_iff_of_nodup hnd' hnd).mpr fun id => ?_
  rw [List.mem_map]
  constructor
  · rintro ⟨e, he, rfl⟩
    have hin := (mem_unitsOf.mp he).2.2.2.2
    rw [Option.all_some, decide_eq_true_eq] at hin
    exact (hstaged e.1).mp hin
  · intro hid
    obtain ⟨q, hq, hk, htile, howner⟩ := mem_unitsOnTile.mp (hids id hid)
    have howner' : p = q.owner := by simpa using howner
    refine ⟨(id, q), mem_unitsOf.mpr ⟨hq, htile, hk, howner'.symm, ?_⟩, rfl⟩
    rw [Option.all_some, decide_eq_true_eq]
    exact (hstaged id).mpr hid

/-- On a tile of `o` all units are `o`'s. -/
theorem defenders_eq (hb : Board s) {o : PlayerId} (ho : s.extras.ownership.get? t = some o) :
    unitsOnTile s t none unitKinds = (unitsOf s t o none).map Prod.fst := by
  rw [unitsOnTile, unitsOf]
  congr 1
  refine List.filter_congr fun e he => ?_
  rw [Bool.eq_iff_iff]
  simp only [decide_eq_true_eq, true_or, and_true, Option.all_none]
  constructor
  · rintro ⟨hk, htile⟩
    obtain ⟨t', ht', howner⟩ := hb.home e.1 e.2 (OrderedMap.mem_entries.mp he)
    rw [htile, Option.some.injEq] at ht'
    rw [← ht', ho, Option.some.injEq] at howner
    exact ⟨htile, hk, howner.symm⟩
  · rintro ⟨htile, hk, -⟩
    exact ⟨hk, htile⟩

/-- On a tile of nobody there is no unit. -/
theorem defenders_none (hb : Board s) (ho : s.extras.ownership.get? t = none) :
    unitsOnTile s t none unitKinds = [] := by
  rw [List.eq_nil_iff_forall_not_mem]
  intro id hid
  obtain ⟨q, hq, -, htile, -⟩ := mem_unitsOnTile.mp hid
  obtain ⟨t', ht', howner⟩ := hb.home id q hq
  rw [htile, Option.some.injEq] at ht'
  rw [← ht', ho] at howner
  cases howner

/-! ## Structures -/

/-- One match at most. -/
theorem filter_lone {α : Type} {l : List α} {p : α → Bool} (hnd : l.Nodup)
    (h : ∀ a ∈ l, ∀ b ∈ l, p a = true → p b = true → a = b) : l.filter p = (l.find? p).toList := by
  induction l with
  | nil => rfl
  | cons a l ih =>
    rw [List.nodup_cons] at hnd
    cases hp : p a with
    | false =>
      rw [List.filter_cons_of_neg (by simp [hp]), List.find?_cons_of_neg (by simp [hp])]
      exact ih hnd.2 fun b hb c hc => h b (List.mem_cons_of_mem _ hb) c (List.mem_cons_of_mem _ hc)
    | true =>
      rw [List.filter_cons_of_pos hp, List.find?_cons_of_pos hp, Option.toList_some,
        List.filter_eq_nil_iff.mpr fun b hb hpb => ?_]
      exact hnd.1 (h a List.mem_cons_self b (List.mem_cons_of_mem _ hb) hp hpb ▸ hb)

theorem tilepiece_defense {q : Piece} : (tilepiece q).defenseMultiplier ≠ none ↔
    q.kind ∈ structureKinds := by
  have hsome : ∀ k ∈ structureKinds, (structureStats k).map StructureDef.defenseMultiplier ≠
      none := by decide
  constructor
  · intro h
    by_contra hk
    exact h (by simp [tilepiece, hk])
  · intro hk
    have hdefense : (tilepiece q).defenseMultiplier =
        (structureStats q.kind).map StructureDef.defenseMultiplier := by
      simp [tilepiece, hk]
    rw [hdefense]
    exact hsome q.kind hk

/-- The structures the panel sees on a tile: the one the fight uses, if any. -/
theorem structures_eq (hb : Board s) (ht : t ≠ "") {tile : KingdomsTileView}
    (htile : tile.pieces = piecesByTileId s t) :
    (tile.pieces.filter fun p => p.defenseMultiplier ≠ none) =
      (structureOnTile s t structureKinds).toList.map fun e => tilepiece e.2 := by
  have hlone : (s.pieces.entries.filter fun e => e.2.kind ∈ structureKinds ∧ tileOf e.2 = some t) =
      (structureOnTile s t structureKinds).toList := by
    refine filter_lone s.pieces.nodup_entries fun a ha b hb' hpa hpb => ?_
    rw [decide_eq_true_eq] at hpa hpb
    have hida := OrderedMap.mem_entries.mp ha
    have hidb := OrderedMap.mem_entries.mp hb'
    have hid : a.1 = b.1 := hb.lone _ _ _ _ hida hidb hpa.1 hpb.1 (hpa.2.trans hpb.2.symm)
    rw [hid, hidb, Option.some.injEq] at hida
    exact Prod.ext hid hida.symm
  rw [← hlone, htile, piecesByTileId_eq s ht, List.filter_map, List.filter_filter]
  congr 1
  refine List.filter_congr fun e he => ?_
  rw [Bool.eq_iff_iff]
  simp only [Function.comp_apply, tilepiece_defense, Bool.and_eq_true, decide_eq_true_eq]

/-- The multipliers the fight uses on a tile. -/
def tileEffects (s : KState R) (t : TileId) : List StructureEffect :=
  (structureOnTile s t structureKinds).toList.map fun d =>
    ⟨((structureStats d.2.kind).map StructureDef.defenseMultiplier).getD 1⟩

/-- The maximum over the structures and their product are the one structure's multiplier. -/
theorem structure_mult (s : KState R) (t : TileId) :
    ((structureOnTile s t structureKinds).toList.map fun e => tilepiece e.2).foldl
        (fun best s => max best (structureDefenseMult s.kind)) 1 =
      defenseProduct (tileEffects s t) := by
  unfold tileEffects
  cases h : structureOnTile s t structureKinds with
  | none => simp [defenseProduct]
  | some d =>
    have hk := (structureOnTile_some h).2.1
    have hkind : (tilepiece d.2).kind = d.2.kind := rfl
    simp only [Option.toList_some, List.map_cons, List.map_nil, List.foldl_cons,
      List.foldl_nil, hkind, structureDefenseMult_eq hk, defenseProduct, List.prod_cons,
      List.prod_nil, mul_one]

/-! ## The tile -/

theorem tileEffects_nonneg : ∀ e ∈ tileEffects s t, 0 ≤ e.defenseMultiplier := by
  have hall : ∀ k ∈ structureKinds, 0 ≤
      ((structureStats k).map StructureDef.defenseMultiplier).getD 1 := by
    decide +kernel
  intro e he
  obtain ⟨d, hd, rfl⟩ := List.mem_map.mp he
  exact hall _ (structureOnTile_some (Option.mem_toList.mp hd)).2.1

theorem terrainDefenseBonus_nonneg (terrain : String) :
    0 ≤ Kingdoms.terrainDefenseBonus terrain := by
  unfold Kingdoms.terrainDefenseBonus
  split <;> norm_num

end Count

/-! ## Strengths -/

section Strengths

variable [Field R] [LinearOrder R] [FloorRing R] [ExactStrength R] {s : KState R} {f t : TileId}
  {p : PlayerId} {ids : List PieceId}

omit [Field R] [LinearOrder R] [FloorRing R] [ExactStrength R] in
/-- The panel counts the fighters, and adds up their attack values. -/
theorem panel_count (hs : Sound s) (harm : ∀ id q, s.pieces.get? id = some q → Armed q)
    (ht : t ≠ "") {tile : KingdomsTileView} (htile : tile.pieces = piecesByTileId s t)
    (o : PlayerId) (asDefender : Bool) (ids : Option (List PieceId)) :
    (computeStrength tile o asDefender ids : StrengthBreakdown R).count =
        (fighters s ((unitsOf s t o ids).map Prod.fst)).length ∧
      (computeStrength tile o asDefender ids : StrengthBreakdown R).totalAtk =
        attackSum (fighters s ((unitsOf s t o ids).map Prod.fst)) := by
  rw [attackSum_unitsOf harm, fighters_unitsOf]
  simp only [computeStrength, combatUnits_eq hs ht htile, List.length_map, List.foldl_map, true_and]
  rw [List.sum_eq_foldl, List.foldl_map]

theorem strength_eq (tile : KingdomsTileView) (o : PlayerId) (asDefender : Bool)
    (ids : Option (List PieceId)) :
    let b : StrengthBreakdown R := computeStrength tile o asDefender ids
    b.strength = if b.count = 0 then 0
      else (b.totalAtk : R) * sqrt (b.count : R) * (b.terrainBonus : R) *
        (b.structDefMult : R) := by
  simp only [computeStrength, ExactStrength.ofRat_eq, ExactStrength.mul_eq, Rat.cast_zero,
    Rat.cast_natCast]

theorem panel_attackers (hs : Sound s) (harm : ∀ id q, s.pieces.get? id = some q → Armed q)
    (hf : f ≠ "") {tile : KingdomsTileView} (htile : tile.pieces = piecesByTileId s f)
    (hnd : ids.Nodup) (hids : ∀ id ∈ ids, id ∈ unitsOnTile s f (some p) unitKinds)
    {staged : List PieceId} (hstaged : ∀ id, id ∈ staged ↔ id ∈ ids) :
    let b : StrengthBreakdown R := computeStrength tile p false (some staged)
    b.count = (fighters s ids).length ∧
    b.strength = Boardgame.computeStrength (fighters s ids) := by
  have hperm : (fighters s ((unitsOf s f p (some staged)).map Prod.fst)).Perm (fighters s ids) :=
    (chosen_perm hnd hids hstaged).filterMap _
  obtain ⟨hcount, htotal⟩ := panel_count (R := R) hs harm hf htile p false (some staged)
  rw [hperm.length_eq] at hcount
  have hsum : attackSum (fighters s ((unitsOf s f p (some staged)).map Prod.fst)) =
      attackSum (fighters s ids) :=
    (hperm.map _).sum_eq
  rw [hsum] at htotal
  refine ⟨hcount, ?_⟩
  have hone : (computeStrength tile p false (some staged) : StrengthBreakdown R).terrainBonus = 1 ∧
      (computeStrength tile p false (some staged) : StrengthBreakdown R).structDefMult = 1 :=
      ⟨rfl, rfl⟩
  rw [strength_eq, hcount, htotal, hone.1, hone.2, computeStrength_eq, Rat.cast_one,
    mul_one, mul_one]
  simp only [List.length_eq_zero_iff]

theorem panel_defenders (hs : Sound s) (hb : Board s)
    (harm : ∀ id q, s.pieces.get? id = some q → Armed q) (ht : t ≠ "") {tile : KingdomsTileView}
    (htile : tile.pieces = piecesByTileId s t) {o : PlayerId}
    (ho : s.extras.ownership.get? t = some o) :
    let b : StrengthBreakdown R := computeStrength tile o true none
    let defenders := fighters s (unitsOnTile s t none unitKinds)
    b.count = defenders.length ∧ b.strength =
      defence defenders ⟨Kingdoms.terrainDefenseBonus tile.terrain⟩ (tileEffects s t) := by
  obtain ⟨hcount, htotal⟩ := panel_count (R := R) hs harm ht htile o true none
  rw [← defenders_eq hb ho] at hcount htotal
  refine ⟨hcount, ?_⟩
  have hterrain : (computeStrength tile o true none : StrengthBreakdown R).terrainBonus =
      Kingdoms.terrainDefenseBonus tile.terrain := rfl
  have hstruct : (computeStrength tile o true none : StrengthBreakdown R).structDefMult =
      defenseProduct (tileEffects s t) := by
    rw [← structure_mult, ← structures_eq hb ht htile]
    rfl
  rw [strength_eq, hcount, htotal, hterrain, hstruct, defence, computeStrength_eq]
  by_cases hnone : fighters s (unitsOnTile s t none unitKinds) = []
  · rw [hnone]
    rfl
  · rw [if_neg (mt List.length_eq_zero_iff.mp hnone), if_neg hnone, if_neg hnone]
    ring

theorem shown_attack (props : AttackPreviewProps) (hs : Sound s)
    (harm : ∀ id q, s.pieces.get? id = some q → Armed q) (hf : f ≠ "")
    (howner : props.selectedTile.owner = some p)
    (hpieces : props.selectedTile.pieces = piecesByTileId s f) (hnd : ids.Nodup)
    (hids : ∀ id ∈ ids, id ∈ unitsOnTile s f (some p) unitKinds) {staged : OrderedMap PieceId Bool}
    (hprops : props.attackUnitIds = some staged) (hstaged : ∀ id, staged.get? id = some true ↔
      id ∈ ids) :
    let b : StrengthBreakdown R := (attackPreview props).atk
    b.count = (fighters s ids).length ∧
    b.strength = Boardgame.computeStrength (fighters s ids) := by
  have hatk : (attackPreview props : AttackPreview R).atk =
      computeStrength props.selectedTile p false (some (stagedIds staged)) := by
    simp only [attackPreview, howner, hprops, Option.getD_some, Option.map_some]
  rw [hatk]
  refine panel_attackers hs harm hf hpieces hnd hids fun id => ?_
  rw [← hstaged, ← OrderedMap.mem_entries]
  simp [stagedIds]

theorem shown_defence (props : AttackPreviewProps) (hs : Sound s) (hb : Board s)
    (harm : ∀ id q, s.pieces.get? id = some q → Armed q) (ht : t ≠ "")
    (hnamed : s.extras.ownership.get? t ≠ some "")
    (howner : props.attackingTile.owner = s.extras.ownership.get? t)
    (hpieces : props.attackingTile.pieces = piecesByTileId s t) :
    let b : StrengthBreakdown R := (attackPreview props).defence
    let defenders := fighters s (unitsOnTile s t none unitKinds)
    b.count = defenders.length ∧ b.strength = defence defenders
      ⟨Kingdoms.terrainDefenseBonus props.attackingTile.terrain⟩ (tileEffects s t) := by
  cases ho : s.extras.ownership.get? t with
  | none =>
    have hnobody : (attackPreview props : AttackPreview R).defence = ⟨0, 0, 1, 1, ofRat 0⟩ := by
      simp only [attackPreview, howner, ho, Option.filter_none]
    rw [hnobody, defenders_none hb ho]
    exact ⟨rfl, by rw [ExactStrength.ofRat_eq, Rat.cast_zero]; rfl⟩
  | some o =>
    have hne : o ≠ "" := fun he => hnamed (by rw [ho, he])
    have hdef : (attackPreview props : AttackPreview R).defence =
        computeStrength props.attackingTile o true none := by
      simp only [attackPreview, howner, ho, Option.filter_some, hne, ne_eq, not_false_eq_true,
        decide_true, if_true]
    rw [hdef]
    exact panel_defenders hs hb harm ht hpieces ho

theorem estimate_eq (m n : ℕ) (a b : R) :
    estimateCasualties m n a b = (decide (n = 0 ∨ b < a), winnerLosses m n a b) := by
  unfold estimateCasualties winnerLosses
  simp only [ExactStrength.ofRat_eq, ExactStrength.mul_eq, ExactStrength.div_eq,
    ExactStrength.floor_eq, ExactStrength.gt_iff, Rat.cast_natCast]
  by_cases hn : n = 0
  · simp [hn]
  · by_cases hwin : b < a
    · simp [hn, hwin]
    · simp [hn, hwin]

end Strengths

/-! ## The preview -/

section Preview

variable [Field R] [LinearOrder R] [IsStrictOrderedRing R] [FloorRing R] [ExactStrength R]

/-- The preview shows what the battle reports. -/
structure Truthful (preview : AttackPreview R) (attackerWins : Bool)
    (attackerStrength defenderStrength : R) (attackerCasualties defenderCasualties : Nat) :
    Prop where
  attacker : preview.atk.strength = attackerStrength
  defender : preview.defence.strength = defenderStrength
  winner : preview.attackerWins = attackerWins
  casualties : preview.casualties = if attackerWins then attackerCasualties else defenderCasualties

/-- **The preview tells the truth**: in every reachable state, for every attack the validator lets
pass, the panel shows the strengths, the winner and the winner's losses the battle reports. -/
theorem preview_true {opts : GameSetupOptions} (hid : (opts.players.map Player.id).Nodup)
    (hseat : (opts.players.map Player.seat).Nodup) {calls : List (KCall R)} {g : KGame R}
    (h : Game.RunFrom (kingdomsScenario R) opts calls g) {a : KAction} {f t : TileId}
    {ids : List PieceId} (ha : a.payload = .attackTile f t (some ids)) (hnd : ids.Nodup)
    (hv : (kingdomsScenario R).validate g.state a = .ok ()) {staged : OrderedMap PieceId Bool}
    (hstaged : ∀ id, staged.get? id = some true ↔ id ∈ ids) (players : List Player)
    (victory : Option VictoryResult) :
    let view := buildKingdomsView g.state players victory
    ∃ selected attacking, view.tiles.find? (·.id = f) = some selected ∧
      view.tiles.find? (·.id = t) = some attacking ∧
      ∃ owner wins as ds al dl evs s', ((kingdomsScenario R).execute a).run g.state =
          .ok (kEvent (actor a.playerId) (.battleResolved f t owner wins as ds al dl) :: evs) s' ∧
        Truthful (attackPreview ⟨selected, attacking, view.players, view, some staged⟩)
          wins as ds al dl := by
  intro view
  obtain ⟨hs, hb, -⟩ := board_reachable hid hseat h
  obtain ⟨harm, hground⟩ := armory_reachable hid hseat h
  set s := g.state
  obtain ⟨hact, -, -⟩ := guard_ok.mp (validate_guard hv)
  set p := s.rounds.turn.activePlayer
  rw [validate_eq, hact, ha] at hv
  have hv' : attackTileValidator s (some p) f t (some ids) = .ok () := hv
  obtain ⟨hf, ht, hadj, -, hforce⟩ := attack_guards hv'
  rw [force_named hv'] at hforce
  have hnamed := target_named hid hseat h hf hadj
  obtain ⟨⟨tf, htf⟩, ⟨tt, htt⟩, hfne, htne⟩ := tiles_named hground hadj
  have hkeyed : ∀ id tile, s.map.tileById id = some tile → tile.id = id := fun id tile hget => by
    rw [hground.map] at hget
    exact (kingdomsMap_tile hget).2.1
  obtain ⟨res, rng', evs, s₂, hfight, -, -, hrun⟩ := attack_run hs hv'
  refine ⟨_, _, view_tile hkeyed players victory htf, view_tile hkeyed players victory htt,
    s.extras.ownership.get? t, res.attackerWins, res.attackerStrength, res.defenderStrength,
    res.attackerLosses.length,
    res.defenderLosses.length, evs, _, by rw [execute_eq, hact, ha]; exact hrun, ?_⟩
  have hfight' : (resolveAttack (fighters s ids) (fighters s (unitsOnTile s t none unitKinds))
      ⟨Kingdoms.terrainDefenseBonus tt.terrain⟩ (tileEffects s t) (some SeededRandom.draw)).run
      s.rng =
        .ok res rng' := by
    rw [fight, force_named hv', htt] at hfight
    exact hfight
  obtain ⟨has, hds, hwins, hlosses⟩ := resolveAttack_report some_draw_inRange
    (fighters_strong harm hforce).nonneg (fighters_strong harm fun id hin => hin).nonneg
    (terrainDefenseBonus_nonneg _) tileEffects_nonneg hfight'
  obtain ⟨hmine, hfpieces⟩ := buildTileView_of (s := s) players (hkeyed f tf htf)
  obtain ⟨htheirs, htpieces⟩ := buildTileView_of (s := s) players (hkeyed t tt htt)
  set props : AttackPreviewProps :=
    ⟨buildTileView s players tf, buildTileView s players tt, view.players, view, some staged⟩
  obtain ⟨hcount, hstrength⟩ :=
    shown_attack props hs harm hfne (hmine.trans hf) hfpieces hnd hforce rfl hstaged
  obtain ⟨hcount', hstrength'⟩ := shown_defence props hs hb harm htne hnamed htheirs htpieces
  have hestimate : ((attackPreview props : AttackPreview R).attackerWins,
      (attackPreview props : AttackPreview R).casualties) =
      estimateCasualties (attackPreview props : AttackPreview R).atk.count
        (attackPreview props : AttackPreview R).defence.count
        (attackPreview props : AttackPreview R).atk.strength
        (attackPreview props : AttackPreview R).defence.strength := rfl
  rw [hcount, hstrength, hcount', hstrength', estimate_eq, Prod.mk.injEq] at hestimate
  refine
    { attacker := hstrength.trans has.symm
      defender := hstrength'.trans hds.symm
      winner := ?_
      casualties := ?_ }
  · rw [hestimate.1, hwins]
    simp only [List.length_eq_zero_iff]
    rfl
  · have hloss :
        ((if res.attackerWins then res.attackerLosses.length else res.defenderLosses.length : ℕ)
          : ℤ) =
        (if res.attackerWins then res.attackerLosses else res.defenderLosses).length := by
      cases res.attackerWins <;> rfl
    rw [hestimate.2, hloss, hlosses]
    rfl

end Preview

/-! ## A fight for three units -/

/-- After the march, `p1` stands before the units of `p2`. -/
def showdown : List (Game.Request KingdomsPayload) :=
  advance ++ [request "p1" (.moveUnit "noble-p1-0" "-3,3"),
    request "p1" (.moveUnit "sp-p1-1" "-3,3")]

def showdownAttack : KAction :=
  { playerId := some "p1", payload := .attackTile "-3,3" "-4,3" (some ["noble-p1-0", "sp-p1-1"]) }

/-- A third unit was staged, and taken back. -/
def showdownStaged : OrderedMap PieceId Bool :=
  .ofEntries [("sp-p1-1", true), ("sp-p1-2", false), ("noble-p1-0", true)]

theorem showdown_true : ∃ r, Game.play (kingdomsScenario ℝ) duel showdown = .ok r ∧
    unitsOnTile r.2.state "-4,3" none unitKinds = ["sp-p2-1", "sp-p2-2", "noble-p2-0"] ∧
      let view := buildKingdomsView r.2.state duel.players none
      ∃ selected attacking, view.tiles.find? (·.id = "-3,3") = some selected ∧
        view.tiles.find? (·.id = "-4,3") = some attacking ∧
        ∃ owner wins as ds al dl evs s', ((kingdomsScenario ℝ).execute showdownAttack).run
          r.2.state =
            .ok
              (kEvent (actor (some "p1")) (.battleResolved "-3,3" "-4,3" owner wins as ds al dl) ::
                evs) s' ∧
          Truthful (attackPreview ⟨selected, attacking, view.players, view, some showdownStaged⟩)
            wins as ds al dl := by
  have hobserved : (Game.play (kingdomsScenario ℝ) duel showdown).toOption.map
      (fun r => ((kingdomsScenario ℝ).validate r.2.state showdownAttack,
        unitsOnTile r.2.state "-4,3" none unitKinds)) =
      some (.ok (), ["sp-p2-1", "sp-p2-2", "noble-p2-0"]) := by decide +kernel
  obtain ⟨r, hr, hrun, hx⟩ := Game.play_observed hobserved
  rw [Prod.mk.injEq] at hx
  have hstaged : ∀ id, showdownStaged.get? id = some true ↔ id ∈ ["noble-p1-0", "sp-p1-1"] := by
    intro id
    rw [← OrderedMap.mem_entries]
    simp [showdownStaged, OrderedMap.entries_ofEntries, or_comm]
  exact ⟨r, hr, hx.2, preview_true (by decide) (by decide) hrun rfl
    (by decide) hx.1 hstaged duel.players none⟩

end MilitaryPanel

end Boardgame.Kingdoms
