import Mathlib.Data.List.Dedup
import Boardgame.Kingdoms.Armory

/-!
# Kingdoms.Muster

The pieces an attack selects. The validator checks each id of the list, but not that the ids differ,
and the executor makes one combatant of each.

* `fought_once_iff`: each selected piece fights once exactly if no id is listed twice.
-/

namespace Boardgame.Kingdoms

variable {p : PlayerId} {f t : TileId} {ids : Option (List PieceId)}

section Pieces

variable {R : Type} {s : KState R}

theorem unitsOnTile_nodup (o : Option PlayerId) (ks : List String) : (unitsOnTile s t o ks).Nodup :=
  s.pieces.nodup.sublist (List.filter_sublist.map _)

theorem fighters_subperm {l l' : List PieceId} (h : l.Subperm l') :
    (fighters s l).Subperm (fighters s l') := by
  obtain ⟨m, hperm, hsub⟩ := h
  exact ⟨_, hperm.filterMap _, hsub.filterMap _⟩

/-- The selected pieces, each once. -/
def selection (s : KState R) (p : PlayerId) (f : TileId) (ids : Option (List PieceId)) :
    List PieceId :=
  (attackForce s p f ids).dedup

/-- Those of `ids` that are not on the board. -/
def gone (s : KState R) (ids : List PieceId) : List PieceId :=
  ids.filter fun id => (s.pieces.get? id).isNone

theorem gone_length {l losses : List PieceId} (hl : l.Nodup) (hlosses : losses.Nodup)
    (hsub : ∀ id ∈ losses, id ∈ l) (hgone : ∀ id ∈ l, s.pieces.get? id = none ↔ id ∈ losses) :
    (gone s l).length = losses.length := by
  refine List.Perm.length_eq ((List.perm_ext_iff_of_nodup (hl.filter _) hlosses).mpr fun id => ?_)
  rw [List.mem_filter, Option.isNone_iff_eq_none]
  constructor
  · rintro ⟨hid, hnone⟩
    exact (hgone id hid).mp hnone
  · intro hid
    exact ⟨hsub id hid, (hgone id (hsub id hid)).mpr hid⟩

variable {s₁ s₂ : KState R} {owner : Option PlayerId} {defStructure : Option (PieceId × Piece)}
  {survivor : Option PieceId} {evs : List (KEvent R)}

theorem Aftermath.stays_gone (h : Aftermath s₁ p t owner defStructure survivor evs s₂)
    {id : PieceId} (hid : s₁.pieces.get? id = none) : s₂.pieces.get? id = none := by
  cases h with
  | repelled | eroded | occupied => exact hid
  | toppled => simp [eliminated, captured, setExtras, OrderedMap.get?_filter, hid]
  | annexed => simp [transferred_get?, hid]

/-- The siege removes no piece of the attacker. -/
theorem Aftermath.stays (h : Aftermath s₁ p t owner defStructure survivor evs s₂)
    (howner : owner ≠ some p) {id : PieceId} {q : Piece} (hq : s₁.pieces.get? id = some q)
    (hp : q.owner = p) :
    s₂.pieces.get? id ≠ none := by
  cases h with
  | repelled | eroded | occupied => exact fun hnone => nomatch hq.symm.trans hnone
  | toppled _ ho _ _ _ =>
    have hne : q.owner ≠ _ := fun h => howner (ho.trans (congrArg some (h.symm.trans hp)))
    simp [eliminated, captured, setExtras, OrderedMap.get?_filter, hq, Option.filter, hne]
  | annexed =>
    simp only [transferred_get?, hq]
    split <;> simp

/-- Attackers that are gone fell in the fight. -/
theorem attackers_gone {losses : List PieceId} {rng : SeededRandom}
    (hf : s.extras.ownership.get? f = some p) (ht : s.extras.ownership.get? t ≠ some p)
    (hforce : ∀ id ∈ attackForce s p f ids, id ∈ unitsOnTile s f (some p) unitKinds)
    {dead : List PieceId} (hdead : ∀ id ∈ dead, id ∈ unitsOnTile s t none unitKinds)
    (hafter : Aftermath { s with pieces := s.pieces.eraseAll (dead ++ losses), rng } p t
      (s.extras.ownership.get? t) defStructure survivor evs s₂) {id : PieceId}
      (hid : id ∈ attackForce s p f ids) :
    s₂.pieces.get? id = none ↔ id ∈ losses := by
  obtain ⟨q, hq, _, _, howner⟩ := mem_unitsOnTile.mp (hforce id hid)
  have hnot : id ∉ dead := fun h => force_not_defender hf ht (hforce id hid) (hdead id h)
  constructor
  · intro hnone
    by_contra hlost
    refine hafter.stays ht (q := q) ?_ ?_ hnone
    · simp [OrderedMap.get?_eraseAll, hnot, hlost, hq]
    · simpa [eq_comm] using howner
  · intro hlost
    refine hafter.stays_gone ?_
    simp [OrderedMap.get?_eraseAll, hlost]

/-- Defenders that are gone fell in the fight: it is lost before the siege can topple them. -/
theorem defenders_gone {losses dead : List PieceId} {rng : SeededRandom} {wins : Bool}
    (hf : s.extras.ownership.get? f = some p) (ht : s.extras.ownership.get? t ≠ some p)
    (hforce : ∀ id ∈ attackForce s p f ids, id ∈ unitsOnTile s f (some p) unitKinds)
    (hlosses : ∀ id ∈ losses, id ∈ attackForce s p f ids)
    (hwon : wins = true → dead = unitsOnTile s t none unitKinds)
    (hheld : wins = false → losses = attackForce s p f ids)
    (hafter : Aftermath { s with pieces := s.pieces.eraseAll (dead ++ losses), rng } p t
      (s.extras.ownership.get? t) defStructure (survivingNoble s p f ids losses) evs s₂)
      {id : PieceId} (hid : id ∈ unitsOnTile s t none unitKinds) : s₂.pieces.get? id = none ↔
      id ∈ dead := by
  constructor
  · intro hnone
    cases wins with
    | true =>
      rw [hwon rfl]
      exact hid
    | false =>
      have hnobody : survivingNoble s p f ids losses = none := by
        rw [hheld rfl]
        exact List.find?_eq_none.mpr fun i hi => by simp [hi]
      rw [hnobody] at hafter
      cases hafter
      obtain ⟨q, hq, -⟩ := mem_unitsOnTile.mp hid
      by_contra hdead
      have hnot : id ∉ losses := fun h => force_not_defender hf ht (hforce id (hlosses id h)) hid
      simp [OrderedMap.get?_eraseAll, hdead, hnot, hq] at hnone
  · intro hdead
    refine hafter.stays_gone ?_
    simp [OrderedMap.get?_eraseAll, hdead]

end Pieces

/-! ## The battle -/

/-- The report `as`, `al`, `dl` of an attack that leaves `s'` counts the selected pieces once
each. -/
structure FoughtOnce (s : KState ℝ) (p : PlayerId) (f t : TileId)
    (ids : Option (List PieceId)) (as : ℝ) (al dl : ℕ) (s' : KState ℝ) : Prop where
  strength : as = computeStrength (fighters s (selection s p f ids))
  bound : as ≤ computeStrength (fighters s (unitsOnTile s f (some p) unitKinds))
  count : (fighters s (attackForce s p f ids)).length ≤ (unitsOnTile s f (some p) unitKinds).length
  attackerCasualties : al = (gone s' (selection s p f ids)).length
  defenderCasualties : dl = (gone s' (unitsOnTile s t none unitKinds)).length

section Once

variable {s : KState ℝ}

theorem fighters_length (hs : Sound s) {l : List PieceId} {o : Option PlayerId}
    (hl : ∀ id ∈ l, id ∈ unitsOnTile s f o unitKinds) : (fighters s l).length = l.length := by
  rw [← List.length_map (f := Combatant.id), fighters_ids hs l fun id hid => ?_]
  obtain ⟨q, hq, -⟩ := mem_unitsOnTile.mp (hl id hid)
  exact ⟨q, hq⟩

/-- A piece listed twice adds strength. -/
theorem selection_weaker (hs : Sound s) (harm : ∀ id q, s.pieces.get? id = some q → Armed q)
    {l : List PieceId} {o : Option PlayerId} (hl : ∀ id ∈ l, id ∈ unitsOnTile s f o unitKinds)
    (hdup : ¬ l.Nodup) :
    (computeStrength (fighters s l.dedup) : ℝ) < computeStrength (fighters s l) := by
  have hsub := List.dedup_sublist l
  have hl' : ∀ id ∈ l.dedup, id ∈ unitsOnTile s f o unitKinds :=
    fun id hid => hl id (List.mem_dedup.mp hid)
  refine strength_lt (fighters_strong harm hl) (fighters_subperm hsub.subperm) ?_
  rw [fighters_length hs hl, fighters_length hs hl']
  refine lt_of_le_of_ne hsub.length_le fun hlen => hdup ?_
  rw [← hsub.eq_of_length hlen]
  exact List.nodup_dedup l

theorem force_nodup (hv : attackTileValidator s (some p) f t ids = .ok ()) :
    (attackForce s p f ids).Nodup ↔ ∀ l, ids = some l → l.Nodup := by
  cases ids with
  | none => exact ⟨fun _ l h => (nomatch h), fun _ => unitsOnTile_nodup _ _⟩
  | some l => simp [force_named hv]

/-- The attack fights with each selected piece once if and only if no id is listed twice. -/
theorem attackTile_once_iff (hs : Sound s) (harm : ∀ id q, s.pieces.get? id = some q → Armed q)
    (hv : attackTileValidator s (some p) f t ids = .ok ()) :
    ∃ owner wins as ds al dl evs s', (attackTileExecutor p f t ids).run s =
        .ok (kEvent p (.battleResolved f t owner wins as ds al dl) :: evs) s' ∧
      as = computeStrength (fighters s (attackForce s p f ids)) ∧
      (FoughtOnce s p f t ids as al dl s' ↔ ∀ l, ids = some l → l.Nodup) := by
  obtain ⟨hf, ht, -, -, hforce⟩ := attack_guards hv
  obtain ⟨res, rng', evs, s₂, hfight, -, hafter, hrun⟩ := attack_run (R := ℝ) hs hv
  have hon : ∀ {l : List PieceId} {u : TileId} {o : Option PlayerId},
      (∀ id ∈ l, id ∈ unitsOnTile s u o unitKinds) → (fighters s l).map Combatant.id = l := fun h =>
    fighters_ids hs _ fun id hid => by
      obtain ⟨q, hq, -⟩ := mem_unitsOnTile.mp (h id hid)
      exact ⟨q, hq⟩
  obtain ⟨res', g', hfight', has, hal, hdl, hwon, hheld⟩ :=
    resolveAttack_spec (R := ℝ) some_draw_inRange
    (fighters s (attackForce s p f ids)) (fighters s (unitsOnTile s t none unitKinds))
    ⟨((s.map.tileById t).map fun tile => terrainDefenseBonus tile.terrain).getD 1⟩
    ((structureOnTile s t structureKinds).toList.map fun d =>
      ⟨((structureStats d.2.kind).map StructureDef.defenseMultiplier).getD 1⟩) s.rng
  rw [fight, hfight', EStateM.Result.ok.injEq] at hfight
  obtain ⟨rfl, rfl⟩ := hfight
  rw [hon hforce] at hal hheld
  rw [hon fun id hid => hid] at hdl hwon
  refine ⟨_, _, _, _, _, _, _, _, hrun, has, ?_⟩
  rw [← force_nodup hv]
  constructor
  · intro h
    by_contra hdup
    exact (selection_weaker hs harm hforce hdup).ne (h.strength.symm.trans has)
  · intro hnd
    have hsel : selection s p f ids = attackForce s p f ids := hnd.dedup
    have hsub := hnd.subperm hforce
    refine
      { strength := by rw [hsel, has]
        bound := ?_
        count := by rw [fighters_length hs hforce]; exact hsub.length_le
        attackerCasualties := ?_
        defenderCasualties := ?_ }
    · rw [has]
      exact strength_le (fighters_strong harm fun id hid => hid) (fighters_subperm hsub)
    · rw [hsel]
      exact (gone_length hnd (nodup_of_subperm hal hnd) hal.subset fun id hid =>
        attackers_gone hf ht hforce hdl.subset hafter hid).symm
    · have hnd' := unitsOnTile_nodup (s := s) (t := t) none unitKinds
      exact (gone_length hnd' (nodup_of_subperm hdl hnd') hdl.subset fun id hid =>
        defenders_gone hf ht hforce hal.subset hwon hheld hafter hid).symm

theorem attack_once_iff (hs : Sound s) (harm : ∀ id q, s.pieces.get? id = some q → Armed q)
    {a : KAction} (ha : a.payload = .attackTile f t ids)
    (hv : (kingdomsScenario ℝ).validate s a = .ok ()) :
    ∃ owner wins as ds al dl evs s', ((kingdomsScenario ℝ).execute a).run s =
        .ok (kEvent (actor a.playerId) (.battleResolved f t owner wins as ds al dl) :: evs) s' ∧
      as = computeStrength (fighters s (attackForce s (actor a.playerId) f ids)) ∧
      (FoughtOnce s (actor a.playerId) f t ids as al dl s' ↔ ∀ l, ids = some l → l.Nodup) := by
  obtain ⟨hact, -, -⟩ := guard_ok.mp (validate_guard hv)
  rw [validate_eq, hact, ha] at hv
  rw [execute_eq, hact, ha]
  exact attackTile_once_iff hs harm hv

/-- **Selected attackers fight once each** exactly if no id is listed twice: in every reachable
state, for every attack the validator lets pass. The strength is that of the ids as they are
listed. -/
theorem fought_once_iff {opts : GameSetupOptions} (hid : (opts.players.map Player.id).Nodup)
    (hseat : (opts.players.map Player.seat).Nodup) {calls : List (KCall ℝ)} {g : KGame ℝ}
    (h : Game.RunFrom (kingdomsScenario ℝ) opts calls g) {a : KAction}
    (ha : a.payload = .attackTile f t ids) (hv : (kingdomsScenario ℝ).validate g.state a = .ok ()) :
    ∃ owner wins as ds al dl evs s', ((kingdomsScenario ℝ).execute a).run g.state =
        .ok (kEvent (actor a.playerId) (.battleResolved f t owner wins as ds al dl) :: evs) s' ∧
      as = computeStrength (fighters g.state (attackForce g.state (actor a.playerId) f ids)) ∧
      (FoughtOnce g.state (actor a.playerId) f t ids as al dl s' ↔ ∀ l, ids = some l →
        l.Nodup) := by
  obtain ⟨hs, -, -⟩ := board_reachable hid hseat h
  exact attack_once_iff hs (armory_reachable hid hseat h).armed ha hv

end Once

/-! ## One spearman, listed three times -/

def tripled : KAction :=
  { playerId := some "p1"
    payload := .attackTile "4,-4" "3,-4" (some ["sp-p1-1", "sp-p1-1", "sp-p1-1"]) }

theorem fought_once_tripled : ∃ r, Game.play (kingdomsScenario ℝ) duel [.start] = .ok r ∧
    (kingdomsScenario ℝ).validate r.2.state tripled = .ok () ∧
    ∃ owner wins as ds al dl evs s', ((kingdomsScenario ℝ).execute tripled).run r.2.state =
        .ok (kEvent (actor (some "p1")) (.battleResolved "4,-4" "3,-4" owner wins as ds al dl) ::
          evs) s' ∧
      (FoughtOnce r.2.state (actor (some "p1")) "4,-4" "3,-4"
        (some ["sp-p1-1", "sp-p1-1", "sp-p1-1"]) as al dl s' ↔
        ∀ l, some ["sp-p1-1", "sp-p1-1", "sp-p1-1"] = some l → l.Nodup) := by
  have hobserved : (Game.play (kingdomsScenario ℝ) duel [.start]).toOption.map
      (fun r => (kingdomsScenario ℝ).validate r.2.state tripled) = some (.ok ()) := by
        decide +kernel
  obtain ⟨r, hr, hrun, hx⟩ := Game.play_observed hobserved
  obtain ⟨owner, wins, as, ds, al, dl, evs, s', hex, -, hiff⟩ :=
    fought_once_iff (by decide) (by decide) hrun (a := tripled) rfl hx
  exact ⟨r, hr, hx, owner, wins, as, ds, al, dl, evs, s', hex, hiff⟩

/-- Three units stand on the tile, and together they are weaker than the one spearman. -/
theorem tripled_spearman : ∃ r, Game.play (kingdomsScenario ℝ) duel [.start] = .ok r ∧
    (kingdomsScenario ℝ).validate r.2.state tripled = .ok () ∧
    ∃ owner wins as ds al dl evs s', ((kingdomsScenario ℝ).execute tripled).run r.2.state =
        .ok (kEvent "p1" (.battleResolved "4,-4" "3,-4" owner wins as ds al dl) :: evs) s' ∧
      computeStrength (fighters r.2.state (unitsOnTile r.2.state "4,-4" (some "p1") unitKinds)) <
        as ∧
      ¬ FoughtOnce r.2.state "p1" "4,-4" "3,-4" (some ["sp-p1-1", "sp-p1-1", "sp-p1-1"])
        as al dl s' := by
  have hobserved : (Game.play (kingdomsScenario ℝ) duel [.start]).toOption.map
      (fun r => ((kingdomsScenario ℝ).validate r.2.state tripled,
        fighters r.2.state ["sp-p1-1", "sp-p1-1", "sp-p1-1"],
        fighters r.2.state (unitsOnTile r.2.state "4,-4" (some "p1") unitKinds))) =
      some (.ok (), List.replicate 3 ⟨"sp-p1-1", "spearman", 3⟩,
        [⟨"sp-p1-1", "spearman", 3⟩, ⟨"sp-p1-2", "spearman", 3⟩, ⟨"noble-p1-0", "noble", 1⟩]) := by
    decide +kernel
  obtain ⟨r, hr, hrun, hx⟩ := Game.play_observed hobserved
  simp only [Prod.mk.injEq] at hx
  obtain ⟨hv, hlisted, hall⟩ := hx
  obtain ⟨hs, -, -⟩ := board_reachable (by decide) (by decide) hrun
  have harm := (armory_reachable (by decide) (by decide) hrun).armed
  obtain ⟨owner, wins, as, ds, al, dl, evs, s', hex, has, -⟩ :=
    attack_once_iff hs harm (a := tripled) rfl hv
  have hlt : computeStrength (fighters r.2.state
      (unitsOnTile r.2.state "4,-4" (some "p1") unitKinds)) < as := by
    have hforce : attackForce r.2.state (actor tripled.playerId) "4,-4"
        (some ["sp-p1-1", "sp-p1-1", "sp-p1-1"]) =
        ["sp-p1-1", "sp-p1-1", "sp-p1-1"] := rfl
    rw [has, hforce, hlisted, hall, strength_formula, strength_formula]
    norm_num [attackSum]
  exact ⟨r, hr, hv, owner, wins, as, ds, al, dl, evs, s', hex, hlt, fun h =>
    absurd h.bound hlt.not_ge⟩

end Boardgame.Kingdoms
