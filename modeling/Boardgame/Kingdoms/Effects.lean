import Boardgame.Kingdoms.Scenario

/-!
# Kingdoms.Effects

What an accepted Kingdoms action does, said once. `Effect s p payload events s'` lists, for each of
the seven actions, the guards that held and the state it leaves; `accepted_effect` shows that on a
`Sound` state every accepted action runs to its end with such an effect. The invariants of the
scenario are proved from `Effect` and never look at an executor again.
-/

namespace Boardgame.Kingdoms

variable {R : Type}

/-- What the executors rely on without checking it: the roster, the purses, the ids of pieces. -/
structure Sound (s : KState R) : Prop where
  ids : (s.players.bySeat.map Player.id).Nodup
  seats : SeatSorted s.players.bySeat
  clockwise : s.rounds.turnOrder = .clockwise
  turn : ∃ p ∈ s.players.bySeat, p.isActive = true ∧ p.id = s.rounds.turn.activePlayer
  purses : ∀ p ∈ s.players.bySeat, ∃ inv, s.inventories.get? p.id = some inv
  whole : ∀ id inv, s.inventories.get? id = some inv → inv.Whole
  keyed : ∀ id p, s.pieces.get? id = some p → p.id = id
  named : s.pieces.get? "" = none
  owners : ∀ t o, s.extras.ownership.get? t = some o → o ∈ s.players.bySeat.map Player.id

/-! ## The states actions leave -/

/-- A new piece on the board. -/
def placed (s : KState R) (kind : String) (p : PlayerId) (t : TileId) : KState R :=
  { s with
    extras := { s.extras with nextPieceId := s.extras.nextPieceId + 1 }
    pieces := s.pieces.set (nextId s) (makeUnitFromRegistry kingdomsPieces (nextId s) kind p t) }

def moved (s : KState R) (id : PieceId) (piece : Piece) (t : TileId) : KState R :=
  { s with
    pieces := s.pieces.set id { piece with location := .tile t }
    extras := { s.extras with movedThisTurn := s.extras.movedThisTurn ++ [id] } }

/-- The pieces once the structure of a captured tile has changed hands. -/
def transferred (pieces : OrderedMap PieceId Piece) (defStructure : Option (PieceId × Piece))
    (p : PlayerId) : OrderedMap PieceId Piece :=
  match defStructure with
  | none => pieces
  | some (id, _) =>
    match pieces.get? id with
    | none => pieces
    | some oldPiece => pieces.set id { oldPiece with owner := p }

def captured (s : KState R) (t : TileId) (p : PlayerId) : KState R :=
  setExtras (fun x =>
    { x with tileLoyalty := x.tileLoyalty.erase t, ownership := x.ownership.set t p }) s

def eliminated (s : KState R) (o : PlayerId) (players : PlayerManager) : KState R :=
  { s with
    players
    pieces := s.pieces.filter fun _ piece => piece.owner ≠ o
    extras := { s.extras with ownership := s.extras.ownership.filter fun _ owner => owner ≠ o } }

/-- Who falls in a fight and whether a Noble of the attacker is left standing. -/
structure Battle (s : KState R) (p : PlayerId) (f t : TileId) (ids : Option (List PieceId))
    (losses : List PieceId) (survivor : Option PieceId) : Prop where
  lost : ∀ id ∈ losses, id ∈ attackForce s p f ids ∨ id ∈ unitsOnTile s t none unitKinds
  nobody : survivor = none → ∀ id ∈ attackForce s p f ids,
    (s.pieces.get? id).any (·.kind = "noble") = true → id ∈ losses
  somebody : ∀ n, survivor = some n → n ∈ attackForce s p f ids ∧
    (s.pieces.get? n).any (·.kind = "noble") = true ∧ n ∉ losses ∧
    ∀ id ∈ unitsOnTile s t none unitKinds, id ∈ losses

/-- What follows a fight over tile `t`, from the state `s` it leaves. -/
inductive Aftermath (s : KState R) (p : PlayerId) (t : TileId) (owner : Option PlayerId)
    (defStructure : Option (PieceId × Piece)) : Option PieceId → List (KEvent R) →
    KState R → Prop where
  | repelled : Aftermath s p t owner defStructure none [] s
  | eroded {n : PieceId} : 0 < loyaltyOf s.extras t - loyaltyDamagePerAttack →
      Aftermath s p t owner defStructure (some n)
        [kEvent p (.tileLoyaltyReduced t (loyaltyOf s.extras t - loyaltyDamagePerAttack))]
        (setExtras (fun x => { x with
          tileLoyalty := x.tileLoyalty.set t ⟨loyaltyOf x t - loyaltyDamagePerAttack, p⟩ }) s)
  | occupied {n : PieceId} : loyaltyOf s.extras t - loyaltyDamagePerAttack ≤ 0 →
      owner.getD "" = "" →
      Aftermath s p t owner defStructure (some n) [kEvent p (.tileCaptured t owner)]
      (captured s t p)
  | toppled {n : PieceId} {o : PlayerId} {players : PlayerManager} :
      loyaltyOf s.extras t - loyaltyDamagePerAttack ≤ 0 → owner = some o → o ≠ "" →
      s.extras.capitals.get? o = some t → s.players.eliminate o = .ok players →
      Aftermath s p t owner defStructure (some n)
        [kEvent p (.tileCaptured t owner), { body := .scenario (.playerEliminated o p) }]
        (eliminated (captured s t p) o players)
  | annexed {n : PieceId} {o : PlayerId} :
      loyaltyOf s.extras t - loyaltyDamagePerAttack ≤ 0 → owner = some o → o ≠ "" →
      s.extras.capitals.get? o ≠ some t →
      Aftermath s p t owner defStructure (some n) [kEvent p (.tileCaptured t owner)]
        { captured s t p with pieces := transferred s.pieces defStructure p }

/-- The inventory `p` has after paying `cost`, which it covered. -/
def Paid (s : KState R) (p : PlayerId) (cost : OrderedMap ResourceType ℚ) (inv' : Inventory) :
    Prop :=
  ∃ inv, s.inventories.get? p = some inv ∧ (∀ e ∈ cost.entries, e.2 ≤ inv.get e.1) ∧
    ∀ r, inv'.get r = inv.get r - amountOf cost r

/-- The effect of an accepted action of the active player `p`. -/
inductive Effect (s : KState R) (p : PlayerId) :
    KingdomsPayload → List (KEvent R) → KState R → Prop where
  | recruited {t : TileId} {k : String} {d : PieceKindDefinition} {inv' : Inventory} :
      k ∈ unitKinds → kingdomsPieces.get? k = some d → s.extras.ownership.get? t = some p →
      limitReached d (countPlayerPiecesOfKind s p k) = false →
      Paid s p (effectiveCost s p k d) inv' →
      Effect s p (.recruitUnit t k) [kEvent p (.unitRecruited (nextId s) k t)]
        (placed (s.setInventory p inv') k p t)
  | built {t : TileId} {k : String} {d : PieceKindDefinition} {inv' : Inventory} :
      k ∈ buildableStructures → kingdomsPieces.get? k = some d →
      s.extras.ownership.get? t = some p →
      structureOnTile s t structureKinds = none →
      limitReached d (countPlayerPiecesOfKind s p k) = false → Paid s p (costOf d) inv' →
      Effect s p (.buildStructure t k) [kEvent p (.structureBuilt (nextId s) k t)]
        (placed (s.setInventory p inv') k p t)
  | demolished {t : TileId} {id : PieceId} {piece : Piece} {inv inv' : Inventory}
      {refund : OrderedMap ResourceType ℚ} :
      structureOnTile s t structureKinds = some (id, piece) → piece.kind ≠ "capital-base" →
      piece.owner = p → s.inventories.get? p = some inv →
      refund = refundOf (((kingdomsPieces.get? piece.kind).map costOf).getD ∅) →
      (∀ r, inv'.get r = inv.get r + amountOf refund r) →
      Effect s p (.demolishStructure t) [kEvent p (.structureDemolished piece.kind t refund)]
        (({ s with pieces := s.pieces.erase id } : KState R).setInventory p inv')
  | moved {id : PieceId} {piece : Piece} {t : TileId} :
      s.pieces.get? id = some piece → piece.owner = p → piece.kind ∈ unitKinds →
      id ∉ s.extras.movedThisTurn → s.extras.ownership.get? t = some p →
      Effect s p (.moveUnit id t) [kEvent p (.unitMoved id (tileOf piece) t)]
        (moved s id piece t)
  | developed {t : TileId} {tile : Tile} {inv inv' : Inventory} :
      s.extras.ownership.get? t = some p → t ∉ s.extras.developed → s.map.tileById t = some tile →
      s.inventories.get? p = some inv → developCost ≤ inv.get "gold" →
      inv' = inv.put "gold" (inv.get "gold" - developCost) →
      Effect s p (.developTile t) [kEvent p (.tileDeveloped t developCost (effectiveResource tile))]
        (setExtras (fun x => { x with developed := x.developed ++ [t] }) (s.setInventory p inv'))
  | attacked {f t : TileId} {ids : Option (List PieceId)} {losses : List PieceId}
      {survivor : Option PieceId} {rng : SeededRandom} {battle : KingdomsEvent R}
      {aftermath : List (KEvent R)} {s₂ : KState R} :
      s.extras.ownership.get? f = some p → s.extras.ownership.get? t ≠ some p →
      isAdjacent s.map f t = true → s.extras.attackedFrom = [] →
      (∀ id ∈ attackForce s p f ids, id ∈ unitsOnTile s f (some p) unitKinds) →
      (∃ w x y m n, battle = .battleResolved f t (s.extras.ownership.get? t) w x y m n) →
      Battle s p f t ids losses survivor →
      Aftermath { s with pieces := s.pieces.eraseAll losses, rng } p t (s.extras.ownership.get? t)
        (structureOnTile s t structureKinds) survivor aftermath s₂ →
      Effect s p (.attackTile f t ids) (kEvent p battle :: aftermath)
        (setExtras (fun x => { x with attackedFrom := [f] }) s₂)
  | turned {q : PlayerId} {rounds : RoundManager} :
      s.rounds.endTurn s.players.all "command" = .ok (⟨q, false⟩, rounds) →
      Effect s p .endTurn [kEvent p (.turnEnded q false rounds.round)]
        (setExtras (fun x => { x with movedThisTurn := [], attackedFrom := [] }) { s with rounds })
  | wrapped {q : PlayerId} {rounds : RoundManager} {invs : OrderedMap PlayerId Inventory}
      {s₁ : KState R} :
      s.rounds.endTurn s.players.all "command" = .ok (⟨q, true⟩, rounds) →
      s₁ = setExtras (fun x => { x with movedThisTurn := [], attackedFrom := [] })
      { s with rounds } →
      (∀ id, id ∉ s.players.active.map Player.id → invs.get? id = s.inventories.get? id) →
      (∀ pl ∈ s.players.active, ∀ inv, s.inventories.get? pl.id = some inv →
        ∃ inv', invs.get? pl.id = some inv' ∧ inv'.get = cycleCount s₁ pl.id inv) →
      Effect s p .endTurn (kEvent p (.turnEnded q true rounds.round) :: roundEndEvents s₁)
        (setExtras (fun x => { x with tileLoyalty := recoverLoyalty x.tileLoyalty })
          { s₁ with inventories := invs })

/-! ## The effect of each executor -/

section Executors

variable {s : KState R} {p : PlayerId}

theorem checkCost_paid {cost : OrderedMap ResourceType ℚ} {inv : Inventory}
    (hinv : s.inventories.get? p = some inv)
    (h : checkCost (s.inventories.get? p) cost.entries = .ok ()) :
    ∀ e ∈ cost.entries, e.2 ≤ inv.get e.1 := by
  intro e he
  simpa [stockOf, hinv] using checkCost_ok.mp h e he

theorem nobleCost_whole (n : Nat) : ∀ e ∈ (nobleCost n).entries, ∃ k : ℕ, e.2 = k := by
  have hpos : (0 : ℚ) ≤ 8 * (17 / 10) ^ (n - 1) := by positivity
  have hent : (nobleCost n).entries =
      [("gold", (⌈(8 : ℚ) * (17 / 10) ^ (n - 1)⌉ : ℚ)), ("iron", 1), ("food", 1)] := rfl
  rw [hent]
  intro e he
  simp only [List.mem_cons, List.not_mem_nil, or_false] at he
  rcases he with rfl | rfl | rfl
  · have h0 : (0 : ℚ) ≤ (⌈(8 : ℚ) * (17 / 10) ^ (n - 1)⌉ : ℚ) := by
      exact_mod_cast Int.ceil_nonneg hpos
    exact natural_of_int h0 ⟨_, rfl⟩
  · exact ⟨1, by simp⟩
  · exact ⟨1, by simp⟩

theorem effectiveCost_whole {k : String} {d : PieceKindDefinition}
    (hd : kingdomsPieces.get? k = some d) :
    ∀ e ∈ (effectiveCost s p k d).entries, ∃ n : ℕ, e.2 = n := by
  intro e he
  unfold effectiveCost at he
  split at he
  · exact nobleCost_whole _ e he
  · exact cost_whole hd he

theorem payAll_paid {cost : OrderedMap ResourceType ℚ} (hw : ∀ e ∈ cost.entries, ∃ n : ℕ, e.2 = n)
    {inv : Inventory} (hinv : s.inventories.get? p = some inv)
    (hle : ∀ e ∈ cost.entries, e.2 ≤ inv.get e.1) :
    ∃ inv', (payAll p cost).run s = .ok () (s.setInventory p inv') ∧ Paid s p cost inv' := by
  obtain ⟨inv', hrun, hget⟩ := payAll_run p
    (fun e he => by obtain ⟨n, hn⟩ := hw e he; rw [hn]; exact Nat.cast_nonneg n) hinv hle
  exact ⟨inv', hrun, inv, hinv, hle, hget⟩

theorem placeNew_run (k : String) (t : TileId) :
    (placeNew k p t).run s = .ok (nextId s) (placed s k p t) := rfl

theorem recruit_effect (hs : Sound s) {t : TileId} {k : String}
    (hp : p ∈ s.players.bySeat.map Player.id)
    (hv : recruitUnitValidator s (some p) t k = .ok ()) :
    ∃ evs s', (recruitUnitExecutor p t k).run s = .ok evs s' ∧
      Effect s p (.recruitUnit t k) evs s' := by
  simp only [recruitUnitValidator, Eff.except_seq_eq_ok, rejectIf_eq_ok, orThrow_bind_ok, not_not,
    ne_eq] at hv
  simp only [actor_some] at hv
  obtain ⟨_, hk, ho, _, _, d, hd, hl, hc, _⟩ := hv
  obtain ⟨pl, hpl, rfl⟩ := List.mem_map.mp hp
  obtain ⟨inv, hinv⟩ := hs.purses pl hpl
  have hd' : kingdomsPieces.get? k = some d := by
    obtain ⟨d', hd', hget⟩ := require_ok (List.mem_append_right _ hk)
    rw [hd', Except.ok.injEq] at hd
    rw [← hd, hget]
  obtain ⟨inv', hpay, hpaid⟩ := payAll_paid (effectiveCost_whole hd') hinv (checkCost_paid hinv hc)
  refine ⟨_, _, ?_, .recruited hk hd' ho (by simpa using hl) hpaid⟩
  rw [recruitUnitExecutor, hd]
  simp only [EStateM.run_bind, Eff.liftExcept_ok, EStateM.run_get, hpay, placeNew_run,
    EStateM.run_pure]
  rfl

theorem build_effect (hs : Sound s) {t : TileId} {k : String}
    (hp : p ∈ s.players.bySeat.map Player.id)
    (hv : buildStructureValidator s (some p) t k = .ok ()) :
    ∃ evs s', (buildStructureExecutor p t k).run s = .ok evs s' ∧
      Effect s p (.buildStructure t k) evs s' := by
  simp only [buildStructureValidator, Eff.except_seq_eq_ok, rejectIf_eq_ok,
    orThrow_bind_ok, not_not, ne_eq] at hv
  simp only [actor_some] at hv
  obtain ⟨_, hk, ho, _, hfree, d, hd, hl, hc⟩ := hv
  obtain ⟨pl, hpl, rfl⟩ := List.mem_map.mp hp
  obtain ⟨inv, hinv⟩ := hs.purses pl hpl
  have hd' : kingdomsPieces.get? k = some d := by
    obtain ⟨d', hd', hget⟩ := require_ok (List.mem_append_left _ (buildable_structure hk).1)
    rw [hd', Except.ok.injEq] at hd
    rw [← hd, hget]
  obtain ⟨inv', hpay, hpaid⟩ := payAll_paid (fun e he => cost_whole hd' he) hinv
    (checkCost_paid hinv hc)
  refine ⟨_, _, ?_, .built hk hd' ho hfree (by simpa using hl) hpaid⟩
  rw [buildStructureExecutor, hd]
  simp only [EStateM.run_bind, Eff.liftExcept_ok, hpay, placeNew_run, EStateM.run_pure]
  rfl

theorem refundOf_nonneg (cost : OrderedMap ResourceType ℚ) :
    ∀ e ∈ (refundOf cost).entries, 0 ≤ e.2 := by
  intro e he
  simp only [refundOf, OrderedMap.filter, List.mem_filter, decide_eq_true_eq] at he
  exact he.2.le

theorem refundOf_whole (cost : OrderedMap ResourceType ℚ) :
    ∀ e ∈ (refundOf cost).entries, ∃ n : ℕ, e.2 = n := by
  intro e he
  refine natural_of_int (refundOf_nonneg cost e he) ?_
  simp only [refundOf, OrderedMap.filter, OrderedMap.mapValues, List.mem_filter, List.mem_map] at he
  obtain ⟨⟨e', _, rfl⟩, _⟩ := he
  exact ⟨_, rfl⟩

theorem demolish_effect (hs : Sound s) {t : TileId}
    (hp : p ∈ s.players.bySeat.map Player.id)
    (hv : demolishStructureValidator s (some p) t = .ok ()) :
    ∃ evs s', (demolishStructureExecutor p t).run s = .ok evs s' ∧
      Effect s p (.demolishStructure t) evs s' := by
  simp only [demolishStructureValidator, Eff.except_seq_eq_ok, rejectIf_eq_ok, orReject_bind_ok,
    not_not, Prod.exists, ne_eq, Option.some.injEq] at hv
  obtain ⟨_, _, id, piece, hst, hcap, hown⟩ := hv
  obtain ⟨pl, hpl, rfl⟩ := List.mem_map.mp hp
  obtain ⟨inv, hinv⟩ := hs.purses pl hpl
  obtain ⟨inv', hrun, hget⟩ := creditAll_run pl.id
    (s := ({ s with pieces := s.pieces.erase id } : KState R)) (refundOf_nonneg
      (((kingdomsPieces.get? piece.kind).map costOf).getD ∅)) hinv
  refine ⟨_, _, ?_, .demolished hst hcap hown hinv rfl hget⟩
  simp only [demolishStructureExecutor, EStateM.run_bind, EStateM.run_get, hst,
    EStateM.run_set, hrun, EStateM.run_pure]

theorem move_effect {id : PieceId} {t : TileId} (hv : moveUnitValidator s (some p) id t = .ok ()) :
    ∃ evs s', (moveUnitExecutor p id t).run s = .ok evs s' ∧
      Effect s p (.moveUnit id t) evs s' := by
  simp only [moveUnitValidator, Eff.except_seq_eq_ok, rejectIf_eq_ok, orReject_bind_ok, not_not,
    Option.filter_eq_some_iff, decide_eq_true_eq, Option.some.injEq, ne_eq] at hv
  obtain ⟨_, piece, ⟨hget, hown⟩, hk, hm, _, ho, _⟩ := hv
  refine ⟨_, _, ?_, .moved hget hown hk hm ho⟩
  simp only [moveUnitExecutor, EStateM.run_bind, pieceAt_run hget, EStateM.run_modify,
    EStateM.run_pure]
  rfl

theorem develop_effect (hs : Sound s) {t : TileId} (hp : p ∈ s.players.bySeat.map Player.id)
    (hv : developTileValidator s (some p) t = .ok ()) :
    ∃ evs s', (developTileExecutor p t).run s = .ok evs s' ∧
      Effect s p (.developTile t) evs s' := by
  simp only [developTileValidator, Eff.except_seq_eq_ok, rejectIf_eq_ok, orReject_bind_ok,
    not_not, ne_eq, not_lt] at hv
  simp only [actor_some] at hv
  obtain ⟨_, ho, _, hdev, tile, ht, _, hg⟩ := hv
  obtain ⟨pl, hpl, rfl⟩ := List.mem_map.mp hp
  obtain ⟨inv, hinv⟩ := hs.purses pl hpl
  have hg' : developCost ≤ inv.get "gold" := by simpa [stockOf, hinv] using hg
  have hrun := removeFrom_run hinv (by decide +kernel : (0 : ℚ) ≤ developCost) hg'
  refine ⟨_, _, ?_, .developed ho hdev ht hinv hg' rfl⟩
  simp only [developTileExecutor, EStateM.run_bind, hrun, EStateM.run_modify, EStateM.run_get]
  have hmap : (setExtras (fun x => { x with developed := x.developed ++ [t] })
      (s.setInventory pl.id (inv.put "gold" (inv.get "gold" - developCost)))).map.tileById t =
      some tile := ht
  rw [hmap]
  rfl

/-! ### The attack -/

theorem combatantOf_id (hs : Sound s) {id : PieceId} {piece : Piece}
    (h : s.pieces.get? id = some piece) : (combatantOf id piece).id = id := by
  unfold combatantOf pieceAsCombatant
  cases piece.stats.bind (·.get? "attack") with
  | none => rfl
  | some q => exact hs.keyed id piece h

/-- The units `ids` as combatants. -/
def fighters (s : KState R) (ids : List PieceId) : List Combatant :=
  ids.filterMap fun id => (s.pieces.get? id).map (combatantOf id)

theorem muster_run (ids : List PieceId) (h : ∀ id ∈ ids, ∃ piece, s.pieces.get? id = some piece) :
    (muster ids).run s = .ok (fighters s ids) s := by
  induction ids with
  | nil => rfl
  | cons id ids ih =>
    obtain ⟨piece, hp⟩ := h id (by simp)
    have hone : (do
        let piece ← pieceAt id
        return [combatantOf id piece] : KExec R (List Combatant)).run s =
          .ok [combatantOf id piece] s := by
      rw [Eff.bind_ok (pieceAt_run hp), EStateM.run_pure]
    rw [muster, Eff.collect, Eff.bind_ok hone, ← muster,
      Eff.bind_ok (ih fun i hi => h i (by simp [hi])), EStateM.run_pure]
    simp [fighters, hp]

theorem fighters_ids (hs : Sound s) (ids : List PieceId)
    (h : ∀ id ∈ ids, ∃ piece, s.pieces.get? id = some piece) :
    (fighters s ids).map Combatant.id = ids := by
  induction ids with
  | nil => rfl
  | cons id ids ih =>
    obtain ⟨piece, hp⟩ := h id (by simp)
    have hrest := ih fun i hi => h i (by simp [hi])
    rw [fighters, List.filterMap_cons_some (by rw [hp]; rfl), List.map_cons, combatantOf_id hs hp,
      ← fighters, hrest]

theorem onRng_run {α : Type} {x : EStateM JsError SeededRandom α} {a : α} {rng : SeededRandom}
    (h : x.run s.rng = .ok a rng) : (onRng x).run s = .ok a { s with rng } := Eff.zoom_ok h

/-- What an accepted attack has been checked for. -/
theorem attack_guards {f t : TileId} {ids : Option (List PieceId)}
    (hv : attackTileValidator s (some p) f t ids = .ok ()) :
    s.extras.ownership.get? f = some p ∧ s.extras.ownership.get? t ≠ some p ∧
      isAdjacent s.map f t = true ∧ s.extras.attackedFrom = [] ∧
      ∀ id ∈ attackForce s p f ids, id ∈ unitsOnTile s f (some p) unitKinds := by
  simp only [attackTileValidator, Eff.except_seq_eq_ok, rejectIf_eq_ok, not_not, ne_eq,
    Bool.not_eq_false, not_lt, Nat.le_zero, List.length_eq_zero_iff] at hv
  obtain ⟨_, hf, _, ht, hadj, _, hfirst, hids⟩ := hv
  refine ⟨hf, ht, hadj, hfirst, ?_⟩
  cases ids with
  | none => exact fun id hid => hid
  | some ids =>
    simp only [Eff.except_seq_eq_ok, rejectIf_eq_ok, not_exists, not_and, not_not] at hids
    cases ids with
    | nil => exact fun id hid => hid
    | cons i ids => exact fun id hid => hids.2.1 id hid

theorem force_named {f t : TileId} {ids : List PieceId}
    (hv : attackTileValidator s (some p) f t (some ids) = .ok ()) :
    attackForce s p f (some ids) = ids := by
  simp only [attackTileValidator, Eff.except_seq_eq_ok, rejectIf_eq_ok] at hv
  obtain ⟨_, _, _, _, _, _, _, hsome, _⟩ := hv
  cases ids with
  | nil => exact absurd rfl hsome
  | cons id ids => rfl

/-- Nobody stands on two tiles: no attacker is among the defenders. -/
theorem force_not_defender {f t : TileId} (hf : s.extras.ownership.get? f = some p)
    (ht : s.extras.ownership.get? t ≠ some p) {id : PieceId}
    (hid : id ∈ unitsOnTile s f (some p) unitKinds) : id ∉ unitsOnTile s t none unitKinds := by
  intro hd
  obtain ⟨piece, hp, _, hpf, _⟩ := mem_unitsOnTile.mp hid
  obtain ⟨piece', hp', _, hpt, _⟩ := mem_unitsOnTile.mp hd
  rw [hp, Option.some.injEq] at hp'
  subst hp'
  rw [hpf, Option.some.injEq] at hpt
  exact ht (hpt ▸ hf)

theorem battle_spec (hs : Sound s) {f t : TileId} {ids : Option (List PieceId)}
    (hf : s.extras.ownership.get? f = some p) (ht : s.extras.ownership.get? t ≠ some p)
    (hforce : ∀ id ∈ attackForce s p f ids, id ∈ unitsOnTile s f (some p) unitKinds)
    {aLosses dLosses : List PieceId} {wins : Bool}
    (ha : ∀ id ∈ aLosses, id ∈ attackForce s p f ids)
    (hd : ∀ id ∈ dLosses, id ∈ unitsOnTile s t none unitKinds)
    (hwin : wins = true → dLosses = unitsOnTile s t none unitKinds)
    (hlose : wins = false → aLosses = attackForce s p f ids) :
    ∃ survivor, Battle s p f t ids (dLosses ++ aLosses) survivor ∧
      survivor = (attackForce s p f ids).find? (fun id =>
        (s.pieces.get? id).any (·.kind = "noble") ∧ id ∉ aLosses) ∧
      ∀ n, survivor = some n → n ≠ "" := by
  refine ⟨_, ⟨?_, ?_, ?_⟩, rfl, ?_⟩
  · intro id hid
    rcases List.mem_append.mp hid with h | h
    · exact .inr (hd id h)
    · exact .inl (ha id h)
  · intro hnone id hid hnob
    have := List.find?_eq_none.mp hnone id hid
    simp only [decide_eq_true_eq, not_and, not_not] at this
    exact List.mem_append_right _ (this hnob)
  · intro n hn
    have hmem := List.mem_of_find?_eq_some hn
    have hpred := List.find?_some hn
    simp only [decide_eq_true_eq] at hpred
    -- a surviving attacker means the attackers were not all lost, so the defenders were
    have hw : wins = true := by
      cases hwins : wins with
      | true => rfl
      | false => exact absurd (hlose hwins ▸ hmem) hpred.2
    refine ⟨hmem, hpred.1, ?_, ?_⟩
    · rw [List.mem_append, not_or]
      exact ⟨fun h => force_not_defender hf ht (hforce n hmem) (hd n h), hpred.2⟩
    · intro id hid
      rw [hwin hw]
      exact List.mem_append_left _ hid
  · rintro n hn rfl
    have hmem := List.mem_of_find?_eq_some hn
    obtain ⟨piece, hp, -⟩ := mem_unitsOnTile.mp (hforce "" hmem)
    rw [hs.named] at hp
    cases hp

theorem captureFallout_run (hid : (s.players.bySeat.map Player.id).Nodup) {t : TileId}
    {owner : Option PlayerId} (howner : ∀ o, owner = some o → o ∈ s.players.bySeat.map Player.id)
    (defStructure : Option (PieceId × Piece)) (n : PieceId)
    (hl : loyaltyOf s.extras t - loyaltyDamagePerAttack ≤ 0) :
    ∃ evs s', (captureFallout p t owner defStructure).run (captured s t p) = .ok evs s' ∧
      Aftermath s p t owner defStructure (some n) (kEvent p (.tileCaptured t owner) :: evs) s' := by
  cases owner with
  | none => exact ⟨[], _, rfl, .occupied hl rfl⟩
  | some o =>
    by_cases ho : o = ""
    · subst ho
      exact ⟨[], _, by simp [captureFallout], .occupied hl rfl⟩
    · by_cases hc : s.extras.capitals.get? o = some t
      · obtain ⟨players, hel⟩ : ∃ players, s.players.eliminate o = .ok players :=
          ⟨_, PlayerManager.eliminate_ok hid (howner o rfl)⟩
        refine ⟨_, _, ?_, .toppled hl rfl ho hc hel⟩
        have hc' : (captured s t p).extras.capitals.get? o = some t := hc
        have hel' : (captured s t p).players.eliminate o = .ok players := hel
        simp only [captureFallout, if_neg ho, EStateM.run_bind, EStateM.run_get, hc', if_true,
          eliminatePlayer, hel', Eff.liftExcept_ok, EStateM.run_set, EStateM.run_pure]
        rfl
      · have hc' : (captured s t p).extras.capitals.get? o ≠ some t := hc
        refine ⟨[], _, ?_, .annexed hl rfl ho hc⟩
        simp only [captureFallout, if_neg ho, EStateM.run_bind, EStateM.run_get, if_neg hc',
          transferStructure, transferred]
        cases defStructure with
        | none => rfl
        | some d =>
          obtain ⟨id, piece⟩ := d
          have hget : (captured s t p).pieces.get? id = s.pieces.get? id := rfl
          simp only [EStateM.run_bind, EStateM.run_get, hget]
          cases s.pieces.get? id with
          | none => rfl
          | some old => rfl

theorem erodeLoyalty_run (hid : (s.players.bySeat.map Player.id).Nodup) {t : TileId}
    {owner : Option PlayerId} (howner : ∀ o, owner = some o → o ∈ s.players.bySeat.map Player.id)
    (defStructure : Option (PieceId × Piece)) (n : PieceId) :
    ∃ evs s', (erodeLoyalty p t owner defStructure).run s = .ok evs s' ∧
      Aftermath s p t owner defStructure (some n) evs s' := by
  by_cases hl : loyaltyOf s.extras t - loyaltyDamagePerAttack ≤ 0
  · obtain ⟨evs, s', hrun, hafter⟩ := captureFallout_run (p := p) hid howner defStructure n hl
    refine ⟨_, s', ?_, hafter⟩
    have hmod : (modify (setExtras fun x =>
        { x with tileLoyalty := x.tileLoyalty.erase t, ownership := x.ownership.set t p }) :
          KExec R Unit).run s = .ok () (captured s t p) := rfl
    simp only [erodeLoyalty, EStateM.run_bind, EStateM.run_get, if_pos hl, hmod, hrun,
      EStateM.run_pure]
  · refine ⟨_, _, ?_, .eroded (not_le.mp hl)⟩
    simp only [erodeLoyalty, EStateM.run_bind, EStateM.run_get, if_neg hl, EStateM.run_modify,
      EStateM.run_pure]
    rfl

/-- The fight of an attack, with the generator of `s`. -/
def fight [Strength R] (s : KState R) (p : PlayerId) (f t : TileId) (ids : Option (List PieceId)) :
    EStateM.Result JsError SeededRandom (CombatResult R) :=
  (resolveAttack (fighters s (attackForce s p f ids)) (fighters s (unitsOnTile s t none unitKinds))
    ⟨((s.map.tileById t).map fun tile => terrainDefenseBonus tile.terrain).getD 1⟩
    ((structureOnTile s t structureKinds).toList.map fun d =>
      ⟨((structureStats d.2.kind).map StructureDef.defenseMultiplier).getD 1⟩)
    (some SeededRandom.draw)).run s.rng

/-- The first Noble of the attackers that is not lost. -/
def survivingNoble (s : KState R) (p : PlayerId) (f : TileId) (ids : Option (List PieceId))
    (losses : List PieceId) : Option PieceId :=
  (attackForce s p f ids).find? fun id => (s.pieces.get? id).any (·.kind = "noble") ∧ id ∉ losses

/-- **What an accepted attack runs to**: the fight, its report, and what follows it. -/
theorem attack_run [Strength R] (hs : Sound s) {f t : TileId} {ids : Option (List PieceId)}
    (hv : attackTileValidator s (some p) f t ids = .ok ()) :
    ∃ res rng' evs s₂, fight s p f t ids = .ok res rng' ∧
      Battle s p f t ids (res.defenderLosses ++ res.attackerLosses)
        (survivingNoble s p f ids res.attackerLosses) ∧
      Aftermath { s with
          pieces := s.pieces.eraseAll (res.defenderLosses ++ res.attackerLosses)
          rng := rng' }
        p t (s.extras.ownership.get? t) (structureOnTile s t structureKinds)
        (survivingNoble s p f ids res.attackerLosses) evs s₂ ∧
      (attackTileExecutor p f t ids).run s =
        .ok (kEvent p (.battleResolved f t (s.extras.ownership.get? t) res.attackerWins
            res.attackerStrength res.defenderStrength res.attackerLosses.length
            res.defenderLosses.length) :: evs)
          (setExtras (fun x => { x with attackedFrom := [f] }) s₂) := by
  obtain ⟨hf, ht, hadj, hfirst, hforce⟩ := attack_guards hv
  have hon : ∀ {k o ks id}, id ∈ unitsOnTile s k o ks → ∃ piece, s.pieces.get? id = some piece :=
    fun hid => by obtain ⟨piece, hp, -⟩ := mem_unitsOnTile.mp hid; exact ⟨piece, hp⟩
  have hatt := muster_run (attackForce s p f ids) fun id hid => hon (hforce id hid)
  have hattid := fighters_ids hs (attackForce s p f ids) fun id hid => hon (hforce id hid)
  have hdef := muster_run (unitsOnTile s t none unitKinds) fun id hid => hon hid
  have hdefid := fighters_ids hs (unitsOnTile s t none unitKinds) fun id hid => hon hid
  obtain ⟨res, rng', hres, -, ha, hd, hwin, hlose⟩ := resolveAttack_spec (R := R) some_draw_inRange
    (fighters s (attackForce s p f ids)) (fighters s (unitsOnTile s t none unitKinds))
    ⟨((s.map.tileById t).map fun tile => terrainDefenseBonus tile.terrain).getD 1⟩
    ((structureOnTile s t structureKinds).toList.map fun d =>
      ⟨((structureStats d.2.kind).map StructureDef.defenseMultiplier).getD 1⟩) s.rng
  rw [hattid] at ha hlose
  rw [hdefid] at hd hwin
  obtain ⟨survivor, hbattle, hsurv, hname⟩ :=
    battle_spec hs hf ht hforce ha.subset hd.subset hwin hlose
  have hsurv' : survivor = survivingNoble s p f ids res.attackerLosses := hsurv
  set s₁ : KState R :=
    { s with pieces := s.pieces.eraseAll (res.defenderLosses ++ res.attackerLosses), rng := rng' }
    with hs₁
  -- whatever the fight leaves, the loyalty step runs from `s₁`
  have hafter : ∃ evs s₂, (siege survivor p t (s.extras.ownership.get? t)
      (structureOnTile s t structureKinds)).run s₁ = .ok evs s₂ ∧
      Aftermath s₁ p t (s.extras.ownership.get? t) (structureOnTile s t structureKinds)
        survivor evs s₂ := by
    cases survivor with
    | none => exact ⟨[], s₁, rfl, .repelled⟩
    | some n =>
      have hn : n ≠ "" := hname n rfl
      simp only [siege, Option.getD_some, if_neg hn]
      exact erodeLoyalty_run (s := s₁) hs.ids (fun o ho => hs.owners t o ho) _ n
  obtain ⟨evs, s₂, hrun₂, hafter⟩ := hafter
  have hfirst₂ : s₂.extras.attackedFrom = [] := by
    cases hafter <;> exact hfirst
  have hrng := onRng_run (s := s) hres
  refine ⟨res, rng', evs, s₂, hres, hsurv' ▸ hbattle, hsurv' ▸ hafter, ?_⟩
  simp only [attackTileExecutor, EStateM.run_bind, EStateM.run_get, hatt, hdef, hrng, ← hsurv,
    EStateM.run_modify, ← hs₁, hrun₂, EStateM.run_pure]
  simp only [setExtras, hfirst₂, List.nil_append]

theorem attack_effect [Strength R] (hs : Sound s) {f t : TileId} {ids : Option (List PieceId)}
    (hv : attackTileValidator s (some p) f t ids = .ok ()) :
    ∃ evs s', (attackTileExecutor p f t ids).run s = .ok evs s' ∧
      Effect s p (.attackTile f t ids) evs s' := by
  obtain ⟨hf, ht, hadj, hfirst, hforce⟩ := attack_guards hv
  obtain ⟨res, rng', evs, s₂, _, hbattle, hafter, hrun⟩ := attack_run hs hv
  exact ⟨_, _, hrun, .attacked hf ht hadj hfirst hforce
    ⟨res.attackerWins, res.attackerStrength, res.defenderStrength, res.attackerLosses.length,
      res.defenderLosses.length, rfl⟩ hbattle hafter⟩

/-! ### The end of a turn -/

theorem active_sublist : s.players.active.Sublist s.players.bySeat := List.filter_sublist

theorem endTurn_effect (hs : Sound s) :
    ∃ evs s', (endTurnExecutor p).run s = .ok evs s' ∧ Effect s p .endTurn evs s' := by
  obtain ⟨pl, hpl, hact, hcur⟩ := hs.turn
  obtain ⟨q, _, _, _, hend⟩ := RoundManager.endTurn_spec hs.seats hs.ids hs.clockwise hpl hact
    hcur.symm "command"
  set rounds : RoundManager :=
    { s.rounds with
      currentRound := if q.seat ≤ pl.seat then s.rounds.currentRound + 1 else s.rounds.currentRound
      currentTurn := ⟨s.rounds.currentTurn.turnNumber + 1, q.id, "command", ∅⟩ } with hrounds
  set s₁ : KState R :=
    setExtras (fun x => { x with movedThisTurn := [], attackedFrom := [] })
      { s with rounds } with hs₁
  have hfresh : ∀ b, b = decide (q.seat ≤ pl.seat) → (endTurnExecutor p).run s =
      (if b = true then do
        let roundEvents ← processRoundEnd
        modify (setExtras fun x => { x with tileLoyalty := recoverLoyalty x.tileLoyalty })
        return kEvent p (.turnEnded q.id b rounds.round) :: roundEvents
      else return [kEvent p (.turnEnded q.id b rounds.round)] : KExec R (List (KEvent R))).run
        s₁ := by
    rintro b rfl
    have hend' : (setExtras (fun x => { x with movedThisTurn := [], attackedFrom := [] })
      s).rounds.endTurn
        (setExtras (fun x => { x with movedThisTurn := [], attackedFrom := [] }) s).players.all
        "command" =
          .ok (⟨q.id, decide (q.seat ≤ pl.seat)⟩, rounds) := hend
    simp only [endTurnExecutor, EStateM.run_bind, EStateM.run_modify, EStateM.run_get, hend',
      Eff.liftExcept_ok, EStateM.run_set]
    rfl
  cases hb : decide (q.seat ≤ pl.seat) with
  | false =>
    rw [hb] at hend
    exact ⟨_, _, by rw [hfresh _ hb.symm]; rfl, .turned hend⟩
  | true =>
    rw [hb] at hend
    have hnd : (s₁.players.active.map Player.id).Nodup := hs.ids.sublist (active_sublist.map _)
    obtain ⟨invs, hround, hout, hin⟩ := processRoundEnd_run (s := s₁) hnd fun pl hpl => by
      obtain ⟨inv, hinv⟩ := hs.purses pl (active_sublist.subset hpl)
      exact ⟨inv, hinv, hs.whole _ _ hinv⟩
    have hcount : ∀ pl ∈ s₁.players.active, ∀ inv, s₁.inventories.get? pl.id = some inv →
        ∃ inv', invs.get? pl.id = some inv' ∧ inv'.get = cycleCount s₁ pl.id inv := by
      intro pl hpl inv hinv
      obtain ⟨inv', hget, hcount, -⟩ := hin pl hpl inv hinv
      exact ⟨inv', hget, hcount⟩
    refine ⟨_, _, ?_, .wrapped hend hs₁ hout hcount⟩
    rw [hfresh _ hb.symm, if_pos rfl, Eff.bind_ok hround]
    rfl

end Executors

/-- **What an accepted action does.** On a sound state every action its validator lets pass runs to
its end, with the effect its type has. -/
theorem accepted_effect [Strength R] {s : KState R} (hs : Sound s) {a : KAction}
    (hv : (kingdomsScenario R).validate s a = .ok ()) :
    a.playerId = some s.rounds.turn.activePlayer ∧ s.rounds.turn.activePlayer ≠ "" ∧
      ∃ evs s', ((kingdomsScenario R).execute a).run s = .ok evs s' ∧
        Effect s s.rounds.turn.activePlayer a.payload evs s' := by
  obtain ⟨hact, hne, -⟩ := guard_ok.mp (validate_guard hv)
  refine ⟨hact, hne, ?_⟩
  obtain ⟨pl, hpl, -, hcur⟩ := hs.turn
  have hmem : s.rounds.turn.activePlayer ∈ s.players.bySeat.map Player.id :=
    hcur ▸ List.mem_map_of_mem hpl
  rw [validate_eq, hact] at hv
  rw [execute_eq, hact, actor_some]
  cases hp : a.payload <;> rw [hp] at hv
  case recruitUnit t k => exact recruit_effect hs hmem hv
  case moveUnit id t => exact move_effect hv
  case attackTile f t ids => exact attack_effect hs hv
  case buildStructure t k => exact build_effect hs hmem hv
  case demolishStructure t => exact demolish_effect hs hmem hv
  case developTile t => exact develop_effect hs hmem hv
  case endTurn => exact endTurn_effect hs
  case unregistered t => simp [validatePayload] at hv

end Boardgame.Kingdoms
