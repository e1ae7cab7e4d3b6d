import Boardgame.Kingdoms.Moves
import Boardgame.Kingdoms.Muster

/-!
# Kingdoms.Pieces

The pieces of a Kingdoms game over a run: what each accepted action adds, removes and moves.

* `fight_losses`: a fight with distinct units loses distinct units.
* `accounts_step`: one call, in terms of the pieces before and after it.
* `once_per_turn`: within a turn one attack at most, and no unit moves twice.
* `pieces_accounted`: all of it along every run, with ids that nobody had before.
-/

namespace Boardgame.Kingdoms

variable {R : Type} {s s' : KState R} {p : PlayerId}

/-! ## What the pieces go through -/

/-- The casualties that a battle reports, attackers first. -/
def casualties : KingdomsEvent R → Option (Nat × Nat)
  | .battleResolved _ _ _ _ _ _ attackers defenders => some (attackers, defenders)
  | _ => none

/-- One new piece, under an id that no piece has had. -/
def Adds (earlier : List (KGame R)) (g g' : KGame R) (k : String) (t : TileId) : Prop :=
  ∃ q : Piece, q.kind = k ∧ tileOf q = some t ∧ g.state.pieces.get? q.id = none ∧
    (∀ g₀ ∈ earlier, g₀.state.pieces.get? q.id = none) ∧ g'.state.pieces = g.state.pieces.set q.id q

/-- The attackers and the defenders lost are those that are gone, with all pieces of a player who is
eliminated. A piece that is left may have a new owner. -/
structure Fought (g g' : KGame R) (f t : TileId) (ids : Option (List PieceId))
    (lostA lostD : List PieceId) : Prop where
  reported : ∃ battle, (∀ x, Game.Emits g g' x ∧ (casualties x).isSome = true ↔ x = battle) ∧
    casualties battle = some (lostA.length, lostD.length)
  attackers : ∀ id ∈ lostA, id ∈ unitsOnTile g.state f
    (some g.state.rounds.turn.activePlayer) unitKinds
  defenders : ∀ id ∈ lostD, id ∈ unitsOnTile g.state t none unitKinds
  distinct : (∀ l, ids = some l → l.Nodup) → (lostD ++ lostA).Nodup
  gone : ∀ id q, g.state.pieces.get? id = some q → (g'.state.pieces.get? id = none ↔
    id ∈ lostD ++ lostA ∨ ∃ o, Game.Emits g g' (.playerEliminated q.owner o))
  left : ∀ id q', g'.state.pieces.get? id = some q' →
    ∃ q, g.state.pieces.get? id = some q ∧ q' = { q with owner := q'.owner }

/-- What an action that is accepted does to the pieces, and that nothing else does anything to
them. -/
def Accounts (earlier : List (KGame R)) (g g' : KGame R) : Option KingdomsPayload → Prop
  | some (.recruitUnit t k) => Adds earlier g g' k t
  | some (.buildStructure t k) => Adds earlier g g' k t
  | some (.demolishStructure t) =>
    ∃ id q, g.state.pieces.get? id = some q ∧ q.kind ∈ structureKinds ∧
      tileOf q = some t ∧ g'.state.pieces = g.state.pieces.erase id
  | some (.moveUnit id t) => ∃ q, g.state.pieces.get? id = some q ∧
      g'.state.pieces = g.state.pieces.set id { q with location := .tile t }
  | some (.attackTile f t ids) => ∃ lostA lostD, Fought g g' f t ids lostA lostD
  | _ => g'.state.pieces = g.state.pieces

/-! ## A fight -/

section Fight

variable {f t : TileId} {ids : Option (List PieceId)}

theorem fight_losses [Strength R] (hs : Sound s)
    (hforce : ∀ id ∈ attackForce s p f ids, id ∈ unitsOnTile s f (some p) unitKinds)
    {res : CombatResult R} {rng : SeededRandom} (h : fight s p f t ids = .ok res rng) :
    res.attackerLosses.Subperm (attackForce s p f ids) ∧
      res.defenderLosses.Subperm (unitsOnTile s t none unitKinds) := by
  have hon : ∀ {k o ks id}, id ∈ unitsOnTile s k o ks → ∃ piece, s.pieces.get? id = some piece :=
    fun hid => by obtain ⟨piece, hp, -⟩ := mem_unitsOnTile.mp hid; exact ⟨piece, hp⟩
  obtain ⟨res', rng', hres, -, ha, hd, -⟩ := resolveAttack_spec (R := R) some_draw_inRange
    (fighters s (attackForce s p f ids)) (fighters s (unitsOnTile s t none unitKinds))
    ⟨((s.map.tileById t).map fun tile => terrainDefenseBonus tile.terrain).getD 1⟩
    ((structureOnTile s t structureKinds).toList.map fun d =>
      ⟨((structureStats d.2.kind).map StructureDef.defenseMultiplier).getD 1⟩) s.rng
  have hsame : EStateM.Result.ok res' rng' = EStateM.Result.ok res rng := hres.symm.trans h
  cases hsame
  rw [fighters_ids hs _ fun id hid => hon (hforce id hid)] at ha
  rw [fighters_ids hs _ fun id hid => hon hid] at hd
  exact ⟨ha, hd⟩

theorem attackForce_nodup (h : ∀ l, ids = some l → l.Nodup) : (attackForce s p f ids).Nodup := by
  unfold attackForce
  split
  · exact h _ rfl
  · exact unitsOnTile_nodup _ _

/-- No unit is lost twice. -/
theorem losses_nodup [Strength R] (hs : Sound s) (hf : s.extras.ownership.get? f = some p)
    (ht : s.extras.ownership.get? t ≠ some p)
    (hforce : ∀ id ∈ attackForce s p f ids, id ∈ unitsOnTile s f (some p) unitKinds)
    (hids : ∀ l, ids = some l → l.Nodup) {res : CombatResult R} {rng : SeededRandom}
    (h : fight s p f t ids = .ok res rng) : (res.defenderLosses ++ res.attackerLosses).Nodup := by
  obtain ⟨ha, hd⟩ := fight_losses hs hforce h
  refine List.nodup_append.mpr ⟨nodup_of_subperm hd (unitsOnTile_nodup _ _),
    nodup_of_subperm ha (attackForce_nodup hids), fun id hid id' hid' heq => ?_⟩
  exact force_not_defender hf ht (hforce id (ha.subset (heq ▸ hid'))) (hd.subset hid)

/-- What the aftermath leaves of the pieces. -/
theorem Aftermath.pieces {owner : Option PlayerId} {d : Option (PieceId × Piece)}
    {survivor : Option PieceId} {evs : List (KEvent R)}
    (h : Aftermath s p t owner d survivor evs s') :
    (∀ id q, s.pieces.get? id = some q → (s'.pieces.get? id = none ↔
      ∃ o, ∃ e ∈ evs, e.body = .scenario (.playerEliminated q.owner o))) ∧
    (∀ id q', s'.pieces.get? id = some q' → ∃ q, s.pieces.get? id = some q ∧
      q' = { q with owner := q'.owner }) ∧
    ∀ e ∈ evs, ∀ x, e.body = .scenario x → casualties x = none := by
  have hsame : ∀ id q', s.pieces.get? id = some q' →
      ∃ q, s.pieces.get? id = some q ∧ q' = { q with owner := q'.owner } :=
    fun id q' h => ⟨q', h, rfl⟩
  have hstays : ∀ {evs : List (KEvent R)},
      (∀ e ∈ evs, ∀ o o', e.body ≠ .scenario (.playerEliminated o o')) →
      ∀ id q, s.pieces.get? id = some q → (s.pieces.get? id = none ↔
        ∃ o, ∃ e ∈ evs, e.body = .scenario (.playerEliminated q.owner o)) := by
    intro evs hno id q hq
    rw [hq]
    exact iff_of_false nofun fun ⟨o, e, he, hbody⟩ => hno e he _ _ hbody
  cases h with
  | repelled => exact ⟨hstays (by simp), hsame, by simp⟩
  | eroded => exact ⟨hstays (by simp [kEvent]), hsame, by simp [kEvent, casualties]⟩
  | occupied => exact ⟨hstays (by simp [kEvent]), hsame, by simp [kEvent, casualties]⟩
  | @toppled n o players =>
    refine ⟨fun id q hq => ?_, fun id q' hq' => ?_, by simp [kEvent, casualties]⟩
    · simp only [eliminated, captured, setExtras, OrderedMap.get?_filter, hq,
        Option.filter_eq_none_iff,
        Option.some.injEq, forall_eq', decide_eq_true_eq, not_not, ne_eq]
      simp [kEvent, eq_comm]
    · simp only [eliminated, captured, setExtras, OrderedMap.get?_filter,
        Option.filter_eq_some_iff] at hq'
      exact hsame id q' hq'.1
  | annexed =>
    refine ⟨fun id q hq => ?_, fun id q' hq' => ?_, by simp [kEvent, casualties]⟩
    · have hleft : (transferred s.pieces d p).get? id ≠ none := by
        rw [transferred_get?, hq]
        split <;> simp
      exact iff_of_false hleft (by simp [kEvent])
    · simp only [transferred_get?] at hq'
      split at hq'
      · obtain ⟨old, hold, rfl⟩ := Option.map_eq_some_iff.mp hq'
        exact ⟨old, hold, rfl⟩
      · exact hsame id q' hq'

end Fight

/-! ## One call -/

section Call

variable [Strength R] {g g' : KGame R}

theorem fought_step (hs : Sound g.state) {f t : TileId} {ids : Option (List PieceId)}
    (hv : attackTileValidator g.state (some g.state.rounds.turn.activePlayer) f t ids = .ok ())
    {evs tail : List (KEvent R)} {n : Nat}
    (hx : (attackTileExecutor g.state.rounds.turn.activePlayer f t ids).run g.state = .ok evs s')
    (hstate : g'.state.pieces = s'.pieces) (hnew : Game.newEvents g g' = Game.stamp n evs ++ tail)
    (htail : ∀ e ∈ tail, ∃ victory, e.body = .gameEnded victory) :
    ∃ lostA lostD, Fought g g' f t ids lostA lostD := by
  obtain ⟨hf, ht, -, -, hforce⟩ := attack_guards hv
  obtain ⟨res, rng, after, s₂, hfight, -, hafter, hrun⟩ := attack_run hs hv
  rw [hrun] at hx
  cases hx
  obtain ⟨ha, hd⟩ := fight_losses hs hforce hfight
  obtain ⟨hgone, hleft, hquiet⟩ := hafter.pieces
  have hpieces : g'.state.pieces = s₂.pieces := hstate
  refine ⟨res.attackerLosses, res.defenderLosses,
    { reported := ⟨.battleResolved f t (g.state.extras.ownership.get? t) res.attackerWins
        res.attackerStrength res.defenderStrength res.attackerLosses.length
        res.defenderLosses.length, fun x => ?_, rfl⟩
      attackers := fun id hid => hforce id (ha.subset hid)
      defenders := fun id hid => hd.subset hid
      distinct := fun hids => losses_nodup hs hf ht hforce hids hfight
      gone := fun id q hq => ?_
      left := fun id q' hq' => ?_ }⟩
  · rw [Game.emits_iff hnew htail]
    constructor
    · rintro ⟨⟨e, he, hbody⟩, hcas⟩
      rcases List.mem_cons.mp he with rfl | he
      · cases hbody
        rfl
      · rw [hquiet e he x hbody] at hcas
        cases hcas
    · rintro rfl
      exact ⟨⟨_, List.mem_cons_self, rfl⟩, rfl⟩
  · have helim : (∃ o, Game.Emits g g' (.playerEliminated q.owner o)) ↔
        ∃ o, ∃ e ∈ after, e.body = .scenario (.playerEliminated q.owner o) := by
      simp only [Game.emits_iff hnew htail, List.mem_cons, exists_eq_or_imp, kEvent,
        EventBody.scenario.injEq, reduceCtorEq, false_or]
    rw [hpieces, helim]
    by_cases hlost : id ∈ res.defenderLosses ++ res.attackerLosses
    · refine iff_of_true ?_ (.inl hlost)
      cases hstill : s₂.pieces.get? id with
      | none => rfl
      | some q' =>
        obtain ⟨q₀, hq₀, -⟩ := hleft id q' hstill
        rw [OrderedMap.get?_eraseAll, if_pos hlost] at hq₀
        cases hq₀
    · rw [or_iff_right hlost]
      exact hgone id q (by rw [OrderedMap.get?_eraseAll, if_neg hlost, hq])
  · obtain ⟨q, hq, hq'⟩ := hleft id q' (hpieces ▸ hq')
    exact ⟨q, (Board.eraseAll_sub hq).2, hq'⟩

/-- The payload of the action, if it is accepted. -/
def acceptedPayload (r : KRecord R) : Option KingdomsPayload :=
  match r.label with
  | .start => none
  | .submit a _ => if accepts r.before a then some a.payload else none

omit [Strength R] in
theorem Effect.accounts (hb : Board g.state) {earlier : List (KGame R)}
    (hearly : ∀ g₀ ∈ earlier, g₀.state.pieces.get? (nextId g.state) = none)
    {payload : KingdomsPayload} {evs : List (KEvent R)} (h : Effect g.state p payload evs s')
    (hstate : g'.state.pieces = s'.pieces) (hattack : ∀ f t ids, payload ≠ .attackTile f t ids) :
    Accounts earlier g g' (some payload) := by
  have hadds : ∀ {k t}, g'.state.pieces = (placed g.state k p t).pieces → Adds earlier g g' k t :=
    fun {k t} hnew => ⟨makeUnitFromRegistry kingdomsPieces (nextId g.state) k p t, rfl, rfl,
      hb.nextId_free, hearly, hnew⟩
  cases h with
  | attacked => exact absurd rfl (hattack _ _ _)
  | recruited => exact hadds hstate
  | built => exact hadds hstate
  | @demolished t id piece _ _ _ hst =>
    obtain ⟨hget, hkind, htile⟩ := structureOnTile_some hst
    exact ⟨id, piece, hget, hkind, htile, hstate⟩
  | moved hget => exact ⟨_, hget, hstate⟩
  | developed => exact hstate
  | turned => exact hstate
  | wrapped _ hs₁ =>
    subst hs₁
    exact hstate

theorem acceptedPayload_idle {c : KCall R}
    (hno : ∀ a r, c = .submit a r → Game.accepts (kingdomsScenario R) g a = false) :
    acceptedPayload ⟨g, c, g'⟩ = none := by
  cases c with
  | start => rfl
  | submit a r => simp [acceptedPayload, accepts, hno a r rfl]

theorem accounts_step (hs : Sound g.state) (hb : Board g.state) {earlier : List (KGame R)}
    (hearly : ∀ g₀ ∈ earlier, g₀.state.pieces.get? (nextId g.state) = none) {c : KCall R}
    (h : Game.Step (kingdomsScenario R) g c g') :
    Accounts earlier g g' (acceptedPayload ⟨g, c, g'⟩) := by
  cases ran_of_step hs h with
  | idle hno hstate =>
    rw [acceptedPayload_idle hno]
    show g'.state.pieces = g.state.pieces
    rw [hstate]
  | @acted a r _ evs s' status history tail hacc hran hstate hemitted htail =>
    obtain ⟨hv, hx⟩ := hran
    obtain ⟨hact, -, heff⟩ := acted_of_run hs hv hx
    have hpieces : g'.state.pieces = s'.pieces := by rw [hstate]
    have hsome : acceptedPayload ⟨g, .submit a r, g'⟩ = some a.payload := if_pos hacc
    rw [hsome]
    by_cases hattack : ∃ f t ids, a.payload = .attackTile f t ids
    · obtain ⟨f, t, ids, hpay⟩ := hattack
      rw [validate_eq, hpay, hact] at hv
      rw [execute_eq, hpay, hact, actor_some] at hx
      rw [hpay]
      exact fought_step hs hv hx hpieces (Game.newEvents_append hemitted) htail
    · exact heff.accounts hb hearly hpieces fun f t ids hpay => hattack ⟨f, t, ids, hpay⟩

end Call

/-! ## One turn -/

def isAttack : KingdomsPayload → Bool
  | .attackTile .. => true
  | _ => false

def unitMoved : KingdomsPayload → Option PieceId
  | .moveUnit id _ => some id
  | _ => none

/-- One attack at most, and no unit moves twice. -/
structure OncePerTurn (ps : List KingdomsPayload) : Prop where
  attack : (ps.filter isAttack).length ≤ 1
  moves : (ps.filterMap unitMoved).Nodup

/-- The actions keep to what the trackers of the turn leave open. -/
structure Allowed (s : KState R) (ps : List KingdomsPayload) : Prop where
  attack : (ps.filter isAttack).length ≤ if s.extras.attackedFrom = [] then 1 else 0
  moves : (ps.filterMap unitMoved).Nodup
  unmoved : ∀ id ∈ ps.filterMap unitMoved, id ∉ s.extras.movedThisTurn

theorem Allowed.once {ps : List KingdomsPayload} (h : Allowed s ps) : OncePerTurn ps := by
  refine ⟨h.attack.trans ?_, h.moves⟩
  split <;> omega

theorem Allowed.congr {ps : List KingdomsPayload} (h : Allowed s' ps)
    (hattacked : s'.extras.attackedFrom = s.extras.attackedFrom)
    (hmoved : s'.extras.movedThisTurn = s.extras.movedThisTurn) : Allowed s ps :=
  ⟨hattacked ▸ h.attack, h.moves, hmoved ▸ h.unmoved⟩

/-- Other actions are not counted. -/
theorem Allowed.uncounted {ps : List KingdomsPayload} (h : Allowed s ps) {payload : KingdomsPayload}
    (hattack : isAttack payload = false) (hmove : unitMoved payload = none) :
    Allowed s (payload :: ps) := by
  obtain ⟨hone, hmoves, hunmoved⟩ := h
  rw [← List.filter_cons_of_neg (a := payload) (by simp [hattack])] at hone
  rw [← List.filterMap_cons_none (a := payload) hmove] at hmoves hunmoved
  exact ⟨hone, hmoves, hunmoved⟩

theorem Effect.allowed {payload : KingdomsPayload} {evs : List (KEvent R)}
    (h : Effect s p payload evs s') (hturn : payload ≠ .endTurn) {ps : List KingdomsPayload}
    (hps : Allowed s' ps) : Allowed s (payload :: ps) := by
  cases h with
  | recruited | built | demolished | developed =>
    have hps' : Allowed s ps := hps.congr rfl rfl
    exact hps'.uncounted rfl rfl
  | turned => exact absurd rfl hturn
  | wrapped => exact absurd rfl hturn
  | @moved id piece t _ _ _ hfresh =>
    obtain ⟨hattack, hmoves, hunmoved⟩ := hps
    have hnew : ∀ i ∈ ps.filterMap unitMoved, i ∉ s.extras.movedThisTurn ∧ i ≠ id := fun i hi => by
      have h := hunmoved i hi
      rw [Kingdoms.moved, List.mem_append, List.mem_singleton, not_or] at h
      exact h
    refine ⟨hattack, List.nodup_cons.mpr ⟨fun hin => (hnew id hin).2 rfl, hmoves⟩, fun i hi => ?_⟩
    rcases List.mem_cons.mp hi with rfl | hi
    · exact hfresh
    · exact (hnew i hi).1
  | @attacked f t ids _ _ _ _ _ s₂ _ _ _ hfirst _ _ _ hafter =>
    obtain ⟨hattack, hmoves, hunmoved⟩ := hps
    have hmoved : s₂.extras.movedThisTurn = s.extras.movedThisTurn := by cases hafter <;> rfl
    refine ⟨?_, hmoves, fun i hi => hmoved ▸ hunmoved i hi⟩
    have hnone : (ps.filter isAttack).length ≤ 0 := hattack
    rw [if_pos hfirst]
    exact Nat.succ_le_succ hnone

/-- Ids are given out in order. -/
theorem Effect.counter_le {payload : KingdomsPayload} {evs : List (KEvent R)}
    (h : Effect s p payload evs s') :
    s.extras.nextPieceId ≤ s'.extras.nextPieceId := by
  cases h with
  | recruited | built => exact Nat.le_succ _
  | demolished | moved | developed | turned => exact le_rfl
  | attacked _ _ _ _ _ _ _ hafter => cases hafter <;> exact le_rfl
  | wrapped _ hs₁ =>
    subst hs₁
    exact le_rfl

/-! ## Runs -/

section Runs

variable [Strength R] {opts : GameSetupOptions} {g g' : KGame R}

theorem allowed_step (hs : Sound g.state) {c : KCall R} (h : Game.Step (kingdomsScenario R) g c g')
    (hno : acceptedPayload ⟨g, c, g'⟩ ≠ some .endTurn) {ps : List KingdomsPayload}
    (hps : Allowed g'.state ps) :
    Allowed g.state ((acceptedPayload ⟨g, c, g'⟩).toList ++ ps) := by
  cases move_of_step hs h with
  | idle hidle hstate =>
    rw [acceptedPayload_idle hidle]
    exact hps.congr (by rw [hstate]) (by rw [hstate])
  | @acted a r _ evs s' _ _ _ hacc hF hstate =>
    obtain ⟨_, _, heff⟩ := hF
    have hsome : acceptedPayload ⟨g, .submit a r, g'⟩ = some a.payload := if_pos hacc
    rw [hsome] at hno ⊢
    have hps' : Allowed s' ps := hps.congr (by rw [hstate]) (by rw [hstate])
    exact heff.allowed (fun hend => hno (congrArg some hend)) hps'

theorem once_per_turn (hid : (opts.players.map Player.id).Nodup)
    (hseat : (opts.players.map Player.seat).Nodup) {calls : List (KCall R)}
    (h : Game.RunFrom (kingdomsScenario R) opts calls g) {turn : List (KRecord R)}
    (hturn : KRun g turn g') (hno : .endTurn ∉ turn.filterMap acceptedPayload) :
    Allowed g.state (turn.filterMap acceptedPayload) := by
  induction hturn generalizing calls with
  | nil => exact ⟨Nat.zero_le _, List.nodup_nil, by simp⟩
  | @cons g g₁ g' r turn hrec _ ih =>
    obtain ⟨b, c, a⟩ := r
    obtain ⟨rfl, rfl, hstep⟩ := Recorded.step_of hrec
    have hcons : (⟨b, c, a⟩ :: turn : List (KRecord R)).filterMap acceptedPayload =
        (acceptedPayload ⟨b, c, a⟩).toList ++ turn.filterMap acceptedPayload := by
      rw [List.filterMap_cons]
      cases acceptedPayload ⟨b, c, a⟩ <;> rfl
    rw [hcons] at hno ⊢
    refine allowed_step (board_reachable hid hseat h).1 hstep (fun hend => hno ?_)
      (ih (h.snoc hstep) fun hin => hno (List.mem_append_right _ hin))
    rw [hend]
    exact List.mem_append_left _ (List.mem_singleton_self _)

/-- Ids once used are not given out again. -/
theorem earlier_free (hid : (opts.players.map Player.id).Nodup)
    (hseat : (opts.players.map Player.seat).Nodup) {calls : List (KCall R)}
    (h : Game.RunFrom (kingdomsScenario R) opts calls g) {rs : List (KRecord R)}
    (hrs : KRun g rs g') : ∀ r ∈ rs, r.before.state.pieces.get? (nextId g'.state) = none := by
  have hkeep : ∀ (g : KGame R) c g', (∃ calls, Game.RunFrom (kingdomsScenario R) opts calls g) →
      Game.Step (kingdomsScenario R) g c g' →
      ∃ calls, Game.RunFrom (kingdomsScenario R) opts calls g' :=
    fun g c g' ⟨_, hrun⟩ hstep => ⟨_, hrun.snoc hstep⟩
  have hgrow : ∀ (g : KGame R) c g', (∃ calls, Game.RunFrom (kingdomsScenario R) opts calls g) →
      Game.Step (kingdomsScenario R) g c g' →
      g.state.extras.nextPieceId ≤ g'.state.extras.nextPieceId := by
    rintro g c g' ⟨_, hrun⟩ hstep
    cases move_of_step (board_reachable hid hseat hrun).1 hstep with
    | idle _ hstate => rw [hstate]
    | acted _ hF hstate =>
      have hle := hF.2.2.counter_le
      rw [hstate]
      exact hle
  intro r hr
  obtain ⟨⟨_, hrun⟩, -⟩ := Recorded.forall_inv hkeep hrs ⟨_, h⟩ r hr
  have hle := (Recorded.before_le hkeep hgrow hrs ⟨_, h⟩).2 r hr
  cases hget : r.before.state.pieces.get? (nextId g'.state) with
  | none => rfl
  | some q =>
    have := (board_reachable hid hseat hrun).2.1.numbered _ q hget
      (g'.state.extras.nextPieceId + 1) rfl
    omega

/-- **Piece accounting**. In every run, between two accepted ends of a turn one attack at most is
accepted and no unit is moved twice, and every call does to the pieces what `Accounts` says: a
recruit or build adds one under an id that no piece has had, a demolition removes one structure, a
move changes one location, an attack removes its casualties and the pieces of a player it
eliminates, and nothing else changes any. -/
theorem pieces_accounted (hid : (opts.players.map Player.id).Nodup)
    (hseat : (opts.players.map Player.seat).Nodup) {s : KState R}
    (hs : createGameState (kingdomsScenario R) opts = .ok s) {rs : List (KRecord R)}
    (h : KRun (Game.new s) rs g) :
    (∀ turn, turn <:+: rs → .endTurn ∉ turn.filterMap acceptedPayload →
      OncePerTurn (turn.filterMap acceptedPayload)) ∧
    ∀ pre r post, rs = pre ++ r :: post →
      Accounts (pre.map Record.before) r.before r.after (acceptedPayload r) := by
  have hstart : Game.RunFrom (kingdomsScenario R) opts [] (Game.new s) := ⟨s, hs, .nil⟩
  constructor
  · rintro turn ⟨pre, post, rfl⟩ hno
    obtain ⟨_, hmid, -⟩ := Trace.append_iff.mp h
    obtain ⟨_, hpre, hturn⟩ := Trace.append_iff.mp hmid
    exact (once_per_turn hid hseat (hstart.extend hpre) hturn hno).once
  · rintro pre r post rfl
    obtain ⟨g₀, hpre, hrest⟩ := Trace.append_iff.mp h
    obtain ⟨g₁, hrec, -⟩ := Trace.cons_iff.mp hrest
    obtain ⟨b, c, a⟩ := r
    obtain ⟨rfl, rfl, hstep⟩ := Recorded.step_of hrec
    obtain ⟨hsound, hboard, -⟩ := board_reachable hid hseat (hstart.extend hpre)
    refine accounts_step hsound hboard (fun g₀ hg₀ => ?_) hstep
    obtain ⟨r, hr, rfl⟩ := List.mem_map.mp hg₀
    exact earlier_free hid hseat hstart hpre r hr

end Runs

theorem threeHits_accounted : ∃ s rs g, createGameState (kingdomsScenario ℚ) duel = .ok s ∧
    KRun (Game.new s) rs g ∧
    rs.length = threeHits.length ∧
    (∀ turn, turn <:+: rs → .endTurn ∉ turn.filterMap acceptedPayload →
      OncePerTurn (turn.filterMap acceptedPayload)) ∧
    ∀ pre r post, rs = pre ++ r :: post →
      Accounts (pre.map Record.before) r.before r.after (acceptedPayload r) := by
  have hobserved : (createGameState (kingdomsScenario ℚ) duel).toOption.bind (fun s =>
      (film (Game.turn (kingdomsScenario ℚ)) (Game.new s) threeHits).map fun m => m.1.length) =
        some threeHits.length := by decide +kernel
  obtain ⟨s, rs, g, hs, hrun, hlen⟩ := film_observed Game.turn_step hobserved
  exact ⟨s, rs, g, hs, hrun, hlen, pieces_accounted (by decide) (by decide) hs hrun⟩

end Boardgame.Kingdoms
