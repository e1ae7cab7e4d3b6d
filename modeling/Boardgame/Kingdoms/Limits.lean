import Boardgame.Kingdoms.Moves

/-!
# Kingdoms.Limits

How many pieces of a kind a player may have. The limits are tested when a piece is made, and a
captured structure changes hands untested.

* `Effect.within`: every action but an attack keeps the limits.
* `attack_within`: an attack keeps them unless it captures a structure its player has enough of.
* `limits_iff`: the limits hold along a run if and only if no call of it does that.
-/

namespace Boardgame.Kingdoms

variable {R : Type} {s s' : KState R} {p : PlayerId} {payload : KingdomsPayload}
  {evs : List (KEvent R)}

/-- `limitPerPlayer` of a unit or structure kind. -/
def limitOf (k : String) : Option Nat :=
  (kingdomsPieces.get? k).bind PieceKindDefinition.limitPerPlayer

/-- Nobody has more pieces of a kind than its limit. -/
def WithinLimits (s : KState R) : Prop :=
  ∀ p k n, limitOf k = some n → countPlayerPiecesOfKind s p k ≤ n

/-- A piece of kind `k` that `p` owns. -/
def ownedKind (p : PlayerId) (k : String) (q : Piece) : Bool := q.owner = p ∧ q.kind = k

theorem countPlayerPiecesOfKind_eq (s : KState R) (p : PlayerId) (k : String) :
    countPlayerPiecesOfKind s p k = s.pieces.count (ownedKind p k) :=
  List.countP_eq_length_filter.symm

/-- Fewer pieces. -/
theorem WithinLimits.mono (hl : WithinLimits s)
    (h : ∀ p k, s'.pieces.count (ownedKind p k) ≤ s.pieces.count (ownedKind p k)) :
    WithinLimits s' := by
  intro p k n hk
  rw [countPlayerPiecesOfKind_eq]
  refine (h p k).trans ?_
  rw [← countPlayerPiecesOfKind_eq]
  exact hl p k n hk

theorem WithinLimits.congr (hl : WithinLimits s) (h : s'.pieces = s.pieces) : WithinLimits s' :=
  hl.mono fun _ _ => by rw [h]

/-! ## Actions that make, move and remove pieces -/

/-- A new piece of a kind whose limit is not reached. -/
theorem WithinLimits.placed (hl : WithinLimits s) (hb : Board s) {k : String} {t : TileId}
    {d : PieceKindDefinition} (hd : kingdomsPieces.get? k = some d)
    (hroom : limitReached d (countPlayerPiecesOfKind s p k) = false) :
    WithinLimits (placed s k p t) := by
  have hnew : nextId s ∉ s.pieces.keys := OrderedMap.get?_eq_none.mp hb.nextId_free
  intro o k' n hk'
  have hcount : countPlayerPiecesOfKind (Kingdoms.placed s k p t) o k' =
      countPlayerPiecesOfKind s o k' +
      (ownedKind o k' (makeUnitFromRegistry kingdomsPieces (nextId s) k p t)).toNat := by
    rw [countPlayerPiecesOfKind_eq, countPlayerPiecesOfKind_eq, Kingdoms.placed,
      OrderedMap.count_set_new hnew]
  have hle := hl o k' n hk'
  rw [hcount]
  by_cases hsame : p = o ∧ k = k'
  · obtain ⟨rfl, rfl⟩ := hsame
    rw [limitOf, hd, Option.bind_some] at hk'
    have hlt : countPlayerPiecesOfKind s p k < n := by simpa [limitReached, hk'] using hroom
    have := Bool.toNat_le (ownedKind p k (makeUnitFromRegistry kingdomsPieces (nextId s) k p t))
    omega
  · have hno : ownedKind o k' (makeUnitFromRegistry kingdomsPieces (nextId s) k p t) = false := by
      simpa [ownedKind, makeUnitFromRegistry, makeUnit] using hsame
    rw [hno]
    exact hle

theorem Effect.within (hb : Board s) (h : Effect s p payload evs s') (hl : WithinLimits s)
    (hno : ∀ f t ids, payload ≠ .attackTile f t ids) : WithinLimits s' := by
  cases h with
  | recruited _ hd _ hroom => exact (hl.placed hb hd hroom).congr rfl
  | built _ hd _ _ hroom => exact (hl.placed hb hd hroom).congr rfl
  | demolished => exact hl.mono fun _ _ => OrderedMap.count_filter_le _ _ _
  | @moved id piece t hget =>
    refine hl.mono fun o k => ?_
    have hcount := OrderedMap.count_set hget (ownedKind o k) { piece with location := .tile t }
    exact (Nat.add_right_cancel hcount).le
  | developed => exact hl.congr rfl
  | attacked => exact absurd rfl (hno _ _ _)
  | turned => exact hl.congr rfl
  | wrapped _ hs₁ => subst hs₁; exact hl.congr rfl

/-! ## Attacks -/

/-- The attacker has the limit of the kind of the structure on `t`, which is another player's and
not the one of their capital. -/
def Overfull (s : KState R) (p : PlayerId) (t : TileId) : Prop :=
  ∃ id q o n, structureOnTile s t structureKinds = some (id, q) ∧
    s.extras.ownership.get? t = some o ∧
    o ≠ "" ∧ s.extras.capitals.get? o ≠ some t ∧ limitOf q.kind = some n ∧
    n ≤ countPlayerPiecesOfKind s p q.kind

/-- The attack captures its tile: a Noble survives the fight, and one more hit ends the loyalty. -/
def captures [Strength R] (s : KState R) (p : PlayerId) (f t : TileId)
    (ids : Option (List PieceId)) :
    Bool :=
  match fight s p f t ids with
  | .error _ _ => false
  | .ok res _ =>
    loyaltyOf s.extras t ≤ loyaltyDamagePerAttack &&
    (survivingNoble s p f ids res.attackerLosses).isSome

/-- Units fall, structures do not. -/
theorem Battle.lost_unit {f t : TileId} {ids : Option (List PieceId)} {losses : List PieceId}
    {survivor : Option PieceId} (h : Battle s p f t ids losses survivor)
    (hforce : ∀ id ∈ attackForce s p f ids, id ∈ unitsOnTile s f (some p) unitKinds) {id : PieceId}
    (hid : id ∈ losses) {q : Piece} (hq : s.pieces.get? id = some q) : q.kind ∉ structureKinds := by
  have hunit : q.kind ∈ unitKinds := by
    rcases h.lost id hid with hin | hin
    · obtain ⟨q', hq', hk, _⟩ := mem_unitsOnTile.mp (hforce id hin)
      rw [hq, Option.some.injEq] at hq'
      exact hq' ▸ hk
    · obtain ⟨q', hq', hk, _⟩ := mem_unitsOnTile.mp hin
      rw [hq, Option.some.injEq] at hq'
      exact hq' ▸ hk
  exact unitKinds_not_structure hunit

/-- What a structure that changes hands does to the limits. -/
theorem transferred_within (hl : WithinLimits s) {pieces : OrderedMap PieceId Piece}
    {rng : SeededRandom} (hle : ∀ o k, pieces.count (ownedKind o k) ≤
      s.pieces.count (ownedKind o k)) {id : PieceId} {q : Piece}
    (hq : pieces.get? id = some q) (hother : q.owner ≠ p)
    (hkeep : pieces.count (ownedKind p q.kind) = s.pieces.count (ownedKind p q.kind))
    {x : KingdomsExtras} :
    WithinLimits { s with pieces := transferred pieces (some (id, q)) p, rng, extras := x } ↔
      ¬ ∃ n, limitOf q.kind = some n ∧ n ≤ countPlayerPiecesOfKind s p q.kind := by
  have hset : transferred pieces (some (id, q)) p = pieces.set id { q with owner := p } := by
    simp only [transferred, hq]
  have hcount : ∀ o k, (transferred pieces (some (id, q)) p).count (ownedKind o k) +
      (ownedKind o k q).toNat = pieces.count (ownedKind o k) +
      (ownedKind o k { q with owner := p }).toNat := by
    intro o k
    rw [hset]
    exact OrderedMap.count_set hq _ _
  have hnew : (transferred pieces (some (id, q)) p).count (ownedKind p q.kind) =
      s.pieces.count (ownedKind p q.kind) + 1 := by
    have := hcount p q.kind
    rw [hkeep] at this
    simpa [ownedKind, hother] using this
  constructor
  · rintro hl' ⟨n, hn, hfull⟩
    have := hl' p q.kind n hn
    rw [countPlayerPiecesOfKind_eq] at this hfull
    simp only [hnew] at this
    omega
  · intro hroom o k n hk
    rw [countPlayerPiecesOfKind_eq]
    change (transferred pieces (some (id, q)) p).count (ownedKind o k) ≤ n
    by_cases hsame : p = o ∧ q.kind = k
    · obtain ⟨rfl, rfl⟩ := hsame
      have hlt : ¬ n ≤ countPlayerPiecesOfKind s p q.kind := fun hge => hroom ⟨n, hk, hge⟩
      rw [countPlayerPiecesOfKind_eq] at hlt
      simp only [hnew]
      omega
    · have hno : ownedKind o k { q with owner := p } = false := by simpa [ownedKind] using hsame
      have := hcount o k
      rw [hno] at this
      have hold := hl o k n hk
      rw [countPlayerPiecesOfKind_eq] at hold
      have hless := hle o k
      simp only [Bool.toNat_false, Nat.add_zero] at this
      omega

theorem attack_within [Strength R] (hs : Sound s) (hb : Board s) {f t : TileId}
    {ids : Option (List PieceId)} (hv : attackTileValidator s (some p) f t ids = .ok ())
    (hx : (attackTileExecutor p f t ids).run s = .ok evs s') (hl : WithinLimits s) :
    WithinLimits s' ↔ ¬ (captures s p f t ids = true ∧ Overfull s p t) := by
  obtain ⟨_, ht, _, _, hforce⟩ := attack_guards hv
  obtain ⟨res, rng', evs', s₂, hfight, hbattle, hafter, hrun⟩ := attack_run hs hv
  rw [hx] at hrun
  cases hrun
  have hle : ∀ o k, (s.pieces.eraseAll (res.defenderLosses ++ res.attackerLosses)).count
      (ownedKind o k) ≤
      s.pieces.count (ownedKind o k) := fun o k => OrderedMap.count_eraseAll_le _ _ _
  have hcap : captures s p f t ids = true ↔ loyaltyOf s.extras t ≤ loyaltyDamagePerAttack ∧
      (survivingNoble s p f ids res.attackerLosses).isSome = true := by
    simp only [captures, hfight, Bool.and_eq_true, decide_eq_true_eq]
  -- what is left of the pieces when no structure changes hands
  have hfewer : ∀ {s₁ : KState R}, (∀ o k, s₁.pieces.count (ownedKind o k) ≤
      s.pieces.count (ownedKind o k)) →
      ¬ (captures s p f t ids = true ∧ Overfull s p t) →
      (WithinLimits (setExtras (fun x => { x with attackedFrom := [f] }) s₁) ↔
        ¬ (captures s p f t ids = true ∧ Overfull s p t)) :=
    fun hless hno => iff_of_true (hl.mono hless) hno
  generalize hsurv : survivingNoble s p f ids res.attackerLosses = survivor at hafter hbattle hcap
  cases hafter with
  | repelled =>
    refine hfewer hle fun h => ?_
    cases (hcap.mp h.1).2
  | eroded hleft =>
    refine hfewer hle fun h => ?_
    have := (hcap.mp h.1).1
    exact absurd hleft (by change ¬ 0 < loyaltyOf s.extras t - loyaltyDamagePerAttack; omega)
  | occupied _ hnobody =>
    refine hfewer hle ?_
    rintro ⟨_, _, _, o, _, _, ho, hne, _⟩
    rw [ho] at hnobody
    exact hne hnobody
  | @toppled n o players _ ho _ hc =>
    refine hfewer (fun o k => (OrderedMap.count_filter_le _ _ _).trans (hle o k)) ?_
    rintro ⟨_, _, _, o', _, _, ho', _, hc', _⟩
    rw [ho, Option.some.injEq] at ho'
    exact hc' (ho' ▸ hc)
  | @annexed n o hdone ho hne hc =>
    have hc' : s.extras.capitals.get? o ≠ some t := hc
    have hcaptures : captures s p f t ids = true :=
      hcap.mpr ⟨by change loyaltyOf s.extras t - loyaltyDamagePerAttack ≤ 0 at hdone; omega, rfl⟩
    cases hst : structureOnTile s t structureKinds with
    | none =>
      refine hfewer hle ?_
      rintro ⟨_, _, _, _, _, hst', _⟩
      rw [hst] at hst'
      cases hst'
    | some d =>
      obtain ⟨id, q⟩ := d
      obtain ⟨hq, hk, htile⟩ := structureOnTile_some hst
      have howner : q.owner = o := by
        obtain ⟨t', ht', ho'⟩ := hb.home id q hq
        rw [htile, Option.some.injEq] at ht'
        rw [← ht', ho, Option.some.injEq] at ho'
        exact ho'.symm
      have hother : q.owner ≠ p := fun h => ht (by rw [ho, ← howner, h])
      have hstands : (s.pieces.eraseAll (res.defenderLosses ++ res.attackerLosses)).get? id =
          some q := by
        rw [OrderedMap.get?_eraseAll, if_neg fun hin => hbattle.lost_unit hforce hin hq hk, hq]
      have hkeep : (s.pieces.eraseAll (res.defenderLosses ++ res.attackerLosses)).count
          (ownedKind p q.kind) =
          s.pieces.count (ownedKind p q.kind) := by
        refine OrderedMap.count_eraseAll fun id' hid' v hv' => ?_
        simp only [ownedKind, decide_eq_false_iff_not, not_and]
        rintro _ hkind
        exact hbattle.lost_unit hforce hid' hv' (hkind ▸ hk)
      refine (transferred_within hl hle hstands hother hkeep).trans (not_congr ?_)
      constructor
      · rintro ⟨n, hn, hfull⟩
        exact ⟨hcaptures, id, q, o, n, hst, ho, hne, hc', hn, hfull⟩
      · rintro ⟨_, id', q', o', n, hst', _, _, _, hn, hfull⟩
        rw [hst] at hst'
        cases hst'
        exact ⟨n, hn, hfull⟩

/-! ## The fresh state -/

/-- How many pieces of a kind a player starts with. -/
def startingCount (k : String) : Nat :=
  if k = "capital-base" then 1 else if k = "spearman" then 2 else if k = "noble" then 1 else 0

theorem startingCount_within {k : String} {n : Nat} (h : limitOf k = some n) :
    startingCount k ≤ n := by
  have hall : ∀ k ∈ kingdomsPieces.keys, ∀ n ∈ limitOf k, startingCount k ≤ n := by decide +kernel
  by_cases hk : k ∈ kingdomsPieces.keys
  · exact hall k hk n h
  · rw [limitOf, OrderedMap.get?_eq_none.mpr hk] at h
    cases h

theorem startingPieces_count (player : Player) (t : TileId) (p : PlayerId) (k : String) :
    (startingPieces player t).countP (fun e => ownedKind p k e.2) =
      if player.id = p then startingCount k else 0 := by
  simp only [startingPieces, makeUnitFromRegistry, makeUnit, ownedKind, List.countP_cons,
    List.countP_nil, startingCount, decide_eq_true_eq]
  by_cases hp : player.id = p
  · simp only [hp, true_and, if_true, eq_comm (b := k)]
    split_ifs <;> simp_all
  · simp [hp]

theorem seats_count (p : PlayerId) (k : String) : ∀ {es : List (Player × TileId)},
    (es.map fun e => e.1.id).Nodup →
    (es.flatMap fun e => startingPieces e.1 e.2).countP (fun e => ownedKind p k e.2) ≤
      startingCount k ∧
      (p ∉ es.map (fun e => e.1.id) →
        (es.flatMap fun e => startingPieces e.1 e.2).countP (fun e => ownedKind p k e.2) = 0) := by
  intro es
  induction es with
  | nil => exact fun _ => ⟨Nat.zero_le _, fun _ => rfl⟩
  | cons e es ih =>
    intro hnd
    rw [List.map_cons, List.nodup_cons] at hnd
    obtain ⟨hle, hzero⟩ := ih hnd.2
    rw [List.flatMap_cons, List.countP_append, startingPieces_count]
    by_cases hp : e.1.id = p
    · subst hp
      rw [if_pos rfl, hzero hnd.1]
      exact ⟨le_rfl, fun h => absurd List.mem_cons_self h⟩
    · rw [if_neg hp, Nat.zero_add]
      exact ⟨hle, fun h => hzero fun hin => h (List.mem_cons_of_mem _ hin)⟩

theorem fresh_within {opts : GameSetupOptions} (hf : Fresh opts s)
    (hid : (opts.players.map Player.id).Nodup) : WithinLimits s := by
  intro p k n hk
  have hnd : ((seats opts.players).map fun e => e.1.id).Nodup := by
    have := seats_ids_nodup hf.size hid
    rwa [List.map_map] at this
  rw [countPlayerPiecesOfKind_eq, hf.pieces, OrderedMap.count,
    OrderedMap.entries_ofEntries (seats_pieces_nodup hf.size hid)]
  exact (seats_count p k hnd).1.trans (startingCount_within hk)

/-! ## Runs -/

variable [Strength R] {g g' : KGame R} {c : KCall R}

/-- The call is an accepted attack that captures a structure its player has the limit of. -/
def Overreaches (r : KRecord R) : Prop :=
  ∃ a res f t ids, r.label = .submit a res ∧ accepts r.before a = true ∧
    a.payload = .attackTile f t ids ∧
    captures r.before.state r.before.state.rounds.turn.activePlayer f t ids = true ∧
    Overfull r.before.state r.before.state.rounds.turn.activePlayer t

theorem call_within (hs : Sound g.state) (hb : Board g.state)
    (h : Game.Step (kingdomsScenario R) g c g') (hl : WithinLimits g.state) :
    WithinLimits g'.state ↔ ¬ Overreaches ⟨g, c, g'⟩ := by
  cases ran_of_step hs h with
  | idle hno hstate =>
    refine iff_of_true (hl.congr (by rw [hstate])) ?_
    rintro ⟨a, res, f, t, ids, hlabel, hacc, _⟩
    exact Bool.false_ne_true ((hno a res hlabel).symm.trans hacc)
  | @acted a r _ evs s' _ _ _ hacc hran hstate =>
    obtain ⟨hv, hx⟩ := hran
    obtain ⟨hact, hne, heff⟩ := acted_of_run hs hv hx
    have hafter : WithinLimits g'.state ↔ WithinLimits s' :=
      ⟨fun h => h.congr (by rw [hstate]), fun h => h.congr (by rw [hstate])⟩
    rw [hafter]
    by_cases hattack : ∃ f t ids, a.payload = .attackTile f t ids
    · obtain ⟨f, t, ids, hpay⟩ := hattack
      rw [validate_eq, hpay, hact] at hv
      rw [execute_eq, hpay, hact, actor_some] at hx
      refine (attack_within hs hb hv hx hl).trans (not_congr ⟨fun hover => ?_, ?_⟩)
      · exact ⟨a, r, f, t, ids, rfl, hacc, hpay, hover⟩
      · rintro ⟨a', r', f', t', ids', hlabel, _, hpay', hover⟩
        cases hlabel
        rw [hpay] at hpay'
        cases hpay'
        exact hover
    · refine iff_of_true (heff.within hb hl fun f t ids hpay => hattack ⟨f, t, ids, hpay⟩) ?_
      rintro ⟨a', r', f, t, ids, hlabel, _, hpay, _⟩
      cases hlabel
      exact hattack ⟨f, t, ids, hpay⟩

/-- The limits hold in every state of a run if and only if no call of it overreaches. -/
theorem limits_iff {opts : GameSetupOptions} (hid : (opts.players.map Player.id).Nodup)
    (hseat : (opts.players.map Player.seat).Nodup) {s : KState R}
    (hs : createGameState (kingdomsScenario R) opts = .ok s) {rs : List (KRecord R)}
    (h : KRun (Game.new s) rs g) :
    (WithinLimits s ∧ ∀ r ∈ rs, WithinLimits r.after.state) ↔ ∀ r ∈ rs, ¬ Overreaches r := by
  have hl : WithinLimits s := fresh_within (fresh_state hs) hid
  have hrun := Recorded.forall_iff (I := fun g => WithinLimits g.state)
    (J := fun g => ∃ calls, Game.RunFrom (kingdomsScenario R) opts calls g)
    (fun g c g' ⟨_, s, hs, htr⟩ hstep => ⟨_, s, hs, htr.snoc hstep⟩)
    (fun r ⟨_, hrun⟩ hstep hl => by
      obtain ⟨hs, hb, -⟩ := board_reachable hid hseat hrun
      exact call_within hs hb hstep hl) h ⟨[], s, hs, .nil⟩ hl
  exact ⟨fun hall => hrun.mp hall.2, fun hno => ⟨hl, hrun.mpr hno⟩⟩

omit [Strength R] in
theorem four_cities {s : KState R} (h : countPlayerPiecesOfKind s "p1" "city" = 4) :
    ¬ WithinLimits s := by
  intro hl
  have hlimit : limitOf "city" = some 3 := by decide +kernel
  have hle := hl "p1" "city" 3 hlimit
  rw [h] at hle
  exact absurd hle (by decide)

theorem advance_cities : (Game.play (kingdomsScenario ℚ) duel advance).toOption.map
    (fun r => countPlayerPiecesOfKind r.2.state "p1" "city") = some 4 := by decide +kernel

/-- Some call of the march on the capital of `p2` overreaches. -/
theorem advance_overreaches : ∃ r, Game.play (kingdomsScenario ℚ) duel advance = .ok r ∧
    ∃ rs : List (KRecord ℚ), rs.map Record.label = r.1 ∧ ∃ c ∈ rs, Overreaches c := by
  obtain ⟨r, hr, ⟨s, hs, htr⟩, hfour⟩ := Game.play_observed advance_cities
  obtain ⟨rs, hlabels, hrs⟩ := Recorded.of_trace htr
  have hiff := limits_iff (by decide) (by decide) hs hrs
  refine ⟨r, hr, rs, hlabels, ?_⟩
  by_contra hno
  obtain ⟨hfirst, hall⟩ := hiff.mpr fun c hc hover => hno ⟨c, hc, hover⟩
  rcases List.eq_nil_or_concat rs with rfl | ⟨init, c, rfl⟩
  · rw [Trace.nil_iff.mp hrs] at hfour
    exact four_cities hfour hfirst
  · rw [List.concat_eq_append] at hrs
    obtain ⟨_, _, hlast⟩ := Trace.snoc_iff.mp hrs
    have hafter := hall c (by simp)
    rw [(Recorded.step_of hlast).2.1] at hafter
    exact four_cities hfour hafter

theorem advance_over_limit : ∃ r, Game.play (kingdomsScenario ℚ) duel advance = .ok r ∧
    ¬ WithinLimits r.2.state := by
  obtain ⟨r, hr, _, hfour⟩ := Game.play_observed advance_cities
  exact ⟨r, hr, four_cities hfour⟩

end Boardgame.Kingdoms
