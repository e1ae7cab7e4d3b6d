import Boardgame.Kingdoms.Moves

/-!
# Kingdoms.Loyalty

How tiles change hands. A tile's loyalty only goes down by the 45 of a hit, so a capture needs three
of them since the tile was last untouched.

* `Effect.loyalty`, `Effect.capture`, `Effect.owner`: what an accepted action does to the loyalty
  and to the owner of a tile.
* `loyalty_drop`: one call, with the hits it counts for.
* `tile_falls`: loyalty, captures and owners along every run.
-/

namespace Boardgame.Kingdoms

open Game (newEvents Emits)

variable {R : Type} {s s' : KState R} {p : PlayerId} {payload : KingdomsPayload}
  {evs : List (KEvent R)}

/-- A Noble of the attackers of `t` that stands before and after. -/
def NobleHit (s : KState R) (p : PlayerId) (payload : KingdomsPayload) (s' : KState R)
    (t : TileId) :
    Prop :=
  ∃ f ids, payload = .attackTile f t ids ∧ ∃ n ∈ attackForce s p f ids,
    (s.pieces.get? n).any (·.kind = "noble") = true ∧ (s'.pieces.get? n).isSome = true

/-! ## One action -/

/-- The survivor of a fight is still there when its aftermath is over. -/
theorem Aftermath.survivor {t : TileId} {owner : Option PlayerId} {d : Option (PieceId × Piece)}
    {n : PieceId} (h : Aftermath s p t owner d (some n) evs s') (hp : owner ≠ some p)
    {piece : Piece} (hn : s.pieces.get? n = some piece) (how : piece.owner = p) :
    (s'.pieces.get? n).isSome = true := by
  cases h with
  | eroded => simp [setExtras, hn]
  | occupied => simp [captured, setExtras, hn]
  | @toppled _ o players _ ho =>
    have hne : piece.owner ≠ o := fun he => hp (by rw [ho, ← he, how])
    simp [eliminated, captured, setExtras, OrderedMap.get?_filter, hn, hne]
  | annexed =>
    simp only [transferred_get?, hn]
    split <;> rfl

/-- The attack that a Noble survives is a hit. -/
theorem hit_of_survivor {f t : TileId} {ids : Option (List PieceId)} {losses : List PieceId}
    {n : PieceId} {rng : SeededRandom} {s₂ : KState R}
    (ht : s.extras.ownership.get? t ≠ some p)
    (hforce : ∀ id ∈ attackForce s p f ids, id ∈ unitsOnTile s f (some p) unitKinds)
    (hbattle : Battle s p f t ids losses (some n))
    (hafter : Aftermath { s with pieces := s.pieces.eraseAll losses, rng } p t
      (s.extras.ownership.get? t) (structureOnTile s t structureKinds) (some n) evs s₂)
    (hs' : s'.pieces = s₂.pieces) : NobleHit s p (.attackTile f t ids) s' t := by
  obtain ⟨hn, hnoble, hlost, _⟩ := hbattle.somebody n rfl
  obtain ⟨piece, hpiece, _, _, how⟩ := mem_unitsOnTile.mp (hforce n hn)
  have howner : piece.owner = p := by simpa [eq_comm] using how
  have hleft : (s.pieces.eraseAll losses).get? n = some piece := by
    rw [OrderedMap.get?_eraseAll, if_neg hlost, hpiece]
  exact ⟨f, ids, rfl, n, hn, hnoble, hs' ▸ hafter.survivor ht hleft howner⟩

theorem loyaltyOf_eq {x y : KingdomsExtras} {t : TileId}
    (h : y.tileLoyalty.get? t = x.tileLoyalty.get? t) : loyaltyOf y t = loyaltyOf x t := by
  rw [loyaltyOf, loyaltyOf, h]

/-- Every entry is a loyalty strictly between 0 and the full 100. -/
def LoyaltyBounded (s : KState R) : Prop :=
  ∀ t e, s.extras.tileLoyalty.get? t = some e → 1 ≤ e.loyalty ∧ e.loyalty ≤ 99

theorem LoyaltyBounded.le (h : LoyaltyBounded s) (t : TileId) :
    0 < loyaltyOf s.extras t ∧ loyaltyOf s.extras t ≤ maxLoyalty := by
  unfold loyaltyOf
  cases he : s.extras.tileLoyalty.get? t with
  | none => decide
  | some e =>
    have := h t e he
    simp only [Option.map_some, Option.getD_some, maxLoyalty]
    omega

/-- The loyalty of a tile goes down in a hit only, by 45 at most. -/
theorem Effect.loyalty (hb : LoyaltyBounded s) (h : Effect s p payload evs s') (t : TileId) :
    loyaltyOf s.extras t ≤ loyaltyOf s'.extras t ∨
      (NobleHit s p payload s' t ∧ loyaltyOf s.extras t ≤ loyaltyOf s'.extras t + 45) := by
  cases h with
  | wrapped _ hs₁ =>
    subst hs₁
    refine .inl ?_
    -- an entry recovers, or goes because the loyalty is full again
    have hfull : loyaltyOf s.extras t ≤ maxLoyalty := (hb.le t).2
    cases he : (recoverLoyalty s.extras.tileLoyalty).get? t with
    | none => simpa [loyaltyOf, setExtras, he] using hfull
    | some e =>
      obtain ⟨old, hold, rfl, _⟩ := get?_recoverLoyalty.mp he
      simp only [loyaltyOf, setExtras, he, hold, Option.map_some, Option.getD_some,
        loyaltyRecoveryPerRound]
      omega
  | @attacked f t' ids losses survivor rng battle aftermath s₂ _ ht _ _ hforce _ hbattle hafter =>
    cases hafter with
    | repelled => exact .inl (loyaltyOf_eq rfl).ge
    | @eroded n hl =>
      by_cases htt : t = t'
      · subst htt
        refine .inr ⟨hit_of_survivor ht hforce hbattle (.eroded hl) rfl, ?_⟩
        simp [loyaltyOf, setExtras, loyaltyDamagePerAttack]
      · exact .inl (loyaltyOf_eq (by simp [setExtras, htt])).ge
    | _ =>
      -- a captured tile is whole again
      refine .inl ?_
      by_cases htt : t = t'
      · subst htt
        have := (hb.le t).2
        simpa [loyaltyOf, setExtras, captured, eliminated] using this
      · exact (loyaltyOf_eq
          (by simp [setExtras, captured, eliminated, OrderedMap.get?_erase, htt])).ge
  | _ => exact .inl (loyaltyOf_eq rfl).ge

/-- A capture is a hit on a tile with 45 loyalty or less, and wipes its entry. -/
theorem Effect.capture (h : Effect s p payload evs s') {t : TileId} {previous : Option PlayerId}
    (hcap : ∃ e ∈ evs, e.body = .scenario (.tileCaptured t previous)) :
    NobleHit s p payload s' t ∧ loyaltyOf s.extras t ≤ 45 ∧
    s'.extras.tileLoyalty.get? t = none := by
  obtain ⟨e, he, hbody⟩ := hcap
  have hround : ∀ s₁ : KState R, e ∉ roundEndEvents s₁ := by
    intro s₁ he
    obtain ⟨x, hx, hk⟩ := roundEndEvents_reports e he
    rw [hbody] at hx
    cases hx
    exact hk
  cases h with
  | wrapped =>
    rcases List.mem_cons.mp he with rfl | he
    · cases hbody
    · exact absurd he (hround _)
  | @attacked f t' ids losses survivor rng battle aftermath s₂ _ ht _ _ hforce hbat
      hbattle hafter =>
    obtain ⟨w, x, y, m, n, rfl⟩ := hbat
    rcases List.mem_cons.mp he with rfl | he
    · cases hbody
    cases hafter with
    | repelled => cases he
    | eroded =>
      rw [List.mem_singleton.mp he] at hbody
      cases hbody
    | toppled hl ho hne hc hel =>
      have htt : t' = t := by
        simp only [List.mem_cons, List.not_mem_nil, or_false] at he
        rcases he with rfl | rfl <;> cases hbody
        rfl
      subst htt
      exact ⟨hit_of_survivor ht hforce hbattle (.toppled hl ho hne hc hel) rfl,
        by simpa [loyaltyDamagePerAttack, loyaltyOf] using hl, by
          simp [setExtras, eliminated, captured]⟩
    | occupied hl hnone =>
      rw [List.mem_singleton.mp he] at hbody
      cases hbody
      exact ⟨hit_of_survivor ht hforce hbattle (.occupied hl hnone) rfl,
        by simpa [loyaltyDamagePerAttack, loyaltyOf] using hl, by simp [setExtras, captured]⟩
    | annexed hl ho hne hc =>
      rw [List.mem_singleton.mp he] at hbody
      cases hbody
      exact ⟨hit_of_survivor ht hforce hbattle (.annexed hl ho hne hc) rfl,
        by simpa [loyaltyDamagePerAttack, loyaltyOf] using hl, by simp [setExtras, captured]⟩
  | _ =>
    rw [List.mem_singleton.mp he] at hbody
    cases hbody

theorem Effect.bounded (hb : LoyaltyBounded s) (h : Effect s p payload evs s') :
    LoyaltyBounded s' := by
  cases h with
  | wrapped _ hs₁ =>
    subst hs₁
    intro t e he
    obtain ⟨old, hold, rfl, hlt⟩ := get?_recoverLoyalty.mp he
    have := hb t old hold
    simp only [loyaltyRecoveryPerRound, maxLoyalty] at hlt ⊢
    omega
  | @attacked f t' ids losses survivor rng battle aftermath s₂ _ _ _ _ _ _ _ hafter =>
    have herase : ∀ t e, (s.extras.tileLoyalty.erase t').get? t = some e →
        1 ≤ e.loyalty ∧ e.loyalty ≤ 99 := by
      intro t e he
      rw [OrderedMap.get?_erase] at he
      split at he
      · cases he
      · exact hb t e he
    cases hafter with
    | repelled => exact hb
    | eroded hl =>
      intro t e he
      simp only [setExtras, OrderedMap.get?_set] at he
      split at he
      · cases he
        have hfull := (hb.le t').2
        have hl' : 0 < loyaltyOf s.extras t' - loyaltyDamagePerAttack := hl
        simp only [maxLoyalty, loyaltyDamagePerAttack] at hfull hl' ⊢
        omega
      · exact hb t e he
    | _ => exact herase
  | _ => exact hb

/-- A tile changes hands in its capture, or is left by a player who is eliminated. -/
theorem Effect.owner (hs : Sound s) (h : Effect s s.rounds.turn.activePlayer payload evs s')
    {t : TileId} (hne : s'.extras.ownership.get? t ≠ s.extras.ownership.get? t) :
    (∃ previous, ∃ e ∈ evs, e.body = .scenario (.tileCaptured t previous)) ∨
      (s'.extras.ownership.get? t = none ∧ ∃ o, s.extras.ownership.get? t = some o ∧
        (∃ q, ∃ e ∈ evs, e.body = .scenario (.playerEliminated o q)) ∧
        ∀ pl ∈ s'.players.bySeat, pl.id = o → pl.isActive = false) := by
  cases h with
  | wrapped _ hs₁ => subst hs₁; exact absurd rfl hne
  | @attacked f t' ids losses survivor rng battle aftermath s₂ _ ht _ _ _ _ _ hafter =>
    cases hafter with
    | repelled => exact absurd rfl hne
    | eroded => exact absurd rfl hne
    | @toppled n o players hl ho _ _ hel =>
      have hel' : s.players.eliminate o = .ok players := hel
      rw [PlayerManager.eliminate_ok hs.ids (hs.owners t' o ho), Except.ok.injEq] at hel'
      subst hel'
      by_cases htt : t = t'
      · subst htt
        exact .inl ⟨_, _, List.mem_cons_of_mem _ List.mem_cons_self, rfl⟩
      · -- what `o` owned elsewhere is nobody's now
        simp only [setExtras, eliminated, captured, OrderedMap.get?_filter, OrderedMap.get?_set,
          if_neg htt] at hne ⊢
        cases how : s.extras.ownership.get? t with
        | none => rw [how] at hne; exact absurd rfl hne
        | some o' =>
          have : o' = o := by
            by_contra hoo
            rw [how] at hne
            simp [hoo] at hne
          subst this
          refine .inr ⟨by simp, o', rfl, ⟨_, _, List.mem_cons_of_mem _ (List.mem_cons_of_mem _
            List.mem_cons_self), rfl⟩, fun pl hpl hid => ?_⟩
          by_contra hact
          exact (PlayerManager.mem_marked_active.mp ⟨hpl, by simpa using hact⟩).2.2 hid
    | _ =>
      by_cases htt : t = t'
      · subst htt
        exact .inl ⟨_, _, List.mem_cons_of_mem _ List.mem_cons_self, rfl⟩
      · exact absurd (by simp [setExtras, captured, htt]) hne
  | _ => exact absurd rfl hne

/-! ## One call -/

section Calls

variable [Strength R]

/-- The call is an accepted attack on `t` that a Noble of the attackers survives. -/
def isHit (t : TileId) (r : KRecord R) : Bool :=
  match r.label with
  | .start => false
  | .submit a _ =>
    match a.payload with
    | .attackTile f t' ids => t' = t && accepts r.before a &&
        (attackForce r.before.state (actor a.playerId) f ids).any fun n =>
          (r.before.state.pieces.get? n).any (·.kind = "noble") &&
          (r.after.state.pieces.get? n).isSome
    | _ => false

def Captures (t : TileId) (r : KRecord R) : Prop :=
  ∃ previous, Emits r.before r.after (.tileCaptured t previous)

theorem isHit_of {g g' : KGame R} {a : KAction} {r} {t : TileId} {s' : KState R}
    (hacc : accepts g a = true) (hact : a.playerId = some g.state.rounds.turn.activePlayer)
    (hit : NobleHit g.state g.state.rounds.turn.activePlayer a.payload s' t)
    (hs' : g'.state.pieces = s'.pieces) : isHit t ⟨g, .submit a r, g'⟩ = true := by
  obtain ⟨f, ids, hp, n, hn, hnoble, hstill⟩ := hit
  simp only [isHit, hp, hact, actor_some, hacc, decide_true, Bool.true_and, List.any_eq_true,
    Bool.and_eq_true]
  exact ⟨n, hn, hnoble, hs' ▸ hstill⟩

theorem loyalty_drop {g g' : KGame R} {c : KCall R} (hs : Sound g.state)
    (hb : LoyaltyBounded g.state) (h : Game.Step (kingdomsScenario R) g c g') (t : TileId) :
    loyaltyOf g.state.extras t ≤
      loyaltyOf g'.state.extras t + if isHit t ⟨g, c, g'⟩ then 45 else 0 := by
  cases move_of_step hs h with
  | idle _ hstate _ =>
    have hx : g'.state.extras = g.state.extras := by rw [hstate]
    rw [hx]
    split <;> omega
  | @acted a r _ evs s' status history tail hacc hF hstate =>
    obtain ⟨hact, _, heff⟩ := hF
    have hx : g'.state.extras = s'.extras := by rw [hstate]
    rw [hx]
    rcases heff.loyalty hb t with hle | ⟨hit, hle⟩
    · split <;> omega
    · rw [if_pos (isHit_of hacc hact hit (by rw [hstate]))]
      exact hle

/-- A capture is a hit on a tile with 45 loyalty or less, and wipes its entry. -/
theorem capture_facts {g g' : KGame R} {c : KCall R} (hs : Sound g.state)
    (h : Game.Step (kingdomsScenario R) g c g') {t : TileId} (hcap : Captures t ⟨g, c, g'⟩) :
    isHit t ⟨g, c, g'⟩ = true ∧ loyaltyOf g.state.extras t ≤ 45 ∧
      g'.state.extras.tileLoyalty.get? t = none := by
  obtain ⟨previous, hem⟩ := hcap
  cases move_of_step hs h with
  | idle _ _ hev => exact absurd hem (Game.not_emits hev _)
  | acted hacc hF hstate hnew htail =>
    obtain ⟨hact, _, heff⟩ := hF
    obtain ⟨hit, hle, hnone⟩ :=
      heff.capture ((Game.emits_iff (Game.newEvents_append hnew) htail).mp hem)
    exact ⟨isHit_of hacc hact hit (by rw [hstate]), hle, by rw [hstate]; exact hnone⟩

theorem owner_change {g g' : KGame R} {c : KCall R} (hs : Sound g.state)
    (h : Game.Step (kingdomsScenario R) g c g') {t : TileId}
    (hne : g'.state.extras.ownership.get? t ≠ g.state.extras.ownership.get? t) :
    Captures t ⟨g, c, g'⟩ ∨
      (g'.state.extras.ownership.get? t = none ∧ ∃ o, g.state.extras.ownership.get? t = some o ∧
        (∃ q, Emits g g' (.playerEliminated o q)) ∧
        ∀ pl ∈ g'.state.players.bySeat, pl.id = o → pl.isActive = false) := by
  cases move_of_step hs h with
  | idle _ hstate _ => rw [hstate] at hne; exact absurd rfl hne
  | acted _ hF hstate hnew htail =>
    obtain ⟨_, _, heff⟩ := hF
    rw [hstate] at hne ⊢
    rcases heff.owner hs hne with ⟨previous, hcap⟩ | ⟨hnone, o, how, ⟨q, hel⟩, hout⟩
    · exact .inl ⟨previous, (Game.emits_iff (Game.newEvents_append hnew) htail).mpr hcap⟩
    · exact .inr ⟨hnone, o, how, ⟨q, (Game.emits_iff (Game.newEvents_append hnew) htail).mpr hel⟩,
        hout⟩

end Calls

/-! ## Runs -/

variable [Strength R]

theorem sound_bounded {opts : GameSetupOptions} (hid : (opts.players.map Player.id).Nodup)
    (hseat : (opts.players.map Player.seat).Nodup) {calls : List (KCall R)} {g : KGame R}
    (h : Game.RunFrom (kingdomsScenario R) opts calls g) :
    Sound g.state ∧ LoyaltyBounded g.state := by
  refine kingdoms_inv (I := LoyaltyBounded) (fun _ _ _ h => h) ?_ hid hseat ?_ h
  · exact fun s payload evs s' _ _ hb heff => heff.bounded hb
  · intro s hf _ t e he
    rw [hf.extras] at he
    cases he

/-- How tiles fall from the game `g` on. -/
structure TilesFall (g : KGame R) : Prop where
  bounded : ∀ t e, g.state.extras.tileLoyalty.get? t = some e → 1 ≤ e.loyalty ∧ e.loyalty ≤ 99
  /-- A run from a state without an entry to a capture counts three hits, the capture included. -/
  threeHits : ∀ t rs r g', KRun g (rs ++ [r]) g' → g.state.extras.tileLoyalty.get? t = none →
    Captures t r → 3 ≤ (rs ++ [r]).countP (isHit t)
  wiped : ∀ c g' t, Game.Step (kingdomsScenario R) g c g' → Captures t ⟨g, c, g'⟩ →
    g'.state.extras.tileLoyalty.get? t = none
  /-- An owner changes in a capture, or becomes nobody because the owner is eliminated. -/
  owners : ∀ c g' t, Game.Step (kingdomsScenario R) g c g' →
    g'.state.extras.ownership.get? t ≠ g.state.extras.ownership.get? t →
    Captures t ⟨g, c, g'⟩ ∨
      (g'.state.extras.ownership.get? t = none ∧ ∃ o, g.state.extras.ownership.get? t = some o ∧
        (∃ q, Emits g g' (.playerEliminated o q)) ∧
        ∀ pl ∈ g'.state.players.bySeat, pl.id = o → pl.isActive = false)

/-- In a Kingdoms run a tile falls after three hits at least. -/
theorem tile_falls {opts : GameSetupOptions} (hid : (opts.players.map Player.id).Nodup)
    (hseat : (opts.players.map Player.seat).Nodup) {calls : List (KCall R)} {g : KGame R}
    (h : Game.RunFrom (kingdomsScenario R) opts calls g) : TilesFall g := by
  obtain ⟨hs, hb⟩ := sound_bounded hid hseat h
  refine
    { bounded := hb
      threeHits := fun t rs r g' hrun hnone hcap => ?_
      wiped := fun c g' t hstep hcap => (capture_facts hs hstep hcap).2.2
      owners := fun c g' t hstep hne => owner_change hs hstep hne }
  obtain ⟨g₁, hrs, hlast⟩ := Trace.snoc_iff.mp hrun
  obtain ⟨rfl, rfl, hstep⟩ := Recorded.step_of hlast
  have hdrop := hrs.drop_le (I := fun g => ∃ calls, Game.RunFrom (kingdomsScenario R) opts calls g)
    (φ := fun g => loyaltyOf g.state.extras t) (p := isHit t) (k := 45)
    (fun g r g' hI hr => by
      obtain ⟨calls, hI⟩ := hI
      exact ⟨_, hI.extend (Trace.single hr)⟩)
    (fun g r g' hI hr => by
      obtain ⟨calls, hI⟩ := hI
      obtain ⟨hs, hb⟩ := sound_bounded hid hseat hI
      cases hr with | mk hr => exact loyalty_drop hs hb hr t)
    ⟨calls, h⟩
  obtain ⟨hit, hle, _⟩ := capture_facts (sound_bounded hid hseat (h.extend hrs)).1 hstep hcap
  have hfull : loyaltyOf g.state.extras t = 100 := by rw [loyaltyOf, hnone]; rfl
  rw [List.countP_append, List.countP_singleton, if_pos hit]
  simp only [hfull] at hdrop
  omega

theorem twoHits_fall : ∃ r, Game.play (kingdomsScenario ℚ) duel (threeHits.take 5) = .ok r ∧
    r.2.state.extras.tileLoyalty.get? "3,-4" = some ⟨20, "p1"⟩ ∧ TilesFall r.2 := by
  have hfalling : (Game.play (kingdomsScenario ℚ) duel (threeHits.take 5)).toOption.map
      (fun r => r.2.state.extras.tileLoyalty.get? "3,-4") = some (some ⟨20, "p1"⟩) := by
        decide +kernel
  obtain ⟨r, hr, hrun, hentry⟩ := Game.play_observed hfalling
  exact ⟨r, hr, hentry, tile_falls (by decide) (by decide) hrun⟩

end Boardgame.Kingdoms
