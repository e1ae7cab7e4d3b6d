import Boardgame.Kingdoms.Board

/-!
# Kingdoms.FirstPass

The code takes an owner with an empty id for no owner, so a capture from such a player would leave
their pieces behind. It cannot happen: nobody acts in that player's turn, so the game never gets
past the first round, and in the first round a tile is hit at most once.

* `Effect.firstPass`: an accepted action keeps the game in its first pass.
* `FirstPass.lasts`: in the first pass no loyalty runs out.
-/

namespace Boardgame.Kingdoms

variable {R : Type}

/-- In clockwise order from seat `a`, seat `x` is not reached before seat `z`. -/
def NotBefore (a z x : Int) : Prop := (a ≤ z ∧ (x ≤ a ∨ z ≤ x)) ∨ (z < a ∧ z ≤ x ∧ x ≤ a)

/-- As long as the blank player is in the game, everyone else is in their first turn or past it:
nobody is out, everyone owns their capital only, and who has attacked a tile will not act again
before the blank player's turn, in which nobody acts. -/
structure FirstPass (s : KState R) (blank : Player) : Prop where
  all : ∀ pl ∈ s.players.bySeat, pl.isActive = true
  own : ∀ t o, s.extras.ownership.get? t = some o → s.extras.capitals.get? o = some t
  apart : ∀ o o' c c' t, s.extras.capitals.get? o = some c → s.extras.capitals.get? o' = some c' →
    isAdjacent s.map c t = true → isAdjacent s.map c' t = true → o = o'
  hit : ∀ t e, s.extras.tileLoyalty.get? t = some e →
    ∃ a ∈ s.players.bySeat, ∃ x ∈ s.players.bySeat, a.id = s.rounds.turn.activePlayer ∧ x.id ≠ "" ∧
      NotBefore a.seat blank.seat x.seat ∧ (x = a → s.extras.attackedFrom ≠ []) ∧
      ∃ c, s.extras.capitals.get? x.id = some c ∧ isAdjacent s.map c t = true

def FirstPasses (s : KState R) : Prop :=
  ∀ blank ∈ s.players.bySeat, blank.id = "" → FirstPass s blank

namespace FirstPass

variable {s : KState R} {blank : Player}

/-- The parts it does not look at. -/
theorem congr (h : FirstPass s blank) {s' : KState R} (hm : s'.map = s.map)
    (hpl : s'.players = s.players) (hr : s'.rounds = s.rounds)
    (ho : s'.extras.ownership = s.extras.ownership) (hc : s'.extras.capitals = s.extras.capitals)
    (hl : s'.extras.tileLoyalty = s.extras.tileLoyalty)
    (ha : s'.extras.attackedFrom = s.extras.attackedFrom) : FirstPass s' blank where
  all := by rw [hpl]; exact h.all
  own := by rw [ho, hc]; exact h.own
  apart := by rw [hc, hm]; exact h.apart
  hit := by rw [hl, hpl, hr, ha, hc, hm]; exact h.hit

/-- The active player attacks from their capital, and finds the tile untouched. -/
theorem untouched (h : FirstPass s blank) (hs : Sound s) {f t : TileId}
    (hf : s.extras.ownership.get? f = some s.rounds.turn.activePlayer)
    (hadj : isAdjacent s.map f t = true) (hfirst : s.extras.attackedFrom = []) :
    s.extras.tileLoyalty.get? t = none := by
  cases he : s.extras.tileLoyalty.get? t with
  | none => rfl
  | some e =>
    obtain ⟨a, ha, x, hx, hcur, _, _, hback, c, hc, hadj'⟩ := h.hit t e he
    have hxa : x.id = s.rounds.turn.activePlayer := h.apart _ _ _ _ _ hc (h.own _ _ hf) hadj' hadj
    have : x = a := List.inj_on_of_nodup_map hs.ids hx ha (hxa.trans hcur.symm)
    exact absurd hfirst (hback this)

/-- So its loyalty does not run out. -/
theorem lasts (h : FirstPass s blank) (hs : Sound s) {f t : TileId}
    (hf : s.extras.ownership.get? f = some s.rounds.turn.activePlayer)
    (hadj : isAdjacent s.map f t = true) (hfirst : s.extras.attackedFrom = []) :
    0 < loyaltyOf s.extras t - loyaltyDamagePerAttack := by
  rw [loyaltyOf, h.untouched hs hf hadj hfirst]
  decide

/-- The turn passes to a seat no later than the blank player's. -/
theorem notBefore_succ {as : List Player} {a b x : Player} (hz : blank ∈ as)
    (hab : a.seat ≠ blank.seat) (hx : x.seat ≠ blank.seat) (hsucc : ClockwiseSucc as a b)
    (hback : NotBefore a.seat blank.seat x.seat) :
    NotBefore b.seat blank.seat x.seat ∧ (x.seat ≠ b.seat ∨ b.seat = blank.seat) := by
  unfold NotBefore at *
  rcases hsucc with ⟨hlt, hleast⟩ | ⟨hmost, hleast⟩
  · have := hleast blank hz
    omega
  · have := hleast blank hz
    have := hmost blank hz
    omega

theorem passed (h : FirstPass s blank) (hs : Sound s) (hblank : blank ∈ s.players.bySeat)
    (hid : blank.id = "") (hne : s.rounds.turn.activePlayer ≠ "") {q : PlayerId} {b : Bool}
    {rounds : RoundManager} (hend : s.rounds.endTurn s.players.all "command" = .ok (⟨q, b⟩, rounds))
    {loyalty : OrderedMap TileId TileLoyalty}
    (hl : ∀ t e, loyalty.get? t = some e → ∃ e', s.extras.tileLoyalty.get? t = some e')
    {s' : KState R} (hm : s'.map = s.map) (hpl : s'.players = s.players) (hr : s'.rounds = rounds)
    (ho : s'.extras.ownership = s.extras.ownership) (hc : s'.extras.capitals = s.extras.capitals)
    (hl' : s'.extras.tileLoyalty = loyalty) : FirstPass s' blank where
  all := by rw [hpl]; exact h.all
  own := by rw [ho, hc]; exact h.own
  apart := by rw [hc, hm]; exact h.apart
  hit t e he := by
    rw [hl'] at he
    obtain ⟨e', he'⟩ := hl t e he
    obtain ⟨a, ha, x, hx, hcur, hxne, hback, _, c, hcap, hadj⟩ := h.hit t e' he'
    obtain ⟨a', ha', b', hb', _, _, hcur', hbq, hsucc, _, _, hact, _⟩ := endTurn_facts hs hend
    have haa : a' = a := List.inj_on_of_nodup_map hs.ids ha' ha (hcur'.trans hcur.symm)
    subst haa
    have hseat : ∀ {y : Player}, y ∈ s.players.bySeat → y.id ≠ "" → y.seat ≠ blank.seat :=
      fun hy hne hseat => hne (by rw [hs.seats.eq_of_seat hy hblank hseat, hid])
    have hzact : blank ∈ s.players.active := List.mem_filter.mpr ⟨hblank, h.all blank hblank⟩
    obtain ⟨hback', hfar⟩ := notBefore_succ hzact (hseat ha' (hcur ▸ hne))
      (hseat hx hxne) hsucc hback
    rw [hpl, hr, hc, hm, hact]
    refine ⟨b', hb', x, hx, hbq, hxne, hback', fun hxb => ?_, c, hcap, hadj⟩
    subst hxb
    exact absurd rfl (hfar.resolve_right (hseat hx hxne))

theorem attacked (h : FirstPass s blank) {f : TileId} {s' : KState R} (hm : s'.map = s.map)
    (hpl : s'.players = s.players) (hr : s'.rounds = s.rounds)
    (ho : s'.extras.ownership = s.extras.ownership) (hc : s'.extras.capitals = s.extras.capitals)
    (hl : s'.extras.tileLoyalty = s.extras.tileLoyalty) (ha : s'.extras.attackedFrom = [f]) :
    FirstPass s' blank where
  all := by rw [hpl]; exact h.all
  own := by rw [ho, hc]; exact h.own
  apart := by rw [hc, hm]; exact h.apart
  hit t e he := by
    rw [hl] at he
    obtain ⟨a, ha', x, hx, hcur, hxne, hback, _, hcap⟩ := h.hit t e he
    rw [hpl, hr, hc, hm]
    exact ⟨a, ha', x, hx, hcur, hxne, hback, fun _ => by simp [ha], hcap⟩

/-- The active player hits a tile next to their capital. -/
theorem eroded (h : FirstPass s blank) (hs : Sound s) (hne : s.rounds.turn.activePlayer ≠ "")
    (hblank : blank ∈ s.players.bySeat) (hid : blank.id = "") {f t : TileId}
    (hf : s.extras.ownership.get? f = some s.rounds.turn.activePlayer)
    (hadj : isAdjacent s.map f t = true) {new : TileLoyalty} {s' : KState R} (hm : s'.map = s.map)
    (hpl : s'.players = s.players) (hr : s'.rounds = s.rounds)
    (ho : s'.extras.ownership = s.extras.ownership) (hc : s'.extras.capitals = s.extras.capitals)
    (hl : s'.extras.tileLoyalty = s.extras.tileLoyalty.set t new)
    (ha : s'.extras.attackedFrom = [f]) : FirstPass s' blank where
  all := by rw [hpl]; exact h.all
  own := by rw [ho, hc]; exact h.own
  apart := by rw [hc, hm]; exact h.apart
  hit t' e he := by
    rw [hl, OrderedMap.get?_set] at he
    rw [hpl, hr, hc, hm]
    split at he
    · rename_i ht
      subst ht
      obtain ⟨a, hain, _, hcur⟩ := hs.turn
      have hseat : a.seat ≠ blank.seat := fun hseat =>
        hne (by rw [← hcur, hs.seats.eq_of_seat hain hblank hseat, hid])
      refine ⟨a, hain, a, hain, hcur, hcur ▸ hne, ?_, fun _ => by simp [ha], f, ?_, hadj⟩
      · unfold NotBefore
        omega
      · rw [hcur]
        exact h.own _ _ hf
    · obtain ⟨a, ha', x, hx, hcur, hxne, hback, _, hcap⟩ := h.hit t' e he
      exact ⟨a, ha', x, hx, hcur, hxne, hback, fun _ => by simp [ha], hcap⟩

end FirstPass

theorem Effect.firstPass {s : KState R} {payload : KingdomsPayload} {evs : List (KEvent R)}
    {s' : KState R} (hs : Sound s) (hne : s.rounds.turn.activePlayer ≠ "") (h₁ : FirstPasses s)
    (h : Effect s s.rounds.turn.activePlayer payload evs s') : FirstPasses s' := by
  intro blank hblank hid
  cases h with
  | recruited => exact (h₁ blank hblank hid).congr rfl rfl rfl rfl rfl rfl rfl
  | built => exact (h₁ blank hblank hid).congr rfl rfl rfl rfl rfl rfl rfl
  | demolished => exact (h₁ blank hblank hid).congr rfl rfl rfl rfl rfl rfl rfl
  | moved => exact (h₁ blank hblank hid).congr rfl rfl rfl rfl rfl rfl rfl
  | developed => exact (h₁ blank hblank hid).congr rfl rfl rfl rfl rfl rfl rfl
  | turned hend =>
    exact (h₁ blank hblank hid).passed hs hblank hid hne hend (fun t e he => ⟨e, he⟩)
      rfl rfl rfl rfl rfl rfl
  | wrapped hend hs₁ =>
    subst hs₁
    refine (h₁ blank hblank hid).passed hs hblank hid hne hend (fun t e he => ?_)
      rfl rfl rfl rfl rfl rfl
    obtain ⟨old, hold, _⟩ := get?_recoverLoyalty.mp he
    exact ⟨old, hold⟩
  | @attacked f t ids losses survivor rng battle aftermath s₂ hf _ hadj hfirst _ _ _ hafter =>
    -- a tile under a first attack is untouched, so it is not captured
    have hlasts : ∀ b ∈ s.players.bySeat, b.id = "" →
        0 < loyaltyOf s.extras t - loyaltyDamagePerAttack :=
      fun b hb hbid => (h₁ b hb hbid).lasts hs hf hadj hfirst
    cases hafter with
    | repelled => exact (h₁ blank hblank hid).attacked rfl rfl rfl rfl rfl rfl rfl
    | eroded hl =>
      exact (h₁ blank hblank hid).eroded hs hne hblank hid hf hadj rfl rfl rfl rfl rfl rfl rfl
    | occupied hl => exact absurd (hlasts blank hblank hid) hl.not_gt
    | @toppled n o players hl ho _ _ hel =>
      have hmem := hs.owners t o ho
      have hel' : s.players.eliminate o = .ok players := hel
      rw [PlayerManager.eliminate_ok hs.ids hmem, Except.ok.injEq] at hel'
      subst hel'
      have hin : "" ∈ s.players.bySeat.map Player.id := by
        rw [← PlayerManager.marked_ids s.players o, ← hid]
        exact List.mem_map_of_mem hblank
      obtain ⟨b, hb, hbid⟩ := List.mem_map.mp hin
      exact absurd (hlasts b hb hbid) hl.not_gt
    | annexed hl => exact absurd (hlasts blank hblank hid) hl.not_gt

end Boardgame.Kingdoms
