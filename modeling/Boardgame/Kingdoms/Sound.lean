import Boardgame.Kingdoms.Effects

/-!
# Kingdoms.Sound

An accepted action keeps a state `Sound` (`Effect.sound`).
-/

namespace Boardgame.Kingdoms

variable {R : Type} {s : KState R} {p : PlayerId}

/-! ## Paying -/

theorem Paid.whole (hs : Sound s) {cost : OrderedMap ResourceType ℚ} {inv' : Inventory}
    (hw : ∀ e ∈ cost.entries, ∃ n : ℕ, e.2 = n) (h : Paid s p cost inv') : inv'.Whole := by
  obtain ⟨inv, hinv, hle, hget⟩ := h
  intro r
  obtain ⟨n, hn⟩ := hs.whole _ _ hinv r
  rw [hget, amountOf]
  cases hr : cost.get? r with
  | none => exact ⟨n, by simp [hn]⟩
  | some q =>
    obtain ⟨m, hm⟩ := hw (r, q) (OrderedMap.mem_entries.mpr hr)
    have hmn : (m : ℚ) ≤ n := by
      rw [← hm, ← hn]
      exact hle (r, q) (OrderedMap.mem_entries.mpr hr)
    simp only at hm
    exact ⟨n - m, by rw [Option.getD_some, hn, hm, Nat.cast_sub (by exact_mod_cast hmn)]⟩

theorem whole_credited {inv inv' : Inventory} (hinv : inv.Whole)
    {refund : OrderedMap ResourceType ℚ} (hw : ∀ e ∈ refund.entries, ∃ n : ℕ, e.2 = n)
    (hget : ∀ r, inv'.get r = inv.get r + amountOf refund r) : inv'.Whole := by
  intro r
  obtain ⟨n, hn⟩ := hinv r
  rw [hget, amountOf]
  cases hr : refund.get? r with
  | none => exact ⟨n, by simp [hn]⟩
  | some q =>
    obtain ⟨m, hm⟩ := hw (r, q) (OrderedMap.mem_entries.mpr hr)
    simp only at hm
    exact ⟨n + m, by rw [Option.getD_some, hn, hm, Nat.cast_add]⟩

/-! ## One lemma per kind of change -/

namespace Sound

theorem setInventory (hs : Sound s) {inv' : Inventory} (hw : inv'.Whole) :
    Sound (s.setInventory p inv') where
  ids := hs.ids
  seats := hs.seats
  clockwise := hs.clockwise
  turn := hs.turn
  purses pl hpl := by
    obtain ⟨inv, hinv⟩ := hs.purses pl hpl
    rw [GameState.setInventory_get?]
    split
    · exact ⟨inv', rfl⟩
    · exact ⟨inv, hinv⟩
  whole id inv h := by
    rw [GameState.setInventory_get?] at h
    split at h
    · cases h; exact hw
    · exact hs.whole id inv h
  keyed := hs.keyed
  named := hs.named
  owners := hs.owners

/-- A piece under its own id, which is not the empty one. -/
theorem setPiece (hs : Sound s) (id : PieceId) (piece : Piece) (hid : piece.id = id) (hne : id ≠ "")
    {x : KingdomsExtras} (hx : x.ownership = s.extras.ownership) :
    Sound { s with pieces := s.pieces.set id piece, extras := x } where
  ids := hs.ids
  seats := hs.seats
  clockwise := hs.clockwise
  turn := hs.turn
  purses := hs.purses
  whole := hs.whole
  keyed i q h := by
    rw [OrderedMap.get?_set] at h
    split at h
    · rename_i hi; cases h; rw [hid, hi]
    · exact hs.keyed i q h
  named := by rw [OrderedMap.get?_set, if_neg (Ne.symm hne)]; exact hs.named
  owners t o h := hs.owners t o (hx ▸ h)

/-- Fewer pieces, another generator state. -/
theorem fewerPieces (hs : Sound s) {pieces : OrderedMap PieceId Piece} {rng : SeededRandom}
    (h : ∀ id q, pieces.get? id = some q → s.pieces.get? id = some q) :
    Sound { s with pieces, rng } where
  ids := hs.ids
  seats := hs.seats
  clockwise := hs.clockwise
  turn := hs.turn
  purses := hs.purses
  whole := hs.whole
  keyed i q hq := hs.keyed i q (h i q hq)
  named := by
    cases hq : pieces.get? "" with
    | none => rfl
    | some q => exact absurd (h _ _ hq) (by rw [hs.named]; simp)
  owners := hs.owners

/-- Extras that name no new owner. -/
theorem setExtras (hs : Sound s) {f : KingdomsExtras → KingdomsExtras}
    (h : ∀ t o, (f s.extras).ownership.get? t = some o → o ∈ s.players.bySeat.map Player.id) :
    Sound (setExtras f s) where
  ids := hs.ids
  seats := hs.seats
  clockwise := hs.clockwise
  turn := hs.turn
  purses := hs.purses
  whole := hs.whole
  keyed := hs.keyed
  named := hs.named
  owners := h

theorem eliminated (hs : Sound s) {o : PlayerId} (ho : o ≠ s.rounds.turn.activePlayer) :
    Sound (eliminated s o (s.players.marked o)) where
  ids := by simpa [Kingdoms.eliminated] using hs.ids
  seats := PlayerManager.marked_sorted hs.seats o
  clockwise := hs.clockwise
  turn := by
    obtain ⟨pl, hpl, hact, hcur⟩ := hs.turn
    have hne : pl.id ≠ o := fun h => ho (h ▸ hcur)
    obtain ⟨hm, ha⟩ := PlayerManager.mem_marked_active.mpr ⟨hpl, hact, hne⟩
    exact ⟨pl, hm, ha, hcur⟩
  purses pl hpl := by
    have : pl.id ∈ s.players.bySeat.map Player.id := by
      rw [← PlayerManager.marked_ids s.players o]
      exact List.mem_map_of_mem hpl
    obtain ⟨pl', hpl', hid⟩ := List.mem_map.mp this
    obtain ⟨inv, hinv⟩ := hs.purses pl' hpl'
    exact ⟨inv, hid ▸ hinv⟩
  whole := hs.whole
  keyed i q hq := by
    simp only [Kingdoms.eliminated, OrderedMap.get?_filter, Option.filter_eq_some_iff] at hq
    exact hs.keyed i q hq.1
  named := by
    simp only [Kingdoms.eliminated, OrderedMap.get?_filter, hs.named, Option.filter_none]
  owners t o' h := by
    simp only [Kingdoms.eliminated, OrderedMap.get?_filter, Option.filter_eq_some_iff] at h
    simpa [Kingdoms.eliminated] using hs.owners t o' h.1

end Sound

/-! ## The end of a turn -/

/-- What an end of turn leaves of the rounds: the clockwise successor is on turn. -/
theorem endTurn_facts (hs : Sound s) {q : PlayerId} {b : Bool} {rounds : RoundManager}
    (h : s.rounds.endTurn s.players.all "command" = .ok (⟨q, b⟩, rounds)) :
    ∃ pl ∈ s.players.bySeat, ∃ ql ∈ s.players.bySeat, pl.isActive = true ∧ ql.isActive = true ∧
      pl.id = s.rounds.turn.activePlayer ∧ ql.id = q ∧
      ClockwiseSucc s.players.active pl ql ∧ b = decide (ql.seat ≤ pl.seat) ∧
      rounds.turnOrder = .clockwise ∧ rounds.turn.activePlayer = q ∧
      rounds.round = if b then s.rounds.round + 1 else s.rounds.round := by
  obtain ⟨pl, hpl, hact, hcur⟩ := hs.turn
  obtain ⟨ql, hql, hqa, hsucc, hend⟩ := RoundManager.endTurn_spec hs.seats hs.ids hs.clockwise hpl
    hact hcur.symm "command"
  have hall : s.players.all = s.players.bySeat := rfl
  rw [hall, hend] at h
  simp only [Except.ok.injEq, Prod.mk.injEq, RoundManager.TurnEnd.mk.injEq] at h
  obtain ⟨⟨rfl, rfl⟩, rfl⟩ := h
  refine ⟨pl, hpl, ql, hql, hact, hqa, hcur, rfl, hsucc, rfl, hs.clockwise, rfl, ?_⟩
  simp only [RoundManager.round, decide_eq_true_eq]

theorem Sound.setRounds (hs : Sound s) {q : PlayerId} {b : Bool} {rounds : RoundManager}
    (h : s.rounds.endTurn s.players.all "command" = .ok (⟨q, b⟩, rounds)) :
    Sound { s with rounds } := by
  obtain ⟨_, _, ql, hql, _, hqa, _, hq, _, _, hord, hcur, _⟩ := endTurn_facts hs h
  exact { hs with clockwise := hord, turn := ⟨ql, hql, hqa, hq.trans hcur.symm⟩ }

theorem Sound.setInventories (hs : Sound s) {invs : OrderedMap PlayerId Inventory} {s₁ : KState R}
    (hout : ∀ id, id ∉ s.players.active.map Player.id → invs.get? id = s.inventories.get? id)
    (hin : ∀ pl ∈ s.players.active, ∀ inv, s.inventories.get? pl.id = some inv →
      ∃ inv', invs.get? pl.id = some inv' ∧ inv'.get = cycleCount s₁ pl.id inv) :
    Sound { s with inventories := invs } := by
  have hpurse : ∀ pl ∈ s.players.bySeat, ∃ inv, invs.get? pl.id = some inv := by
    intro pl hpl
    obtain ⟨inv, hinv⟩ := hs.purses pl hpl
    by_cases hmem : pl.id ∈ s.players.active.map Player.id
    · obtain ⟨pl', hpl', hid⟩ := List.mem_map.mp hmem
      obtain ⟨inv', hinv', -⟩ := hin pl' hpl' inv (hid ▸ hinv)
      exact ⟨inv', hid ▸ hinv'⟩
    · exact ⟨inv, by rw [hout _ hmem, hinv]⟩
  refine { hs with purses := hpurse, whole := fun id inv h => ?_ }
  by_cases hmem : id ∈ s.players.active.map Player.id
  · obtain ⟨pl, hpl, rfl⟩ := List.mem_map.mp hmem
    obtain ⟨inv₀, hinv₀⟩ := hs.purses pl (active_sublist.subset hpl)
    obtain ⟨inv', hinv', hget⟩ := hin pl hpl inv₀ hinv₀
    have heq : inv = inv' := Option.some.inj (h.symm.trans hinv')
    intro r
    rw [heq, hget]
    exact cycleCount_whole (hs.whole _ _ hinv₀) r
  · exact hs.whole id inv (by rw [← hout id hmem]; exact h)

/-! ## One action -/

theorem nextId_ne : nextId s ≠ "" := by
  intro h
  have := congrArg String.length h
  simp [nextId] at this

theorem Sound.placed (hs : Sound s) (k : String) (t : TileId) : Sound (placed s k p t) :=
  hs.setPiece (nextId s) _ rfl nextId_ne rfl

theorem active_mem (hs : Sound s) :
    s.rounds.turn.activePlayer ∈ s.players.bySeat.map Player.id := by
  obtain ⟨pl, hpl, -, hcur⟩ := hs.turn
  exact hcur ▸ List.mem_map_of_mem hpl

theorem Sound.captured (hs : Sound s) (t : TileId) :
    Sound (captured s t s.rounds.turn.activePlayer) := by
  refine hs.setExtras fun t' o h => ?_
  simp only [OrderedMap.get?_set] at h
  split at h
  · cases h; exact active_mem hs
  · exact hs.owners t' o h

theorem transferred_get? (pieces : OrderedMap PieceId Piece) (d : Option (PieceId × Piece))
    (p : PlayerId) (id : PieceId) :
    (transferred pieces d p).get? id =
      if d.map Prod.fst = some id then (pieces.get? id).map fun q => { q with owner := p }
      else pieces.get? id := by
  unfold transferred
  cases d with
  | none => rfl
  | some e =>
    obtain ⟨i, piece⟩ := e
    simp only [Option.map_some, Option.some.injEq]
    by_cases hi : i = id
    · subst hi
      cases h : pieces.get? i with
      | none => simp [h]
      | some old => simp
    · rw [if_neg hi]
      cases pieces.get? i with
      | none => rfl
      | some old => simp [Ne.symm hi]

theorem Aftermath.sound (hs : Sound s) {t : TileId} {owner : Option PlayerId}
    (howner : owner = s.extras.ownership.get? t)
    (ht : s.extras.ownership.get? t ≠ some s.rounds.turn.activePlayer)
    {d : Option (PieceId × Piece)} {n : Option PieceId} {evs : List (KEvent R)} {s' : KState R}
    (h : Aftermath s s.rounds.turn.activePlayer t owner d n evs s') : Sound s' := by
  cases h with
  | repelled => exact hs
  | eroded _ => exact hs.setExtras hs.owners
  | occupied _ _ => exact hs.captured t
  | @toppled n o players _ ho _ _ hel =>
    have hmem := hs.owners t o (by rw [← howner, ho])
    rw [PlayerManager.eliminate_ok hs.ids hmem] at hel
    cases hel
    exact (hs.captured t).eliminated fun h => ht (by rw [← howner, ho, h]; rfl)
  | annexed _ _ _ _ =>
    have hcap := hs.captured t
    have hget : ∀ {id q}, (transferred s.pieces d s.rounds.turn.activePlayer).get? id = some q →
        ∃ old, s.pieces.get? id = some old ∧ old.id = q.id := by
      intro id q h
      rw [transferred_get?] at h
      split at h
      · obtain ⟨old, hold, rfl⟩ := Option.map_eq_some_iff.mp h
        exact ⟨old, hold, rfl⟩
      · exact ⟨q, h, rfl⟩
    refine { hcap with keyed := fun id q h => ?_, named := ?_ }
    · obtain ⟨old, hold, hid⟩ := hget h
      rw [← hid, hs.keyed id old hold]
    · cases h : (transferred s.pieces d s.rounds.turn.activePlayer).get? "" with
      | none => rfl
      | some q =>
        obtain ⟨old, hold, -⟩ := hget h
        rw [hs.named] at hold
        cases hold

/-- An accepted action keeps the state sound. -/
theorem Effect.sound (hs : Sound s) {payload : KingdomsPayload} {evs : List (KEvent R)}
    {s' : KState R} (h : Effect s s.rounds.turn.activePlayer payload evs s') : Sound s' := by
  cases h with
  | recruited _ hd _ _ hpaid =>
    exact (hs.setInventory (hpaid.whole hs (effectiveCost_whole hd))).placed _ _
  | built _ hd _ _ _ hpaid =>
    exact (hs.setInventory (hpaid.whole hs fun e he => cost_whole hd he)).placed _ _
  | @demolished t id piece inv inv' refund hst _ _ hinv href hget =>
    refine Sound.setInventory (s := { s with pieces := s.pieces.erase id })
      (hs.fewerPieces fun i q h => ?_)
      (whole_credited (hs.whole _ _ hinv) (href ▸ refundOf_whole _) hget)
    rw [OrderedMap.get?_erase] at h
    split at h
    · cases h
    · exact h
  | @moved id piece t hget _ _ _ _ =>
    refine hs.setPiece id { piece with location := .tile t } (hs.keyed id piece hget)
      (fun hid => ?_) rfl
    rw [hid, hs.named] at hget
    cases hget
  | @developed t tile inv inv' _ _ _ hinv hg hinv' =>
    refine (hs.setInventory ?_).setExtras hs.owners
    intro r
    rw [hinv', Inventory.get_put]
    split
    · obtain ⟨n, hn⟩ := hs.whole _ _ hinv "gold"
      refine natural_of_int (sub_nonneg.mpr hg) ⟨n - 8, ?_⟩
      rw [hn, developCost]
      push_cast
      rfl
    · exact hs.whole _ _ hinv r
  | @attacked f t ids losses survivor rng battle aftermath s₂ _ ht _ _ _ _ _ hafter =>
    have hs₁ : Sound { s with pieces := s.pieces.eraseAll losses, rng } := by
      refine hs.fewerPieces fun id q h => ?_
      rw [OrderedMap.get?_eraseAll] at h
      split at h
      · cases h
      · exact h
    have hs₂ : Sound s₂ := hafter.sound hs₁ rfl ht
    exact hs₂.setExtras hs₂.owners
  | turned hend => exact (hs.setRounds hend).setExtras hs.owners
  | wrapped hend hs₁ hout hin =>
    subst hs₁
    have h₁ : Sound (setExtras (fun x => { x with movedThisTurn := [], attackedFrom := [] })
        { s with rounds := _ }) := (hs.setRounds hend).setExtras hs.owners
    exact (h₁.setInventories hout hin).setExtras hs.owners

end Boardgame.Kingdoms
