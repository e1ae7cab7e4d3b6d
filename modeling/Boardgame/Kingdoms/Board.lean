import Boardgame.Kingdoms.Setup

/-!
# Kingdoms.Board

The consistency of the Kingdoms board over runs.

* `Board`: the invariant. Every piece stands on its owner's land, a tile carries one structure at
  most, a capital base stands on its owner's capital, and only players in the game own land.
* `Board.placed` and the lemmas after it: one for each kind of change.
-/

namespace Boardgame.Kingdoms

variable {R : Type}

structure Board (s : KState R) : Prop where
  kind : ∀ id q, s.pieces.get? id = some q → q.kind ∈ pieceKinds
  numbered : ∀ id q, s.pieces.get? id = some q → ∀ n : Nat, id = "kp-" ++ toString n →
    n ≤ s.extras.nextPieceId
  home : ∀ id q, s.pieces.get? id = some q →
    ∃ t, tileOf q = some t ∧ s.extras.ownership.get? t = some q.owner
  lone : ∀ id q id' q', s.pieces.get? id = some q → s.pieces.get? id' = some q' →
    q.kind ∈ structureKinds → q'.kind ∈ structureKinds → tileOf q = tileOf q' → id = id'
  crown : ∀ pl ∈ s.players.bySeat, pl.isActive = true →
    ∃ t id q, s.extras.capitals.get? pl.id = some t ∧ s.extras.ownership.get? t = some pl.id ∧
      s.pieces.get? id = some q ∧ q.kind = "capital-base" ∧ q.owner = pl.id ∧ tileOf q = some t
  throne : ∀ id q, s.pieces.get? id = some q → q.kind = "capital-base" →
    s.extras.capitals.get? q.owner = tileOf q
  ruled : ∀ t o, s.extras.ownership.get? t = some o →
    ∃ pl ∈ s.players.bySeat, pl.id = o ∧ pl.isActive = true

namespace Board

variable {s : KState R} {p : PlayerId}

/-! ## One lemma per kind of change -/

/-- The next id is not taken. -/
theorem nextId_free (hb : Board s) : s.pieces.get? (nextId s) = none := by
  cases h : s.pieces.get? (nextId s) with
  | none => rfl
  | some q =>
    have := hb.numbered _ q h (s.extras.nextPieceId + 1) rfl
    omega

theorem kp_inj {m n : Nat} (h : "kp-" ++ toString m = "kp-" ++ toString n) : m = n :=
  counter_inj ((String.append_right_inj _).mp h)

/-- The parts the board does not look at. -/
theorem congr (hb : Board s) {s' : KState R} (hp : s'.pieces = s.pieces)
    (hpl : s'.players = s.players) (ho : s'.extras.ownership = s.extras.ownership)
    (hc : s'.extras.capitals = s.extras.capitals)
    (hn : s'.extras.nextPieceId = s.extras.nextPieceId) : Board s' where
  kind := by rw [hp]; exact hb.kind
  numbered := by rw [hp, hn]; exact hb.numbered
  home := by rw [hp, ho]; exact hb.home
  lone := by rw [hp]; exact hb.lone
  crown := by rw [hpl, hc, ho, hp]; exact hb.crown
  throne := by rw [hp, hc]; exact hb.throne
  ruled := by rw [ho, hpl]; exact hb.ruled

/-- A new piece on its owner's land; a structure only where there is none, and no capital base. -/
theorem placed (hb : Board s) {k : String} {t : TileId} (hk : k ∈ pieceKinds)
    (hcap : k ≠ "capital-base") (ho : s.extras.ownership.get? t = some p)
    (hfree : k ∈ structureKinds → structureOnTile s t structureKinds = none) :
    Board (placed s k p t) := by
  set new := makeUnitFromRegistry kingdomsPieces (nextId s) k p t with hnew
  have hget : ∀ {id q}, (Kingdoms.placed s k p t).pieces.get? id = some q →
      (id = nextId s ∧ q = new) ∨ (id ≠ nextId s ∧ s.pieces.get? id = some q) := by
    intro id q h
    simp only [Kingdoms.placed, OrderedMap.get?_set] at h
    split at h
    · rename_i hid; cases h; exact .inl ⟨hid, rfl⟩
    · rename_i hid; exact .inr ⟨hid, h⟩
  refine
    { kind := fun id q h => ?_
      numbered := fun id q h n hid => ?_
      home := fun id q h => ?_
      lone := fun id q id' q' h h' hq hq' ht => ?_
      crown := fun pl hpl hact => ?_
      throne := fun id q h hq => ?_
      ruled := hb.ruled }
  · rcases hget h with ⟨_, rfl⟩ | ⟨_, h⟩
    · exact hk
    · exact hb.kind id q h
  · rcases hget h with ⟨rfl, _⟩ | ⟨_, h⟩
    · exact (kp_inj hid).ge
    · exact Nat.le_succ_of_le (hb.numbered id q h n hid)
  · rcases hget h with ⟨_, rfl⟩ | ⟨_, h⟩
    · exact ⟨t, rfl, ho⟩
    · exact hb.home id q h
  · rcases hget h with ⟨rfl, rfl⟩ | ⟨_, h⟩ <;> rcases hget h' with ⟨rfl, rfl⟩ | ⟨_, h'⟩
    · rfl
    · exact absurd ht.symm (structureOnTile_none (hfree hq) h' hq')
    · exact absurd ht (structureOnTile_none (hfree hq') h hq)
    · exact hb.lone id q id' q' h h' hq hq' ht
  · obtain ⟨t', id, q, hc, ho', hq, hk', how, htq⟩ := hb.crown pl hpl hact
    refine ⟨t', id, q, hc, ho', ?_, hk', how, htq⟩
    have hne : id ≠ nextId s := fun h => by rw [h, hb.nextId_free] at hq; cases hq
    simp only [Kingdoms.placed, OrderedMap.get?_set, if_neg hne, hq]
  · rcases hget h with ⟨_, rfl⟩ | ⟨_, h⟩
    · exact absurd hq hcap
    · exact hb.throne id q h hq

/-- Pieces removed, none of them a capital base. -/
theorem fewerPieces (hb : Board s) {pieces : OrderedMap PieceId Piece} {rng : SeededRandom}
    (hsub : ∀ id q, pieces.get? id = some q → s.pieces.get? id = some q)
    (hkeep : ∀ id q, s.pieces.get? id = some q → q.kind = "capital-base" →
      pieces.get? id = some q) :
    Board { s with pieces, rng } where
  kind id q h := hb.kind id q (hsub id q h)
  numbered id q h := hb.numbered id q (hsub id q h)
  home id q h := hb.home id q (hsub id q h)
  lone id q id' q' h h' := hb.lone id q id' q' (hsub id q h) (hsub id' q' h')
  crown pl hpl hact := by
    obtain ⟨t, id, q, hc, ho, hq, hk, how, ht⟩ := hb.crown pl hpl hact
    exact ⟨t, id, q, hc, ho, hkeep id q hq hk, hk, how, ht⟩
  throne id q h := hb.throne id q (hsub id q h)
  ruled := hb.ruled

theorem moved (hb : Board s) {id : PieceId} {piece : Piece} {t : TileId}
    (hget : s.pieces.get? id = some piece) (hu : piece.kind ∈ unitKinds)
    (ho : s.extras.ownership.get? t = some piece.owner) : Board (moved s id piece t) := by
  have hns : piece.kind ∉ structureKinds := unitKinds_not_structure hu
  have hcases : ∀ {i q}, (Kingdoms.moved s id piece t).pieces.get? i = some q →
      (i = id ∧ q = { piece with location := .tile t }) ∨ (i ≠ id ∧ s.pieces.get? i = some q) := by
    intro i q h
    simp only [Kingdoms.moved, OrderedMap.get?_set] at h
    split at h
    · rename_i hid; cases h; exact .inl ⟨hid, rfl⟩
    · rename_i hid; exact .inr ⟨hid, h⟩
  refine
    { kind := fun i q h => ?_
      numbered := fun i q h n hid => ?_
      home := fun i q h => ?_
      lone := fun i q i' q' h h' hq hq' ht => ?_
      crown := fun pl hpl hact => ?_
      throne := fun i q h hq => ?_
      ruled := hb.ruled }
  · rcases hcases h with ⟨_, rfl⟩ | ⟨_, h⟩
    · exact hb.kind id piece hget
    · exact hb.kind i q h
  · rcases hcases h with ⟨rfl, _⟩ | ⟨_, h⟩
    · exact hb.numbered i piece hget n hid
    · exact hb.numbered i q h n hid
  · rcases hcases h with ⟨_, rfl⟩ | ⟨_, h⟩
    · exact ⟨t, rfl, ho⟩
    · exact hb.home i q h
  · rcases hcases h with ⟨_, rfl⟩ | ⟨_, h⟩
    · exact absurd hq hns
    · rcases hcases h' with ⟨_, rfl⟩ | ⟨_, h'⟩
      · exact absurd hq' hns
      · exact hb.lone i q i' q' h h' hq hq' ht
  · obtain ⟨t', i, q, hc, ho', hq, hk, how, htq⟩ := hb.crown pl hpl hact
    refine ⟨t', i, q, hc, ho', ?_, hk, how, htq⟩
    have hne : i ≠ id := by
      rintro rfl
      rw [hget, Option.some.injEq] at hq
      exact hns (hq ▸ hk ▸ capital_base_structure)
    simp only [Kingdoms.moved, OrderedMap.get?_set, if_neg hne, hq]
  · rcases hcases h with ⟨_, rfl⟩ | ⟨_, h⟩
    · exact absurd (show piece.kind = "capital-base" from hq)
        fun h => hns (h ▸ capital_base_structure)
    · exact hb.throne i q h hq

/-! ## Captures -/

/-- An unowned tile falls to a player in the game. -/
theorem occupied (hb : Board s) {t : TileId} (hfree : s.extras.ownership.get? t = none)
    (hp : ∃ pl ∈ s.players.bySeat, pl.id = p ∧ pl.isActive = true) : Board (captured s t p) where
  kind := hb.kind
  numbered := hb.numbered
  home id q h := by
    obtain ⟨t', ht', ho'⟩ := hb.home id q h
    have hne : t' ≠ t := fun he => by rw [he, hfree] at ho'; cases ho'
    exact ⟨t', ht', by simp only [captured, setExtras, OrderedMap.get?_set, if_neg hne, ho']⟩
  lone := hb.lone
  crown pl hpl hact := by
    obtain ⟨t', id, q, hc, ho', hq⟩ := hb.crown pl hpl hact
    have hne : t' ≠ t := fun he => by rw [he, hfree] at ho'; cases ho'
    exact ⟨t', id, q, hc, by simp only [captured, setExtras, OrderedMap.get?_set, if_neg hne, ho'],
      hq⟩
  throne := hb.throne
  ruled t' o h := by
    simp only [captured, setExtras, OrderedMap.get?_set] at h
    split at h
    · cases h; exact hp
    · exact hb.ruled t' o h

/-- A capital falls: its owner leaves with every piece and every tile. -/
theorem toppled (hb : Board s) {t : TileId} {o : PlayerId} (ho : s.extras.ownership.get? t = some o)
    (hpo : p ≠ o) (hp : ∃ pl ∈ s.players.bySeat, pl.id = p ∧ pl.isActive = true) :
    Board (eliminated (captured s t p) o (s.players.marked o)) := by
  have hpieces : ∀ {id q}, (eliminated (captured s t p) o (s.players.marked o)).pieces.get? id =
      some q ↔
      s.pieces.get? id = some q ∧ q.owner ≠ o := by
    intro id q
    simp only [eliminated, captured, setExtras, OrderedMap.get?_filter, Option.filter_eq_some_iff,
      decide_eq_true_eq]
  have howned : ∀ {t' o'}, (eliminated (captured s t p) o
      (s.players.marked o)).extras.ownership.get? t' =
      some o' ↔ (if t' = t then some p else s.extras.ownership.get? t') = some o' ∧ o' ≠ o := by
    intro t' o'
    simp only [eliminated, captured, setExtras, OrderedMap.get?_filter, OrderedMap.get?_set,
      Option.filter_eq_some_iff, decide_eq_true_eq]
  have hactive : ∀ {pl : Player}, pl ∈ (s.players.marked o).bySeat → pl.isActive = true →
      pl ∈ s.players.bySeat ∧ pl.isActive = true ∧ pl.id ≠ o :=
    fun h h' => PlayerManager.mem_marked_active.mp ⟨h, h'⟩
  have hstill : ∀ {pl : Player}, pl ∈ s.players.bySeat → pl.isActive = true → pl.id ≠ o →
      pl ∈ (s.players.marked o).bySeat := fun h h' h'' =>
    (PlayerManager.mem_marked_active.mpr ⟨h, h', h''⟩).1
  refine
    { kind := fun id q h => hb.kind id q (hpieces.mp h).1
      numbered := fun id q h => hb.numbered id q (hpieces.mp h).1
      home := fun id q h => ?_
      lone := fun id q id' q' h h' => hb.lone id q id' q' (hpieces.mp h).1 (hpieces.mp h').1
      crown := fun pl hpl hact => ?_
      throne := fun id q h => hb.throne id q (hpieces.mp h).1
      ruled := fun t' o' h => ?_ }
  · obtain ⟨hq, hqo⟩ := hpieces.mp h
    obtain ⟨t', ht', ho'⟩ := hb.home id q hq
    have hne : t' ≠ t := fun he => by
      rw [he, ho, Option.some.injEq] at ho'
      exact hqo ho'.symm
    exact ⟨t', ht', howned.mpr ⟨by rw [if_neg hne]; exact ho', hqo⟩⟩
  · obtain ⟨hpl', _, hne⟩ := hactive hpl hact
    obtain ⟨t', id, q, hc, ho', hq, hk, how, ht'⟩ := hb.crown pl hpl' hact
    have hne' : t' ≠ t := fun he => by
      rw [he, ho, Option.some.injEq] at ho'
      exact hne ho'.symm
    exact ⟨t', id, q, hc, howned.mpr ⟨by rw [if_neg hne']; exact ho', hne⟩,
      hpieces.mpr ⟨hq, how ▸ hne⟩, hk, how, ht'⟩
  · obtain ⟨h, hne⟩ := howned.mp h
    split at h
    · cases h
      obtain ⟨pl, hpl, rfl, hact⟩ := hp
      exact ⟨pl, hstill hpl hact hpo, rfl, hact⟩
    · obtain ⟨pl, hpl, rfl, hact⟩ := hb.ruled t' o' h
      exact ⟨pl, hstill hpl hact hne, rfl, hact⟩

section Transfer

variable {t : TileId} {d : Option (PieceId × Piece)}

/-- A transfer changes the piece on the tile, and only its owner. -/
theorem transferred_cases (hd : ∀ id piece, d = some (id, piece) → ∀ q, s.pieces.get? id = some q →
    tileOf q = some t)
    (hclear : ∀ id q, s.pieces.get? id = some q → tileOf q = some t → ∃ piece, d = some (id, piece))
    {id : PieceId} {q : Piece} (h : (transferred s.pieces d p).get? id = some q) :
    (tileOf q ≠ some t ∧ s.pieces.get? id = some q) ∨
      (tileOf q = some t ∧ q.owner = p ∧ ∃ old, s.pieces.get? id = some old ∧
        q = { old with owner := p }) := by
  rw [transferred_get?] at h
  split at h
  · rename_i hid
    obtain ⟨⟨i, piece⟩, rfl, rfl⟩ := Option.map_eq_some_iff.mp hid
    obtain ⟨old, hold, rfl⟩ := Option.map_eq_some_iff.mp h
    exact .inr ⟨hd _ _ rfl old hold, rfl, old, hold, rfl⟩
  · rename_i hid
    refine .inl ⟨fun ht => ?_, h⟩
    obtain ⟨piece, rfl⟩ := hclear id q h ht
    exact hid rfl

theorem transferred_elsewhere
    (hd : ∀ id piece, d = some (id, piece) → ∀ q, s.pieces.get? id = some q → tileOf q = some t)
    {id : PieceId} {q : Piece} (h : s.pieces.get? id = some q) (ht : tileOf q ≠ some t) :
    (transferred s.pieces d p).get? id = some q := by
  rw [transferred_get?, if_neg ?_, h]
  intro hid
  obtain ⟨⟨i, piece⟩, rfl, rfl⟩ := Option.map_eq_some_iff.mp hid
  exact ht (hd _ _ rfl q h)

end Transfer

/-- Another tile falls: its units are dead, and its structure changes hands. -/
theorem annexed (hb : Board s) {t : TileId} {o : PlayerId} (ho : s.extras.ownership.get? t = some o)
    (hcap : s.extras.capitals.get? o ≠ some t)
    (hp : ∃ pl ∈ s.players.bySeat, pl.id = p ∧ pl.isActive = true)
    {d : Option (PieceId × Piece)}
    (hd : ∀ id piece, d = some (id, piece) → ∀ q, s.pieces.get? id = some q → tileOf q = some t)
    (hclear : ∀ id q, s.pieces.get? id = some q → tileOf q = some t →
      ∃ piece, d = some (id, piece)) :
    Board { captured s t p with pieces := transferred s.pieces d p } := by
  have hpieces := @transferred_cases _ s p t d hd hclear
  -- a piece is of its kind and on its tile before the transfer
  have hsame : ∀ {id q}, (transferred s.pieces d p).get? id = some q →
      ∃ r, s.pieces.get? id = some r ∧ r.kind = q.kind ∧ tileOf r = tileOf q := by
    intro id q h
    rcases hpieces h with ⟨_, h⟩ | ⟨_, _, old, hold, rfl⟩
    · exact ⟨q, h, rfl, rfl⟩
    · exact ⟨old, hold, rfl, rfl⟩
  have howned : ∀ {t'}, (captured s t p).extras.ownership.get? t' =
      if t' = t then some p else s.extras.ownership.get? t' := OrderedMap.get?_set _ _ _ _
  refine
    { kind := fun id q h => ?_
      numbered := fun id q h => ?_
      home := fun id q h => ?_
      lone := fun id q id' q' h h' hq hq' ht => ?_
      crown := fun pl hpl hact => ?_
      throne := fun id q h hq => ?_
      ruled := fun t' o' h => ?_ }
  · rcases hpieces h with ⟨_, h⟩ | ⟨_, _, old, hold, rfl⟩
    · exact hb.kind id q h
    · exact hb.kind id old hold
  · rcases hpieces h with ⟨_, h⟩ | ⟨_, _, old, hold, _⟩
    · exact hb.numbered id q h
    · exact hb.numbered id old hold
  · rcases hpieces h with ⟨hne, h⟩ | ⟨ht, how, _⟩
    · obtain ⟨t', ht', ho'⟩ := hb.home id q h
      exact ⟨t', ht', by rw [howned, if_neg fun he => hne (by rw [ht', he])]; exact ho'⟩
    · exact ⟨t, ht, by rw [howned, if_pos rfl, how]⟩
  · obtain ⟨r, hr, hrk, hrt⟩ := hsame h
    obtain ⟨r', hr', hrk', hrt'⟩ := hsame h'
    exact hb.lone id r id' r' hr hr' (hrk ▸ hq) (hrk' ▸ hq') (by rw [hrt, hrt', ht])
  · obtain ⟨t', id, q, hc, ho', hq, hk, how, htq⟩ := hb.crown pl hpl hact
    have hne : t' ≠ t := by
      rintro rfl
      rw [ho, Option.some.injEq] at ho'
      exact hcap (ho' ▸ hc)
    exact ⟨t', id, q, hc, by rw [howned, if_neg hne]; exact ho',
      transferred_elsewhere hd hq (by rw [htq, ne_eq, Option.some.injEq]; exact hne), hk, how, htq⟩
  · rcases hpieces h with ⟨_, h⟩ | ⟨ht, _, old, hold, rfl⟩
    · exact hb.throne id q h hq
    · -- a capital base on `t` would make it the capital of the tile's owner
      obtain ⟨t', ht', ho'⟩ := hb.home id old hold
      have hth := hb.throne id old hold hq
      have htt : t' = t := by
        have hold_t : tileOf old = some t := ht
        rw [ht', Option.some.injEq] at hold_t
        exact hold_t
      rw [htt, ho, Option.some.injEq] at ho'
      rw [← ho', ht', htt] at hth
      exact absurd hth hcap
  · rw [howned] at h
    split at h
    · cases h; exact hp
    · exact hb.ruled t' o' h

/-! ## One action -/

/-- The pieces of a fight's survivors. -/
theorem eraseAll_sub {losses : List PieceId} {id : PieceId} {q : Piece}
    (h : (s.pieces.eraseAll losses).get? id = some q) :
    id ∉ losses ∧ s.pieces.get? id = some q := by
  rw [OrderedMap.get?_eraseAll] at h
  split at h
  · cases h
  · rename_i hid; exact ⟨hid, h⟩

/-- Only units fall in a fight. -/
theorem loss_unit {f t : TileId} {ids : Option (List PieceId)} {losses : List PieceId}
    {survivor : Option PieceId}
    (hforce : ∀ id ∈ attackForce s p f ids, id ∈ unitsOnTile s f (some p) unitKinds)
    (hbattle : Battle s p f t ids losses survivor) {id : PieceId} {q : Piece}
    (hq : s.pieces.get? id = some q) (hid : id ∈ losses) : q.kind ∈ unitKinds := by
  have hon : ∀ {k o}, id ∈ unitsOnTile s k o unitKinds → q.kind ∈ unitKinds := by
    intro k o h
    obtain ⟨r, hr, hk, -⟩ := mem_unitsOnTile.mp h
    rw [hq, Option.some.injEq] at hr
    exact hr ▸ hk
  rcases hbattle.lost id hid with h | h
  · exact hon (hforce id h)
  · exact hon h

theorem keeps_structure {f t : TileId} {ids : Option (List PieceId)}
    {losses : List PieceId} {survivor : Option PieceId}
    (hforce : ∀ id ∈ attackForce s p f ids, id ∈ unitsOnTile s f (some p) unitKinds)
    (hbattle : Battle s p f t ids losses survivor) {id : PieceId} {q : Piece}
    (hq : s.pieces.get? id = some q) (hk : q.kind ∈ structureKinds) :
    (s.pieces.eraseAll losses).get? id = some q := by
  rw [OrderedMap.get?_eraseAll, if_neg, hq]
  intro hid
  exact unitKinds_not_structure (loss_unit hforce hbattle hq hid) hk

end Board

/-- What the captures of an action must avoid: a tile of a player whose id is empty. -/
def NoBlankCapture (s : KState R) (payload : KingdomsPayload) : Prop :=
  ∀ f t ids, payload = .attackTile f t ids → loyaltyOf s.extras t - loyaltyDamagePerAttack ≤ 0 →
    s.extras.ownership.get? t ≠ some ""

/-- An accepted action keeps the board consistent. -/
theorem Effect.board {s : KState R} {payload : KingdomsPayload} {evs : List (KEvent R)}
    {s' : KState R} (hb : Board s) (hs : Sound s) (hblank : NoBlankCapture s payload)
    (h : Effect s s.rounds.turn.activePlayer payload evs s') : Board s' := by
  obtain ⟨pl, hpl, hact, hcur⟩ := hs.turn
  have hp : ∃ pl ∈ s.players.bySeat, pl.id = s.rounds.turn.activePlayer ∧ pl.isActive = true :=
    ⟨pl, hpl, hcur, hact⟩
  cases h with
  | @recruited t k d inv' hk hd ho _ _ =>
    have hinv : Board (s.setInventory s.rounds.turn.activePlayer inv') :=
      hb.congr rfl rfl rfl rfl rfl
    exact hinv.placed (List.mem_append_right _ hk)
      (fun h => unitKinds_not_structure hk (h ▸ capital_base_structure)) ho
      fun hs => absurd hs (unitKinds_not_structure hk)
  | @built t k d inv' hk hd ho hfree _ _ =>
    have hinv : Board (s.setInventory s.rounds.turn.activePlayer inv') :=
      hb.congr rfl rfl rfl rfl rfl
    exact hinv.placed (List.mem_append_left _ (buildable_structure hk).1)
      (buildable_structure hk).2 ho
      fun _ => hfree
  | @demolished t id piece inv inv' refund hst hcap _ _ _ _ =>
    have herase : Board { s with pieces := s.pieces.erase id } := by
      refine hb.fewerPieces (fun i q h => ?_) (fun i q h hk => ?_)
      · rw [OrderedMap.get?_erase] at h
        split at h
        · cases h
        · exact h
      · rw [OrderedMap.get?_erase, if_neg, h]
        rintro rfl
        rw [(structureOnTile_some hst).1, Option.some.injEq] at h
        exact hcap (h ▸ hk)
    exact herase.congr rfl rfl rfl rfl rfl
  | @moved id piece t hget hown hu _ ho => exact hb.moved hget hu (hown ▸ ho)
  | developed => exact hb.congr rfl rfl rfl rfl rfl
  | @attacked f t ids losses survivor rng battle aftermath s₂ hf ht _ _ hforce _ hbattle hafter =>
    have hb₁ : Board { s with pieces := s.pieces.eraseAll losses, rng } :=
      hb.fewerPieces (fun id q h => (Board.eraseAll_sub h).2) fun id q h hk =>
        Board.keeps_structure hforce hbattle h (hk ▸ capital_base_structure)
    have hb₂ : Board s₂ := by
      cases hafter with
      | repelled => exact hb₁
      | eroded => exact hb₁.congr rfl rfl rfl rfl rfl
      | occupied hl hnone =>
        refine hb₁.occupied ?_ hp
        have hne := hblank f t ids rfl hl
        cases ho : s.extras.ownership.get? t with
        | none => rfl
        | some o => rw [ho] at hnone hne; exact absurd (congrArg some hnone) hne
      | @toppled n o players hl ho hne hc hel =>
        have hmem := hs.owners t o ho
        have hplayers : players = s.players.marked o := by
          have := PlayerManager.eliminate_ok hs.ids hmem
          have hel' : s.players.eliminate o = .ok players := hel
          rw [this, Except.ok.injEq] at hel'
          exact hel'.symm
        subst hplayers
        exact hb₁.toppled ho (fun h => ht (by rw [ho, h])) hp
      | @annexed n o hl ho hne hc =>
        refine hb₁.annexed ho hc hp ?_ ?_
        · intro id piece hd q hq
          obtain ⟨hpiece, _, htile⟩ := structureOnTile_some hd
          have := (Board.eraseAll_sub hq).2
          rw [hpiece, Option.some.injEq] at this
          exact this ▸ htile
        · -- the units on `t` fell, so what stands there is the one structure
          intro id q hq htile
          obtain ⟨hnl, hq'⟩ := Board.eraseAll_sub hq
          have hk : q.kind ∈ structureKinds := by
            rcases List.mem_append.mp (hb.kind id q hq') with h | h
            · exact h
            · exact absurd ((hbattle.somebody n rfl).2.2.2 id
                (mem_unitsOnTile.mpr ⟨q, hq', h, htile, .inl rfl⟩)) hnl
          cases hd : structureOnTile s t structureKinds with
          | none => exact absurd htile (structureOnTile_none hd hq' hk)
          | some e =>
            obtain ⟨i, r⟩ := e
            obtain ⟨hr, hrk, hrt⟩ := structureOnTile_some hd
            exact ⟨r, by rw [hb.lone id q i r hq' hr hk hrk (htile.trans hrt.symm)]⟩
    exact hb₂.congr rfl rfl rfl rfl rfl
  | turned => exact hb.congr rfl rfl rfl rfl rfl
  | wrapped _ hs₁ => subst hs₁; exact hb.congr rfl rfl rfl rfl rfl

end Boardgame.Kingdoms
