import Boardgame.Kingdoms.Sound

/-!
# Kingdoms.Setup

The state `createGameState(kingdomsScenario)` returns.

* `fresh_state`: what it is, field by field.
* `fresh_sound`: it is `Sound`.
-/

namespace Boardgame.Kingdoms

variable {R : Type}

/-! ## Placing a player -/

/-- The pieces `onSetup` gives a player, in order. -/
def startingPieces (player : Player) (tid : TileId) : List (PieceId × Piece) :=
  let hp : Stats :=
    .ofEntries [("hp", ((structureStats "capital-base").map StructureDef.hp).getD 0)]
  let capitalId := "capital-" ++ player.id
  let sp1 := "sp-" ++ player.id ++ "-1"
  let sp2 := "sp-" ++ player.id ++ "-2"
  let no1 := "noble-" ++ player.id ++ "-0"
  [ (capitalId,
      makeUnitFromRegistry kingdomsPieces capitalId "capital-base" player.id tid (some hp)),
    (sp1, makeUnitFromRegistry kingdomsPieces sp1 "spearman" player.id tid),
    (sp2, makeUnitFromRegistry kingdomsPieces sp2 "spearman" player.id tid),
    (no1, makeUnitFromRegistry kingdomsPieces no1 "noble" player.id tid) ]

theorem placePlayer_run {s : KState R} {player : Player} (tid : TileId) {inv : Inventory}
    (hinv : s.inventories.get? player.id = some inv) (hw : inv.Whole) :
    ∃ inv', (placePlayer player tid).run s =
        .ok ()
          (({ s with pieces := s.pieces.setAll (startingPieces player tid) }
            : KState R).setInventory player.id inv') ∧
      inv'.Whole := by
  set s₁ : KState R :=
    { s with pieces := s.pieces.setAll (startingPieces player tid) }
  have hs₁ : s₁.setInventory player.id inv = s₁ := GameState.setInventory_self hinv
  have hput : ∀ (i : Inventory) (r : ResourceType) (n : ℕ), i.Whole →
      (i.put r (i.get r + n)).Whole := by
    intro i r n hi r'
    rw [Inventory.get_put]
    split
    · obtain ⟨m, hm⟩ := hi r
      exact ⟨m + n, by rw [hm, Nat.cast_add]⟩
    · exact hi r'
  obtain ⟨i₁, h₁, rfl⟩ := addTo_trades s₁ player.id inv "wood" (q := ((10 : ℕ) : ℚ))
    (Nat.cast_nonneg _)
  obtain ⟨i₂, h₂, rfl⟩ := addTo_trades s₁ player.id _ "food" (q := ((8 : ℕ) : ℚ))
    (Nat.cast_nonneg _)
  obtain ⟨i₃, h₃, rfl⟩ := addTo_trades s₁ player.id _ "iron" (q := ((6 : ℕ) : ℚ))
    (Nat.cast_nonneg _)
  obtain ⟨i₄, h₄, rfl⟩ := addTo_trades s₁ player.id _ "gold" (q := ((30 : ℕ) : ℚ))
    (Nat.cast_nonneg _)
  refine ⟨_, ?_, hput _ "gold" 30 (hput _ "iron" 6 (hput _ "food" 8 (hput inv "wood" 10 hw)))⟩
  have hmod : (modify fun s : KState R =>
      { s with pieces := s.pieces.setAll (startingPieces player tid) } : KExec R Unit).run s =
        .ok () s₁ := rfl
  rw [hs₁] at h₁
  have := Eff.bind_ok (f := fun _ => (do
    addTo player.id "wood" ((10 : ℕ) : ℚ)
    addTo player.id "food" ((8 : ℕ) : ℚ)
    addTo player.id "iron" ((6 : ℕ) : ℚ)
    addTo player.id "gold" ((30 : ℕ) : ℚ) : KExec R Unit)) hmod
  rw [Eff.bind_ok h₁, Eff.bind_ok h₂, Eff.bind_ok h₃, h₄] at this
  exact this

theorem placeAll_run : ∀ (es : List (Player × TileId)) (s : KState R),
    (∀ e ∈ es, ∃ inv, s.inventories.get? e.1.id = some inv) →
    (∀ id inv, s.inventories.get? id = some inv → inv.Whole) →
    ∃ invs, (Eff.each (fun e => placePlayer e.1 e.2) es).run s =
        .ok () { s with
          pieces := s.pieces.setAll (es.flatMap fun e => startingPieces e.1 e.2)
          inventories := invs } ∧
      (∀ id inv, s.inventories.get? id = some inv → ∃ inv', invs.get? id = some inv') ∧
      ∀ id inv, invs.get? id = some inv → inv.Whole := by
  intro es
  induction es with
  | nil => intro s _ hw; exact ⟨s.inventories, rfl, fun id inv h => ⟨inv, h⟩, hw⟩
  | cons e es ih =>
    intro s hinv hw
    obtain ⟨inv, hi⟩ := hinv e (by simp)
    obtain ⟨inv', h₁, hw'⟩ := placePlayer_run e.2 hi (hw _ _ hi)
    set s₁ : KState R := ({ s with pieces := s.pieces.setAll (startingPieces e.1 e.2) } :
      KState R).setInventory e.1.id inv' with hs₁
    have hkeep : ∀ id inv, s.inventories.get? id = some inv →
        ∃ inv', s₁.inventories.get? id = some inv' := by
      intro id inv h
      rw [hs₁, GameState.setInventory_get?]
      split
      · exact ⟨_, rfl⟩
      · exact ⟨inv, h⟩
    have hwhole : ∀ id inv, s₁.inventories.get? id = some inv → inv.Whole := by
      intro id inv h
      rw [hs₁, GameState.setInventory_get?] at h
      split at h
      · cases h; exact hw'
      · exact hw id inv h
    obtain ⟨invs, h₂, hsome, hws⟩ := ih s₁
      (fun e' he' => by obtain ⟨i, h⟩ := hinv e' (by simp [he']); exact hkeep _ _ h) hwhole
    refine ⟨invs, ?_, fun id inv h => ?_, hws⟩
    · rw [Eff.each, Eff.bind_ok h₁, h₂, List.flatMap_cons, OrderedMap.setAll_append]
      rfl
    · obtain ⟨i, hi⟩ := hkeep id inv h
      exact hsome id i hi

/-! ## The fresh state -/

/-- The state of a game nobody has acted in. -/
structure Fresh (opts : GameSetupOptions) (s : KState R) : Prop where
  size : 2 ≤ opts.players.length ∧ opts.players.length ≤ 4
  map : s.map = buildKingdomsMap opts.players.length opts.seed
  players : s.players = .new opts.players
  clockwise : s.rounds.turnOrder = .clockwise
  round : s.rounds.round = 1
  turn : s.rounds.turn.activePlayer ∈ opts.players.map Player.id
  pieces : s.pieces = .ofEntries ((seats opts.players).flatMap fun e => startingPieces e.1 e.2)
  extras : s.extras =
    { ownership := .ofEntries ((seats opts.players).map fun e => (e.2, e.1.id))
      capitals := .ofEntries ((seats opts.players).map fun e => (e.1.id, e.2))
      nextPieceId := 100 }
  purses : ∀ p ∈ opts.players, ∃ inv, s.inventories.get? p.id = some inv
  whole : ∀ id inv, s.inventories.get? id = some inv → inv.Whole
  history : s.history = []
  status : s.status = .setup

theorem mem_seats {players : List Player} {e : Player × TileId} (h : e ∈ seats players) :
    e.1 ∈ players := by
  simp only [seats, List.mem_map] at h
  obtain ⟨d, hd, rfl⟩ := h
  exact (List.of_mem_zip hd).1

/-- `onSetup` returns, and leaves a fresh state. -/
theorem onSetup_run [Strength R] (opts : GameSetupOptions) (rounds : RoundManager) :
    ∃ s, (onSetup opts.players).run (freshState (kingdomsScenario R) opts rounds) = .ok () s ∧
      (rounds.turnOrder = .clockwise ∧ rounds.round = 1 ∧
        rounds.turn.activePlayer ∈ opts.players.map Player.id →
        2 ≤ opts.players.length ∧ opts.players.length ≤ 4 → Fresh opts s) := by
  obtain ⟨hpurse, hempty⟩ := starting_inventories opts.players
  obtain ⟨invs, hrun, hsome, hwhole⟩ := placeAll_run (seats opts.players)
    (freshState (kingdomsScenario R) opts rounds)
    (fun e he => ⟨_, hpurse e.1 (mem_seats he)⟩)
    (fun id inv hi => by rw [hempty id inv hi]; exact fun r => ⟨0, by simp⟩)
  refine ⟨_, (Eff.bind_ok hrun).trans rfl, fun hround hsize => ?_⟩
  exact
    { size := hsize
      map := by simp only [setExtras, freshState, kingdomsScenario]
      players := rfl
      clockwise := hround.1
      round := hround.2.1
      turn := hround.2.2
      pieces := rfl
      extras := rfl
      purses := fun p hp => hsome _ _ (hpurse p hp)
      whole := hwhole
      history := rfl
      status := rfl }

theorem fresh_state [Strength R] {opts : GameSetupOptions} {s : KState R}
    (h : createGameState (kingdomsScenario R) opts = .ok s) : Fresh opts s := by
  obtain ⟨hsize, rounds, hrm, hset⟩ := createGameState_ok h
  obtain ⟨s', hrun, hfresh⟩ := onSetup_run (R := R) opts rounds
  have hset' : (onSetup opts.players).run (freshState (kingdomsScenario R) opts rounds) =
      .ok () s := hset
  rw [hrun] at hset'
  cases hset'
  exact hfresh (RoundManager.new_clockwise hrm) hsize

/-- Two to four players, one of them active, make a game. -/
theorem createGameState_returns [Strength R] {opts : GameSetupOptions} {p : Player}
    (hp : p ∈ opts.players) (hactive : p.isActive = true)
    (hsize : 2 ≤ opts.players.length ∧ opts.players.length ≤ 4) :
    ∃ s, createGameState (kingdomsScenario R) opts = .ok s := by
  have hphase : (kingdomsScenario R).initialPhaseId ∈ (kingdomsScenario R).phases.map Phase.id :=
    List.mem_singleton_self _
  obtain ⟨rounds, hrounds⟩ := RoundManager.new_returns hphase hp hactive
  obtain ⟨_, hrun, -⟩ := onSetup_run (R := R) opts rounds
  exact ⟨_, Boardgame.createGameState_returns hsize hrounds hrun⟩

/-! ## The map -/

theorem kingdomsMap_tile {n : Nat} {seed : String} {id : TileId} {tile : Tile}
    (h : (buildKingdomsMap n seed).tileById id = some tile) :
    tile.coord ∈ allCoords ∧ tile.id = id ∧ tileId tile.coord = id := by
  obtain ⟨hm, hid⟩ := GameMap.tileById_build h
  obtain ⟨i, hi, rfl⟩ := List.mem_mapIdx.mp hm
  exact ⟨List.getElem_mem hi, hid, hid⟩

theorem tileId_inj {c d : AxialCoord} (hc : c ∈ allCoords) (hd : d ∈ allCoords)
    (h : tileId c = tileId d) : c = d := by
  have hnd : (allCoords.map tileId).Nodup := by decide +kernel
  exact List.inj_on_of_nodup_map hnd hc hd h

theorem kingdomsMap_adjacent {n : Nat} {seed : String} {c : AxialCoord} (hc : c ∈ allCoords)
    {t : TileId} (h : isAdjacent (buildKingdomsMap n seed) (tileId c) t = true) :
    ∃ d ∈ allCoords, tileId d = t ∧ isNeighbour c d = true := by
  unfold isAdjacent at h
  split at h
  · cases h
  · rename_i tile htile
    obtain ⟨hcoord, _, hid⟩ := kingdomsMap_tile htile
    have hct : tile.coord = c := tileId_inj hcoord hc hid
    simp only [GameMap.neighboursOf, List.any_filter, List.any_eq_true, Bool.and_eq_true,
      decide_eq_true_eq, GameMap.mem_tiles] at h
    obtain ⟨x, ⟨id, hx⟩, hn, rfl⟩ := h
    obtain ⟨hxc, hxid, hxt⟩ := kingdomsMap_tile hx
    exact ⟨x.coord, hxc, hxt.trans hxid.symm, hct ▸ hn⟩

/-- No tile lies next to two starting tiles. -/
theorem starting_apart {n : Nat} (hn : 2 ≤ n ∧ n ≤ 4) {c c' : AxialCoord}
    (hc : c ∈ kingdomsStartingCoords n) (hc' : c' ∈ kingdomsStartingCoords n) {m : Nat}
    {seed : String} {t : TileId} (h : isAdjacent (buildKingdomsMap m seed) (tileId c) t = true)
    (h' : isAdjacent (buildKingdomsMap m seed) (tileId c') t = true) : c = c' := by
  have hon : ∀ c ∈ kingdomsStartingCoords n, c ∈ allCoords := by
    obtain rfl | rfl | rfl : n = 2 ∨ n = 3 ∨ n = 4 := by omega
    all_goals decide +kernel
  have hfar : ∀ c ∈ kingdomsStartingCoords n, ∀ c' ∈ kingdomsStartingCoords n, ∀ d ∈ allCoords,
      isNeighbour c d = true → isNeighbour c' d = true → c = c' := by
    obtain rfl | rfl | rfl : n = 2 ∨ n = 3 ∨ n = 4 := by omega
    all_goals decide +kernel
  obtain ⟨d, hd, rfl, hcd⟩ := kingdomsMap_adjacent (hon c hc) h
  obtain ⟨d', hd', hdd, hcd'⟩ := kingdomsMap_adjacent (hon c' hc') h'
  rw [tileId_inj hd' hd hdd] at hcd'
  exact hfar c hc c' hc' d hd hcd hcd'

/-! ## Seats and ids -/

theorem startingCoords_length {n : Nat} (h : 2 ≤ n ∧ n ≤ 4) :
    (kingdomsStartingCoords n).length = n := by
  obtain rfl | rfl | rfl : n = 2 ∨ n = 3 ∨ n = 4 := by omega
  all_goals rfl

section Seats

variable {players : List Player} (hn : 2 ≤ players.length ∧ players.length ≤ 4)

include hn

/-- Every player is seated. -/
theorem seats_players : (seats players).map Prod.fst = players := by
  rw [seats, List.map_map]
  have : (Prod.fst ∘ fun e : Player × AxialCoord => (e.1, tileId e.2)) = Prod.fst := rfl
  rw [this, List.map_fst_zip (by rw [startingCoords_length hn])]

theorem seats_tiles :
    (seats players).map Prod.snd = (kingdomsStartingCoords players.length).map tileId := by
  rw [seats, List.map_map]
  have : (Prod.snd ∘ fun e : Player × AxialCoord => (e.1, tileId e.2)) = tileId ∘ Prod.snd := rfl
  rw [this, ← List.map_map, List.map_snd_zip (by rw [startingCoords_length hn])]

theorem seat_of {p : Player} (hp : p ∈ players) : ∃ t, (p, t) ∈ seats players := by
  rw [← seats_players hn] at hp
  obtain ⟨e, he, rfl⟩ := List.mem_map.mp hp
  exact ⟨e.2, he⟩

theorem seats_ids_nodup (hid : (players.map Player.id).Nodup) :
    (((seats players).map fun e => (e.1.id, e.2)).map Prod.fst).Nodup := by
  have : ((seats players).map fun e => (e.1.id, e.2)).map Prod.fst =
      ((seats players).map Prod.fst).map Player.id := by simp
  rw [this, seats_players hn]
  exact hid

theorem seats_tiles_nodup :
    (((seats players).map fun e => (e.2, e.1.id)).map Prod.fst).Nodup := by
  have : ((seats players).map fun e => (e.2, e.1.id)).map Prod.fst =
      (seats players).map Prod.snd := by
    simp
  rw [this, seats_tiles hn]
  generalize players.length = n at hn
  obtain rfl | rfl | rfl : n = 2 ∨ n = 3 ∨ n = 4 := by omega
  all_goals decide +kernel

end Seats

/-- The ids `onSetup` gives a player's pieces. -/
def startingIds (id : PlayerId) : List PieceId :=
  ["capital-" ++ id, "sp-" ++ id ++ "-1", "sp-" ++ id ++ "-2", "noble-" ++ id ++ "-0"]

theorem startingPieces_ids (player : Player) (t : TileId) :
    (startingPieces player t).map Prod.fst = startingIds player.id := rfl

theorem startingIds_nodup (id : PlayerId) : (startingIds id).Nodup := by
  simp [startingIds, ← String.toList_inj]

/-- The id of a starting piece tells its player. -/
theorem startingIds_inj {a b : PlayerId} {i : PieceId} (ha : i ∈ startingIds a)
    (hb : i ∈ startingIds b) : a = b := by
  simp only [startingIds, List.mem_cons, List.not_mem_nil, or_false] at ha hb
  rcases ha with rfl | rfl | rfl | rfl <;> rcases hb with h | h | h | h <;>
    rw [← String.toList_inj] at h ⊢ <;> simp at h <;>
      first
        | exact h
        | exact (List.append_inj' h rfl).1

theorem seats_pieces_nodup {players : List Player} (hn : 2 ≤ players.length ∧ players.length ≤ 4)
    (hid : (players.map Player.id).Nodup) :
    (((seats players).flatMap fun e => startingPieces e.1 e.2).map Prod.fst).Nodup := by
  have hmap : ((seats players).flatMap fun e => startingPieces e.1 e.2).map Prod.fst =
      (players.map Player.id).flatMap startingIds := by
    rw [List.map_flatMap]
    conv_rhs => rw [← seats_players hn, List.map_map, List.flatMap_map]
    rfl
  rw [hmap, List.nodup_flatMap]
  refine ⟨fun id _ => startingIds_nodup id, hid.imp fun {a b} hab => ?_⟩
  exact fun i ha hb => hab (startingIds_inj ha hb)

section Fresh

variable {opts : GameSetupOptions} {s : KState R}

theorem Fresh.piece (hf : Fresh opts s) (hid : (opts.players.map Player.id).Nodup) {id : PieceId}
    {q : Piece} :
    s.pieces.get? id = some q ↔ ∃ e ∈ seats opts.players, (id, q) ∈ startingPieces e.1 e.2 := by
  rw [hf.pieces, OrderedMap.get?_ofEntries (seats_pieces_nodup hf.size hid), List.mem_flatMap]

theorem Fresh.owner (hf : Fresh opts s) {t : TileId} {o : PlayerId} :
    s.extras.ownership.get? t = some o ↔ ∃ e ∈ seats opts.players, e.2 = t ∧ e.1.id = o := by
  rw [hf.extras, OrderedMap.get?_ofEntries (seats_tiles_nodup hf.size), List.mem_map]
  simp only [Prod.mk.injEq]

theorem Fresh.capital (hf : Fresh opts s) (hid : (opts.players.map Player.id).Nodup) {t : TileId}
    {o : PlayerId} :
    s.extras.capitals.get? o = some t ↔ ∃ e ∈ seats opts.players, e.1.id = o ∧ e.2 = t := by
  rw [hf.extras, OrderedMap.get?_ofEntries (seats_ids_nodup hf.size hid), List.mem_map]
  simp only [Prod.mk.injEq]

theorem Fresh.roster (hf : Fresh opts s) {id : PlayerId} :
    id ∈ s.players.bySeat.map Player.id ↔ id ∈ opts.players.map Player.id := by
  rw [hf.players]
  exact (PlayerManager.new_ids opts.players).mem_iff

theorem Fresh.active (hf : Fresh opts s) {p : Player} (hp : p ∈ s.players.bySeat) :
    p.isActive = true := PlayerManager.new_active (hf.players ▸ hp)

/-- A starting piece: its id, its owner, its tile, its kind. -/
theorem startingPieces_facts {player : Player} {t : TileId} {id : PieceId} {q : Piece}
    (h : (id, q) ∈ startingPieces player t) :
    q.id = id ∧ id ∈ startingIds player.id ∧ q.owner = player.id ∧ tileOf q = some t ∧
      q.kind ∈ pieceKinds ∧ (q.kind ∈ structureKinds → id = "capital-" ++ player.id) := by
  refine ⟨?_, ?_, ?_, ?_, ?_, ?_⟩
  · simp only [startingPieces, List.mem_cons, List.not_mem_nil, or_false, Prod.mk.injEq] at h
    rcases h with ⟨rfl, rfl⟩ | ⟨rfl, rfl⟩ | ⟨rfl, rfl⟩ | ⟨rfl, rfl⟩ <;> rfl
  · rw [← startingPieces_ids player t]
    exact List.mem_map_of_mem h
  all_goals
    simp only [startingPieces, List.mem_cons, List.not_mem_nil, or_false, Prod.mk.injEq] at h
    rcases h with ⟨rfl, rfl⟩ | ⟨rfl, rfl⟩ | ⟨rfl, rfl⟩ | ⟨rfl, rfl⟩
  all_goals first | rfl | exact fun _ => rfl | skip
  all_goals simp [makeUnitFromRegistry, makeUnit, pieceKinds, structureKinds, structureDefs,
    unitKinds, unitDefs]

theorem fresh_sound (hf : Fresh opts s) (hid : (opts.players.map Player.id).Nodup)
    (hseat : (opts.players.map Player.seat).Nodup) : Sound s where
  ids := by
    rw [hf.players]
    exact (List.Perm.nodup_iff (PlayerManager.new_ids opts.players)).mpr hid
  seats := by rw [hf.players]; exact PlayerManager.new_sorted hseat
  clockwise := hf.clockwise
  turn := by
    obtain ⟨p, hp, hcur⟩ := List.mem_map.mp (hf.roster.mpr hf.turn)
    exact ⟨p, hp, hf.active hp, hcur⟩
  purses p hp := by
    obtain ⟨q, hq, hqid⟩ := List.mem_map.mp (hf.roster.mp (List.mem_map_of_mem hp))
    obtain ⟨inv, hinv⟩ := hf.purses q hq
    exact ⟨inv, hqid ▸ hinv⟩
  whole := hf.whole
  keyed id q h := by
    obtain ⟨e, _, he⟩ := (hf.piece hid).mp h
    exact (startingPieces_facts he).1
  named := by
    cases h : s.pieces.get? "" with
    | none => rfl
    | some q =>
      obtain ⟨e, _, he⟩ := (hf.piece hid).mp h
      have := (startingPieces_facts he).2.1
      simp [startingIds, ← String.toList_inj] at this
  owners t o h := by
    obtain ⟨e, he, _, rfl⟩ := hf.owner.mp h
    exact hf.roster.mpr (List.mem_map_of_mem (mem_seats he))

end Fresh

/-! ## Runs -/

section Runs

variable [Strength R]

abbrev KGame (R : Type) := Game KingdomsExtras KingdomsPayload (KingdomsEvent R)

abbrev KCall (R : Type) := Game.Call KingdomsPayload (KingdomsEvent R)

omit [Strength R] in
theorem sound_frame {s : KState R} (hs : Sound s) (status : GamePhaseStatus)
    (history : List (ActionHistoryEntry KingdomsPayload (KingdomsEvent R))) :
    Sound { s with status, history } := { hs with }

/-- The rule for invariants of Kingdoms runs: they hold at the start and every effect keeps them. -/
theorem kingdoms_inv {I : KState R → Prop}
    (frame : ∀ s status history, I s → I { s with status, history })
    (keep : ∀ s payload evs s', Sound s → s.rounds.turn.activePlayer ≠ "" → I s →
      Effect s s.rounds.turn.activePlayer payload evs s' → I s')
    {opts : GameSetupOptions} (hid : (opts.players.map Player.id).Nodup)
    (hseat : (opts.players.map Player.seat).Nodup)
    (init : ∀ s, Fresh opts s → Sound s → I s) {calls : List (KCall R)} {g : KGame R}
    (h : Game.RunFrom (kingdomsScenario R) opts calls g) : Sound g.state ∧ I g.state := by
  obtain ⟨s, hs, htr⟩ := h
  have hf := fresh_state hs
  have hsound := fresh_sound hf hid hseat
  refine Game.state_inv no_rules (I := fun s => Sound s ∧ I s)
    (fun s st hi hI => ⟨sound_frame hI.1 st hi, frame s st hi hI.2⟩) ?_ htr
    ⟨hsound, init s hf hsound⟩
  rintro s a ⟨hs, hI⟩ hv
  obtain ⟨_, hne, evs, s', hx, heff⟩ := accepted_effect hs hv
  exact ⟨evs, s', hx, heff.sound hs, keep s a.payload evs s' hs hne hI heff⟩

end Runs

end Boardgame.Kingdoms
