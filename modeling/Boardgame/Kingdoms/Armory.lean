import Boardgame.Core.Battle
import Boardgame.Kingdoms.Consistent

/-!
# Kingdoms.Armory

What never changes in a Kingdoms game: the attack value of a piece, the map and the capitals.

* `Effect.origin`: where the pieces after an action come from.
* `armory_reachable`: every unit attacks with the value of its kind, and the map and the capitals
  are those of the setup.
* `tiles_named`, `target_named`: an attack is on a tile of the map, and never on a player with an
  empty id.
-/

namespace Boardgame.Kingdoms

variable {R : Type} {s s' : KState R}

/-! ## Pieces -/

/-- A unit whose own attack value is the one of its kind. -/
def Armed (q : Piece) : Prop :=
  q.kind ∈ unitKinds → q.stats.bind (·.get? "attack") = (unitStats q.kind).map UnitDef.attack

theorem armed_new (id : PieceId) (k : String) (p : PlayerId) (t : TileId) (st : Option Stats) :
    Armed (makeUnitFromRegistry kingdomsPieces id k p t st) := by
  have hall : ∀ k ∈ unitKinds, (if (kingdomsPieces.getDefaultStats k).entries.length > 0 then
      some (kingdomsPieces.getDefaultStats k) else none).bind (·.get? "attack") =
        (unitStats k).map UnitDef.attack := by decide +kernel
  exact fun hk => hall k hk

theorem Armed.combatant {q : Piece} (h : Armed q) (hk : q.kind ∈ unitKinds) (id : PieceId) :
    some (combatantOf id q).attack = (unitStats q.kind).map UnitDef.attack := by
  rw [← h hk, combatantOf, pieceAsCombatant]
  cases hs : q.stats.bind (·.get? "attack") with
  | some attack => rfl
  | none =>
    have hnone := (h hk).symm.trans hs
    have hsome : ∀ k ∈ unitKinds, (unitStats k).isSome = true := by decide
    have := hsome q.kind hk
    rw [Option.map_eq_none_iff] at hnone
    rw [hnone] at this
    cases this

theorem fighters_strong (harm : ∀ id q, s.pieces.get? id = some q → Armed q) {t : TileId}
    {o : Option PlayerId} {ids : List PieceId} (hids : ∀ id ∈ ids, id ∈ unitsOnTile s t o unitKinds)
      : Strong (fighters s ids) := by
  have hall : ∀ k ∈ unitKinds, ∀ q ∈ (unitStats k).map UnitDef.attack, 0 < q := by decide +kernel
  intro c hc
  obtain ⟨id, hid, hc⟩ := List.mem_filterMap.mp hc
  obtain ⟨q, hq, rfl⟩ := Option.map_eq_some_iff.mp hc
  obtain ⟨q', hq', hk, -⟩ := mem_unitsOnTile.mp (hids id hid)
  rw [hq, Option.some.injEq] at hq'
  subst hq'
  exact hall q.kind hk _ ((harm id q hq).combatant hk id).symm

/-- The piece is the one `q₀` was: it may have moved or changed hands. -/
def Stays (q₀ q : Piece) : Prop := q.kind = q₀.kind ∧ q.stats = q₀.stats

theorem Stays.armed {q₀ q : Piece} (h : Stays q₀ q) (h₀ : Armed q₀) : Armed q := by
  rw [Armed, h.1, h.2]
  exact h₀

/-- Pieces after an action were there before it, or are new. -/
theorem Effect.origin {p : PlayerId} {payload : KingdomsPayload} {evs : List (KEvent R)}
    (h : Effect s p payload evs s') {id : PieceId} {q : Piece} (hq : s'.pieces.get? id = some q) :
    (∃ q₀, s.pieces.get? id = some q₀ ∧ Stays q₀ q) ∨
      ∃ k t, q = makeUnitFromRegistry kingdomsPieces id k p t := by
  have hsame : s.pieces.get? id = some q → ∃ q₀, s.pieces.get? id = some q₀ ∧ Stays q₀ q :=
    fun h => ⟨q, h, rfl, rfl⟩
  have hplaced : ∀ {s₀ : KState R} {k : String} {t : TileId}, s₀.pieces = s.pieces →
      (placed s₀ k p t).pieces.get? id = some q → (∃ q₀, s.pieces.get? id = some q₀ ∧ Stays q₀ q) ∨
        ∃ k t, q = makeUnitFromRegistry kingdomsPieces id k p t := by
    intro s₀ k t hp hget
    rw [placed, OrderedMap.get?_set, hp] at hget
    split at hget
    · rename_i hid
      cases hget
      exact .inr ⟨k, t, by rw [hid]⟩
    · exact .inl (hsame hget)
  cases h with
  | recruited => exact hplaced rfl hq
  | built => exact hplaced rfl hq
  | demolished =>
    refine .inl (hsame ?_)
    simp only [GameState.setInventory, OrderedMap.get?_erase] at hq
    split at hq
    · cases hq
    · exact hq
  | @moved i piece t hget =>
    simp only [Kingdoms.moved, OrderedMap.get?_set] at hq
    split at hq
    · rename_i hid
      cases hq
      exact .inl ⟨piece, hid ▸ hget, rfl, rfl⟩
    · exact .inl (hsame hq)
  | developed => exact .inl (hsame hq)
  | @attacked f t ids losses survivor rng battle aftermath s₂ hf ht hadj hfirst hforce hbody
      hbattle hafter =>
    have hq₂ : s₂.pieces.get? id = some q := hq
    have hleft : ∀ {r : Piece}, (s.pieces.eraseAll losses).get? id = some r →
        s.pieces.get? id = some r :=
      fun h => (Board.eraseAll_sub h).2
    cases hafter with
    | repelled => exact .inl (hsame (hleft hq₂))
    | eroded => exact .inl (hsame (hleft hq₂))
    | occupied => exact .inl (hsame (hleft hq₂))
    | toppled =>
      simp only [eliminated, captured, setExtras, OrderedMap.get?_filter,
        Option.filter_eq_some_iff] at hq₂
      exact .inl (hsame (hleft hq₂.1))
    | annexed =>
      simp only [transferred_get?] at hq₂
      split at hq₂
      · obtain ⟨old, hold, rfl⟩ := Option.map_eq_some_iff.mp hq₂
        exact .inl ⟨old, hleft hold, rfl, rfl⟩
      · exact .inl (hsame (hleft hq₂))
  | turned => exact .inl (hsame hq)
  | wrapped _ hs₁ =>
    subst hs₁
    exact .inl (hsame hq)

/-! ## The ground -/

/-- The map and the capitals are those of the setup. -/
structure Ground (opts : GameSetupOptions) (s : KState R) : Prop where
  map : s.map = buildKingdomsMap opts.players.length opts.seed
  capital : ∀ o t, s.extras.capitals.get? o = some t →
    ∃ e ∈ seats opts.players, e.1.id = o ∧ e.2 = t

theorem Effect.ground {p : PlayerId} {payload : KingdomsPayload} {evs : List (KEvent R)}
    (h : Effect s p payload evs s') : s'.map = s.map ∧ s'.extras.capitals = s.extras.capitals := by
  cases h with
  | recruited | built | demolished | moved | developed | turned => exact ⟨rfl, rfl⟩
  | attacked _ _ _ _ _ _ _ hafter =>
    cases hafter with
    | repelled | eroded | occupied | toppled | annexed => exact ⟨rfl, rfl⟩
  | wrapped _ hs₁ =>
    subst hs₁
    exact ⟨rfl, rfl⟩

/-- Starting tiles do not touch. -/
theorem starting_not_adjacent {n : Nat} (hn : 2 ≤ n ∧ n ≤ 4) {c c' : AxialCoord}
    (hc : c ∈ kingdomsStartingCoords n) (hc' : c' ∈ kingdomsStartingCoords n) {m : Nat}
    {seed : String} :
    isAdjacent (buildKingdomsMap m seed) (tileId c) (tileId c') = false := by
  have hon : ∀ c ∈ kingdomsStartingCoords n, c ∈ allCoords := by
    obtain rfl | rfl | rfl : n = 2 ∨ n = 3 ∨ n = 4 := by omega
    all_goals decide +kernel
  have hfar : ∀ c ∈ kingdomsStartingCoords n, ∀ c' ∈ kingdomsStartingCoords n, isNeighbour c c' =
      false := by
    obtain rfl | rfl | rfl : n = 2 ∨ n = 3 ∨ n = 4 := by omega
    all_goals decide +kernel
  rw [Bool.eq_false_iff]
  intro h
  obtain ⟨d, hd, hdt, hcd⟩ := kingdomsMap_adjacent (hon c hc) h
  rw [tileId_inj hd (hon c' hc') hdt, hfar c hc c' hc'] at hcd
  cases hcd

theorem tileId_ne (c : AxialCoord) : tileId c ≠ "" := by
  intro h
  have hlen := congrArg String.length h
  simp only [tileId, String.length_append] at hlen
  have : ",".length = 1 := rfl
  have : "".length = 0 := rfl
  omega

/-- Tiles next to each other are on the map. -/
theorem tiles_named {opts : GameSetupOptions} {s : KState R} (hground : Ground opts s)
    {f t : TileId} (hadj : isAdjacent s.map f t = true) :
    (∃ tile, s.map.tileById f = some tile) ∧ (∃ tile, s.map.tileById t = some tile) ∧ f ≠ "" ∧
    t ≠ "" := by
  have hkeyed : ∀ {id tile}, s.map.tileById id = some tile → tile.id = id ∧ id ≠ "" := by
    intro id tile h
    rw [hground.map] at h
    obtain ⟨-, hid, hcoord⟩ := kingdomsMap_tile h
    exact ⟨hid, hcoord ▸ tileId_ne _⟩
  unfold isAdjacent at hadj
  split at hadj
  · cases hadj
  · rename_i from_ hfrom
    obtain ⟨x, hx, hxt⟩ := List.any_eq_true.mp hadj
    obtain ⟨id, hget⟩ := GameMap.mem_tiles.mp (List.mem_filter.mp hx).1
    obtain ⟨hid, hne⟩ := hkeyed hget
    have hidt : id = t := hid.symm.trans (of_decide_eq_true hxt)
    exact ⟨⟨_, hfrom⟩, ⟨x, hidt ▸ hget⟩, (hkeyed hfrom).2, hidt ▸ hne⟩

/-! ## Runs -/

structure Armory (opts : GameSetupOptions) (s : KState R) : Prop where
  armed : ∀ id q, s.pieces.get? id = some q → Armed q
  ground : Ground opts s

variable [Strength R] {opts : GameSetupOptions}

theorem armory_reachable (hid : (opts.players.map Player.id).Nodup)
    (hseat : (opts.players.map Player.seat).Nodup) {calls : List (KCall R)} {g : KGame R}
    (h : Game.RunFrom (kingdomsScenario R) opts calls g) :
    Armory opts g.state := by
  refine (kingdoms_inv (I := Armory opts) ?_ ?_ hid hseat ?_ h).2
  · exact fun s st hi hI => ⟨hI.armed, hI.ground.map, hI.ground.capital⟩
  · rintro s payload evs s' _ _ hI heff
    obtain ⟨hmap, hcap⟩ := heff.ground
    refine ⟨fun id q hq => ?_, hmap.trans hI.ground.map, fun o t ht =>
      hI.ground.capital o t (hcap ▸ ht)⟩
    rcases heff.origin hq with ⟨q₀, h₀, hstays⟩ | ⟨k, t, rfl⟩
    · exact hstays.armed (hI.armed id q₀ h₀)
    · exact armed_new _ _ _ _ _
  · intro s hf _
    refine ⟨fun id q hq => ?_, hf.map, fun o t ht => (hf.capital hid).mp ht⟩
    obtain ⟨e, -, he⟩ := (hf.piece hid).mp hq
    simp only [startingPieces, List.mem_cons, List.not_mem_nil, or_false, Prod.mk.injEq] at he
    rcases he with ⟨-, rfl⟩ | ⟨-, rfl⟩ | ⟨-, rfl⟩ | ⟨-, rfl⟩ <;> exact armed_new _ _ _ _ _

/-- Nobody attacks a tile of a player with an empty id. -/
theorem target_named (hid : (opts.players.map Player.id).Nodup)
    (hseat : (opts.players.map Player.seat).Nodup) {calls : List (KCall R)} {g : KGame R}
    (h : Game.RunFrom (kingdomsScenario R) opts calls g) {p : PlayerId} {f t : TileId}
    (hf : g.state.extras.ownership.get? f = some p) (hadj : isAdjacent g.state.map f t = true) :
    g.state.extras.ownership.get? t ≠ some "" := by
  obtain ⟨hs, _, hfirst⟩ := board_reachable hid hseat h
  obtain ⟨_, hground⟩ := armory_reachable hid hseat h
  have hsize : 2 ≤ opts.players.length ∧ opts.players.length ≤ 4 := by
    obtain ⟨_, hset, _⟩ := h
    exact (createGameState_ok hset).1
  intro ht
  obtain ⟨blank, hblank, hbid⟩ := List.mem_map.mp (hs.owners t "" ht)
  have hpass := hfirst blank hblank hbid
  have hstart : ∀ o c, g.state.extras.ownership.get? c = some o →
      ∃ d ∈ kingdomsStartingCoords opts.players.length, tileId d = c := by
    intro o c ho
    obtain ⟨e, he, _, rfl⟩ := hground.capital o c (hpass.own c o ho)
    have hmem := List.mem_map_of_mem (f := Prod.snd) he
    rw [seats_tiles hsize] at hmem
    exact List.mem_map.mp hmem
  obtain ⟨c, hc, rfl⟩ := hstart p f hf
  obtain ⟨c', hc', rfl⟩ := hstart "" t ht
  rw [hground.map, starting_not_adjacent hsize hc hc'] at hadj
  cases hadj

end Boardgame.Kingdoms
