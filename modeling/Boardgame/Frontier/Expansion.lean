import Boardgame.Core.Connectivity
import Boardgame.Core.Hex
import Boardgame.Frontier.Escrow
import Boardgame.Lib.Parts

/-!
# Frontier.Expansion

How the territories grow. A player who does not leap claims next to land they have, so a territory
has one connected part, and one more for each leap paid for.

A flag's id joins the player's id and the tile's with a dash, and both may have dashes of their own.
Two flags may then have one id, and the second takes the first off the board.

* `Growth`: what an accepted action does to the flags on the board and to the flags of the turn.
* `parts_step`: a step keeps the bound on the parts.
* `expansion_iff`: along every run, as long as no flag takes the place of another.
* `expanded_of_length`: with ids of one length none does.
-/

namespace Boardgame.Frontier

/-! ## Territories -/

/-- A flag of the player stands on the tile. -/
def Holds (s : FState) (p : PlayerId) (t : TileId) : Prop :=
  ∃ id flag, s.pieces.get? id = some flag ∧ flag.owner = p ∧ tileOf flag = some t

def territory (s : FState) (p : PlayerId) : Set TileId := {t | Holds s p t}

/-- The tiles of a map, each with its neighbours. -/
def tileGraph (m : GameMap) : SimpleGraph TileId := SimpleGraph.fromRel (Adjacent m)

/-- No tile carries two flags. -/
def Lone (s : FState) : Prop :=
  ∀ t id flag id' flag', s.pieces.get? id = some flag → s.pieces.get? id' = some flag' →
    tileOf flag = some t → tileOf flag' = some t → id = id'

/-- The map has its tiles under their ids, and the flags are the players', under the ids that
`flagId` makes. -/
structure Planted (s : FState) : Prop where
  keyed : ∀ id tile, s.map.tileById id = some tile → tile.id = id
  owners : ∀ id flag, s.pieces.get? id = some flag → flag.owner ∈ s.players.bySeat.map Player.id
  flags : ∀ id flag, s.pieces.get? id = some flag →
    ∃ t, id = flagId flag.owner t ∧ tileOf flag = some t
  lone : Lone s

theorem Planted.flag {s : FState} (hp : Planted s) {p : PlayerId} {t : TileId} (h : Holds s p t) :
    ∃ flag, s.pieces.get? (flagId p t) = some flag ∧ flag.owner = p ∧ tileOf flag = some t := by
  obtain ⟨id, flag, hget, rfl, ht⟩ := h
  obtain ⟨t', rfl, ht'⟩ := hp.flags id flag hget
  rw [ht, Option.some.injEq] at ht'
  exact ⟨flag, ht' ▸ hget, rfl, ht⟩

/-- A tile has one owner. -/
theorem Planted.owner {s : FState} (hp : Planted s) {p q : PlayerId} {t : TileId} (h : Holds s p t)
    (h' : Holds s q t) : p = q := by
  obtain ⟨id, flag, hget, rfl, ht⟩ := h
  obtain ⟨id', flag', hget', rfl, ht'⟩ := h'
  have hsame := hp.lone t id flag id' flag' hget hget' ht ht'
  rw [hsame, hget', Option.some.injEq] at hget
  rw [hget]

theorem not_occupied {s : FState} {t : TileId} (h : isTileOccupied s t = false) {id : PieceId}
    {flag : Piece} (hget : s.pieces.get? id = some flag) : tileOf flag ≠ some t := by
  intro ht
  have hocc : isTileOccupied s t = true :=
    List.any_eq_true.mpr ⟨flag, OrderedMap.mem_values.mpr ⟨id, hget⟩, by simpa using ht⟩
  rw [h] at hocc
  cases hocc

/-- The direction table of the claim test is that of the map. -/
theorem adjacentTo_isNeighbour {cs : List AxialCoord} {c : AxialCoord}
    (h : adjacentTo cs c = true) :
    ∃ o ∈ cs, isNeighbour o c = true := by
  obtain ⟨d, hd, h⟩ := List.any_eq_true.mp h
  obtain ⟨o, ho, h⟩ := List.any_eq_true.mp h
  rw [decide_eq_true_eq] at h
  refine ⟨o, ho, (isNeighbour_iff o c).mpr ?_⟩
  obtain ⟨hq, hr⟩ := h
  simp only [hexDirs, List.mem_cons, List.not_mem_nil, or_false] at hd
  unfold hexGap
  rcases hd with rfl | rfl | rfl | rfl | rfl | rfl <;> dsimp only at hq hr <;> omega

/-- A tile that passes the test touches the territory. -/
theorem touches {s : FState} (hp : Planted s) {p : PlayerId} {t : TileId} {tile : Tile}
    (htile : s.map.tileById t = some tile) (hfree : isTileOccupied s t = false)
    (h : adjacentTo (ownedTileCoords s p) tile.coord = true) :
    ∃ u ∈ territory s p, (tileGraph s.map).Adj u t := by
  obtain ⟨c, hc, hn⟩ := adjacentTo_isNeighbour h
  obtain ⟨flag, hflag, hcoord⟩ := List.mem_filterMap.mp hc
  obtain ⟨id, hget⟩ := OrderedMap.mem_values.mp hflag
  split at hcoord
  · rename_i howner
    obtain ⟨home, hhome, rfl⟩ := Option.map_eq_some_iff.mp hcoord
    obtain ⟨u, hu, hhome⟩ := Option.bind_eq_some_iff.mp hhome
    refine ⟨u, ⟨id, flag, hget, howner, hu⟩, (SimpleGraph.fromRel_adj _ _ _).mpr ⟨?_, .inl ?_⟩⟩
    · rintro rfl
      exact not_occupied hfree hget hu
    · exact ⟨home, hhome, tile, List.mem_filter.mpr ⟨GameMap.mem_tiles.mpr ⟨t, htile⟩, hn⟩,
        hp.keyed t tile htile⟩
  · cases hcoord

/-! ## One action -/

def isClaim : FrontierPayload → Bool
  | .claimTile _ => true
  | _ => false

/-- What an action that is accepted does to the board and the turn. -/
inductive Growth (s s' : FState) (p : PlayerId) : FrontierPayload → Prop where
  | claims {t : TileId} {tile : Tile} : s.map.tileById t = some tile → isTileOccupied s t = false →
      s.rounds.turn.flag "claimedThisTurn" = false →
      (s.rounds.turn.flag "stoneLeap" = false →
        adjacentTo (ownedTileCoords s p) tile.coord = true) →
      s'.pieces = s.pieces.set (flagId p t) (makeUnit (flagId p t) "flag" p t) →
      s'.rounds = (s.rounds.setFlag "claimedThisTurn" true).setFlag "stoneLeap" false →
      Growth s s' p (.claimTile t)
  | leaps : s.rounds.turn.flag "stoneLeap" = false → s'.pieces = s.pieces →
      s'.rounds = s.rounds.setFlag "stoneLeap" true → Growth s s' p (.trade "stone")
  | turns : s'.pieces = s.pieces → (∀ n, s'.rounds.turn.flag n = false) → Growth s s' p .endTurn
  | rests {payload : FrontierPayload} : s'.pieces = s.pieces → s'.rounds = s.rounds →
      (∀ t, payload ≠ .claimTile t) → payload ≠ .trade "stone" → Growth s s' p payload

theorem setFlag_flag (rm : RoundManager) (n m : String) (v : Bool) :
    (rm.setFlag n v).turn.flag m = if m = n then v else rm.turn.flag m := by
  simp only [RoundManager.setFlag, RoundManager.turn, Turn.flag, OrderedMap.get?_set]
  split <;> rfl

theorem endTurn_flags {rm rm' : RoundManager} {players : List Player} {phase : String}
    {e : RoundManager.TurnEnd} (h : rm.endTurn players phase = .ok (e, rm')) (n : String) :
    rm'.turn.flag n = false := by
  unfold RoundManager.endTurn at h
  cases hnext : rm.turnOrder.next rm.currentTurn.activePlayer players with
  | error e => simp [hnext, bind, Except.bind] at h
  | ok next =>
    simp only [hnext, bind, Except.bind, pure, Except.pure, Except.ok.injEq, Prod.mk.injEq] at h
    obtain ⟨-, rfl⟩ := h
    rfl

theorem claim_guards {s : FState} {p : PlayerId} {t : TileId} {tile : Tile}
    (hv : claimTileValidator s (some p) t = .ok ()) (htile : s.map.tileById t = some tile) :
    s.rounds.turn.flag "claimedThisTurn" = false ∧
      (s.rounds.turn.flag "stoneLeap" = false →
        adjacentTo (ownedTileCoords s p) tile.coord = true) := by
  simp only [claimTileValidator, Eff.except_seq_eq_ok, rejectIf_eq_ok, orReject_bind_ok] at hv
  obtain ⟨-, -, hclaimed, tile', htile', -, hleap⟩ := hv
  rw [htile, Option.some.injEq] at htile'
  subst htile'
  refine ⟨by simpa using hclaimed, fun hno => ?_⟩
  rw [if_pos hno] at hleap
  simp only [Eff.except_seq_eq_ok, actor_some] at hleap
  simpa using rejectIf_eq_ok.mp hleap.2

theorem leap_guard {s : FState} {p : PlayerId} (hv : tradeValidator s (some p) "stone" = .ok ()) :
    s.rounds.turn.flag "stoneLeap" = false := by
  simp only [tradeValidator, Eff.except_seq_eq_ok, rejectIf_eq_ok, purseOf, orThrow_bind_ok] at hv
  obtain ⟨-, -, _, -, -, hleap⟩ := hv
  simpa using hleap

theorem Effect.growth {s s' : FState} {p : PlayerId} {payload : FrontierPayload} {evs : List FEvent}
    (hv : validatePayload s (some p) payload = .ok ()) (h : Effect s p payload evs s') :
    Growth s s' p payload := by
  cases h with
  | claimed htile hfree =>
    obtain ⟨hclaimed, hleap⟩ := claim_guards hv htile
    exact .claims htile hfree hclaimed hleap rfl rfl
  | leapt => exact .leaps (leap_guard hv) rfl rfl
  | turned hend => exact .turns rfl (endTurn_flags hend)
  | wrapped hend => exact .turns rfl (endTurn_flags hend)
  | sold => exact .rests rfl rfl nofun (by simp)
  | fortified | posted | accepted | cancelled => exact .rests rfl rfl nofun nofun

/-! ## What one action keeps -/

section Step

variable {s s' : FState} {p : PlayerId} {payload : FrontierPayload}

theorem Growth.planted (hp : Planted s) (h : Growth s s' p payload) (hmap : s'.map = s.map)
    (hplayers : s'.players = s.players) (hin : p ∈ s.players.bySeat.map Player.id) :
    Planted s' := by
  have hsame : s'.pieces = s.pieces → Planted s' := fun hpieces =>
    ⟨by rw [hmap]; exact hp.keyed,
      by rw [hpieces, hplayers]; exact hp.owners,
      by rw [hpieces]; exact hp.flags,
      by rw [Lone, hpieces]; exact hp.lone⟩
  cases h with
  | leaps _ hpieces => exact hsame hpieces
  | turns hpieces => exact hsame hpieces
  | rests hpieces => exact hsame hpieces
  | @claims t tile htile hfree _ _ hpieces =>
    refine ⟨by rw [hmap]; exact hp.keyed, fun id flag hget => ?_, fun id flag hget => ?_,
      fun u id flag id' flag' hget hget' hu hu' => ?_⟩
    · rw [hplayers]
      rw [hpieces, OrderedMap.get?_set] at hget
      split at hget
      · cases hget
        exact hin
      · exact hp.owners id flag hget
    · rw [hpieces, OrderedMap.get?_set] at hget
      split at hget
      · rename_i hid
        cases hget
        exact ⟨t, hid, rfl⟩
      · exact hp.flags id flag hget
    · rw [hpieces, OrderedMap.get?_set] at hget hget'
      split at hget <;> split at hget' <;> rename_i hid hid'
      · rw [hid, hid']
      · cases hget
        cases hu
        exact absurd hu' (not_occupied hfree hget')
      · cases hget'
        cases hu'
        exact absurd hu (not_occupied hfree hget)
      · exact hp.lone u id flag id' flag' hget hget' hu hu'

/-- A claim adds its tile to the territory of the player, if its flag takes nobody's place. -/
theorem Growth.holds (h : Growth s s' p payload)
    (hnew : ∀ t, payload = .claimTile t → s.pieces.get? (flagId p t) = none) (q : PlayerId)
    (u : TileId) :
    Holds s' q u ↔ Holds s q u ∨ (payload = .claimTile u ∧ q = p) := by
  have hsame : s'.pieces = s.pieces → (∀ t, payload ≠ .claimTile t) →
      (Holds s' q u ↔ Holds s q u ∨ (payload = .claimTile u ∧ q = p)) := fun hpieces hno => by
    rw [Holds, hpieces, or_iff_left fun hclaim => hno u hclaim.1, Holds]
  cases h with
  | leaps _ hpieces => exact hsame hpieces nofun
  | turns hpieces => exact hsame hpieces nofun
  | rests hpieces _ hno => exact hsame hpieces hno
  | @claims t tile _ _ _ _ hpieces =>
    rw [FrontierPayload.claimTile.injEq]
    constructor
    · rintro ⟨id, flag, hget, howner, hu⟩
      rw [hpieces, OrderedMap.get?_set] at hget
      split at hget
      · cases hget
        cases hu
        exact .inr ⟨rfl, howner.symm⟩
      · exact .inl ⟨id, flag, hget, howner, hu⟩
    · rintro (⟨id, flag, hget, howner, hu⟩ | ⟨rfl, rfl⟩)
      · have hid : id ≠ flagId p t := fun hid => by
          rw [hid, hnew t rfl] at hget
          cases hget
        exact ⟨id, flag, by rw [hpieces, OrderedMap.get?_set, if_neg hid, hget], howner, hu⟩
      · exact ⟨_, _, by rw [hpieces, OrderedMap.get?_set, if_pos rfl], rfl, rfl⟩

/-- If its flag takes a place, the tile of the flag that was there is lost. -/
theorem Growth.loses (hp : Planted s) (hp' : Planted s') (h : Growth s s' p payload) {t : TileId}
    (hclaim : payload = .claimTile t) {old : Piece} (hold : s.pieces.get? (flagId p t) = some old) :
    ∃ q u, Holds s q u ∧ ¬ Holds s' q u := by
  obtain ⟨u, hid, hu⟩ := hp.flags _ old hold
  refine ⟨old.owner, u, ⟨_, old, hold, rfl, hu⟩, fun hheld => ?_⟩
  obtain ⟨flag, hget, -, htile⟩ := hp'.flag hheld
  rw [← hid] at hget
  cases h with
  | leaps => cases hclaim
  | turns => cases hclaim
  | rests _ _ hno => exact hno t hclaim
  | claims _ hfree _ _ hpieces =>
    cases hclaim
    rw [hpieces, OrderedMap.get?_set, if_pos rfl, Option.some.injEq] at hget
    subst hget
    cases htile
    exact not_occupied hfree hold hu

/-! ## The parts of a territory -/

/-- A leap that is paid for and not yet used. -/
def leaping (s : FState) (q : PlayerId) : Nat :=
  if s.rounds.turn.flag "stoneLeap" = true ∧ s.rounds.turn.activePlayer = q then 1 else 0

def leapPaid (payload : FrontierPayload) (p q : PlayerId) : Nat :=
  if payload = .trade "stone" ∧ p = q then 1 else 0

/-- A territory has one part, and one more for each leap that is used. -/
def Bounded (s : FState) (leaps : PlayerId → Nat) : Prop :=
  ∀ q, ∃ n : ℕ, parts (tileGraph s.map) (territory s q) ≤ n ∧ n + leaping s q ≤ 1 + leaps q

theorem parts_step (hp : Planted s) (hturn : p = s.rounds.turn.activePlayer)
    (h : Growth s s' p payload) (hmap : s'.map = s.map) (hnew : ∀ t, payload = .claimTile t →
      s.pieces.get? (flagId p t) = none)
    {leaps : PlayerId → Nat} (hb : Bounded s leaps) :
    Bounded s' fun q => leaps q + leapPaid payload p q := by
  intro q
  obtain ⟨n, hparts, hn⟩ := hb q
  show ∃ m : ℕ, parts (tileGraph s'.map) (territory s' q) ≤ m ∧
    m + leaping s' q ≤ 1 + (leaps q + leapPaid payload p q)
  have hland := h.holds hnew q
  have hsame : (∀ u, payload = .claimTile u → q ≠ p) → territory s' q = territory s q :=
    fun hother =>
    Set.ext fun u => (hland u).trans (or_iff_left fun hu => hother u hu.1 hu.2)
  cases h with
  | @claims t tile htile hfree _ hleap _ hrounds =>
    have hused : leaping s' q = 0 := by rw [leaping, hrounds, setFlag_flag, if_pos rfl]; simp
    by_cases hq : q = p
    · have hgrown : territory s' q = insert t (territory s q) := by
        refine Set.ext fun u => (hland u).trans ?_
        rw [Set.mem_insert_iff, FrontierPayload.claimTile.injEq, and_iff_left hq, eq_comm (a := t)]
        exact Or.comm
      rw [hmap, hgrown]
      by_cases hflag : s.rounds.turn.flag "stoneLeap" = true
      · have hone : leaping s q = 1 := if_pos ⟨hflag, by rw [hq, hturn]⟩
        refine ⟨n + 1, parts_insert_le.trans ?_, by omega⟩
        rw [Nat.cast_add, Nat.cast_one]
        exact add_le_add hparts le_rfl
      · obtain ⟨u, hu, hadj⟩ := touches hp htile hfree (hleap (by simpa using hflag))
        exact ⟨n, (parts_insert_adj (hq ▸ hu) hadj).trans hparts, by omega⟩
    · rw [hmap, hsame fun _ _ => hq]
      exact ⟨n, hparts, by omega⟩
  | leaps hno _ hrounds =>
    have hzero : leaping s q = 0 := by rw [leaping, hno]; simp
    have hpaid : leaping s' q = leapPaid (.trade "stone") p q := by
      rw [leaping, leapPaid, hrounds, setFlag_flag, if_pos rfl,
        RoundManager.setFlag_activePlayer, hturn]
      simp
    rw [hmap, hsame nofun]
    exact ⟨n, hparts, by omega⟩
  | turns _ hflags =>
    have hzero : leaping s' q = 0 := by rw [leaping, hflags]; simp
    rw [hmap, hsame nofun]
    exact ⟨n, hparts, by omega⟩
  | rests _ hrounds hno =>
    have hkept : leaping s' q = leaping s q := by rw [leaping, leaping, hrounds]
    rw [hmap, hsame fun u hu => absurd hu (hno u)]
    exact ⟨n, hparts, by omega⟩

/-- How many tiles may still be claimed in the turn. -/
def claimsLeft (s : FState) : Nat := if s.rounds.turn.flag "claimedThisTurn" = true then 0 else 1

theorem Growth.claims_paid (h : Growth s s' p payload) (hturn : payload ≠ .endTurn) :
    claimsLeft s' + (if isClaim payload then 1 else 0) ≤ claimsLeft s := by
  unfold claimsLeft
  cases h with
  | claims _ _ hclaimed _ _ hrounds => simp [hrounds, setFlag_flag, hclaimed, isClaim]
  | leaps _ _ hrounds => simp [hrounds, setFlag_flag, isClaim]
  | turns => exact absurd rfl hturn
  | rests _ hrounds hclaim =>
    have hnone : isClaim payload = false := by
      cases payload with
      | claimTile t => exact absurd rfl (hclaim t)
      | _ => rfl
    simp [hrounds, hnone]

theorem Growth.congr (h : Growth s s' p payload) {s'' : FState} (hpieces : s''.pieces = s'.pieces)
    (hrounds : s''.rounds = s'.rounds) : Growth s s'' p payload := by
  cases h with
  | claims htile hfree hclaimed hleap hp hr =>
    exact .claims htile hfree hclaimed hleap (hpieces.trans hp) (hrounds.trans hr)
  | leaps hno hp hr => exact .leaps hno (hpieces.trans hp) (hrounds.trans hr)
  | turns hp hflags => exact .turns (hpieces.trans hp) (by rw [hrounds]; exact hflags)
  | rests hp hr hclaim hleap => exact .rests (hpieces.trans hp) (hrounds.trans hr) hclaim hleap

end Step

/-! ## The homes -/

section Homes

/-- The players with their starting coordinates. -/
def homes (opts : GameSetupOptions) : List (Player × AxialCoord) :=
  opts.players.zip (startingCoords opts.players.length)

def homeFlag (e : Player × AxialCoord) : PieceId × Piece :=
  (flagId e.1.id (tileId e.2), makeUnit (flagId e.1.id (tileId e.2)) "flag" e.1.id (tileId e.2))

/-- The flags on the home tiles have ids of their own. -/
def HomesApart (opts : GameSetupOptions) : Prop :=
  ((homes opts).map fun e => flagId e.1.id (tileId e.2)).Nodup

theorem placeHome_ground {s s' : FState} {player : Player} {coord : AxialCoord} {tile : Tile}
    (htile : s.map.tileById (tileId coord) = some tile)
    (h : (placeHome player coord).run s = .ok () s') :
    s'.map = s.map ∧ s'.rounds = s.rounds ∧ s'.pieces = s.pieces.setAll [homeFlag (player, coord)] ∧
      s'.extras.homeTiles = s.extras.homeTiles.setAll [(player.id, tileId coord)] := by
  obtain ⟨invs, q, -, -, hrun⟩ := placeHome_on player htile
  rw [hrun] at h
  cases h
  exact ⟨rfl, rfl, rfl, rfl⟩

theorem placeHomes_ground (es : List (Player × AxialCoord)) {s s' : FState}
    (hon : ∀ e ∈ es, ∃ tile, s.map.tileById (tileId e.2) = some tile)
    (h : (Eff.each (fun e => placeHome e.1 e.2) es).run s = .ok () s') :
    s'.map = s.map ∧ s'.rounds = s.rounds ∧ s'.pieces = s.pieces.setAll (es.map homeFlag) ∧
      s'.extras.homeTiles = s.extras.homeTiles.setAll (es.map fun e => (e.1.id, tileId e.2)) := by
  induction es generalizing s with
  | nil =>
    cases h
    exact ⟨rfl, rfl, rfl, rfl⟩
  | cons e es ih =>
    obtain ⟨_, s₁, h₁, h₂⟩ := Eff.bind_eq_ok.mp h
    obtain ⟨tile, htile⟩ := hon e List.mem_cons_self
    obtain ⟨hmap, hrounds, hpieces, hhomes⟩ := placeHome_ground htile h₁
    obtain ⟨hmap', hrounds', hpieces', hhomes'⟩ :=
      ih (fun e he => by rw [hmap]; exact hon e (List.mem_cons_of_mem _ he)) h₂
    exact ⟨hmap'.trans hmap, hrounds'.trans
      hrounds, by rw [hpieces', hpieces]; rfl, by rw [hhomes', hhomes]; rfl⟩

theorem startingCoords_on {n : Nat} {c : AxialCoord} (h : c ∈ startingCoords n) : c ∈ coords := by
  unfold startingCoords at h
  split at h <;> revert c <;> decide

theorem startingCoords_nodup (n : Nat) : ((startingCoords n).map tileId).Nodup := by
  unfold startingCoords
  split <;> decide +kernel

theorem length_startingCoords {n : Nat} (h : 2 ≤ n ∧ n ≤ 4) : (startingCoords n).length = n := by
  obtain rfl | rfl | rfl : n = 2 ∨ n = 3 ∨ n = 4 := by omega
  all_goals rfl

theorem mapOf_on {terrains : List String} {c : AxialCoord} (hc : c ∈ coords) :
    ∃ tile, (GameMap.build (coords.mapIdx fun i c =>
      ({ id := tileId c, coord := c, terrain := terrains[i]?.getD "" } : Tile))).tileById
        (tileId c) = some tile := by
  generalize coords = cs at hc
  obtain ⟨i, hi, hci⟩ := List.getElem_of_mem hc
  have hmade : ({ id := tileId c, coord := c, terrain := terrains[i]?.getD "" } : Tile) ∈
      cs.mapIdx fun i c => { id := tileId c, coord := c, terrain := terrains[i]?.getD "" } :=
    List.mem_mapIdx.mpr ⟨i, hi, by rw [hci]⟩
  exact GameMap.tileById_of_mem hmade

theorem demoMap_on {n : Nat} {seed : String} {c : AxialCoord} (hc : c ∈ coords) :
    ∃ tile, (buildDemoMap n seed).tileById (tileId c) = some tile := mapOf_on hc

theorem demoMap_keyed {n : Nat} {seed : String} {id : TileId} {tile : Tile}
    (h : (buildDemoMap n seed).tileById id = some tile) : tile.id = id :=
  (GameMap.tileById_build h).2

variable {opts : GameSetupOptions}

theorem homes_players (hsize : 2 ≤ opts.players.length ∧ opts.players.length ≤ 4) :
    (homes opts).map Prod.fst = opts.players :=
  List.map_fst_zip (length_startingCoords hsize).ge

theorem homes_ids (hsize : 2 ≤ opts.players.length ∧ opts.players.length ≤ 4)
    (hid : (opts.players.map Player.id).Nodup) : ((homes opts).map fun e => e.1.id).Nodup := by
  rw [← homes_players hsize, List.map_map] at hid
  exact hid

theorem homes_tiles (hsize : 2 ≤ opts.players.length ∧ opts.players.length ≤ 4) :
    ((homes opts).map fun e => tileId e.2).Nodup := by
  have hcoords : (homes opts).map Prod.snd = startingCoords opts.players.length :=
    List.map_snd_zip (length_startingCoords hsize).le
  have hnd := startingCoords_nodup opts.players.length
  rw [← hcoords, List.map_map] at hnd
  exact hnd

/-- Every player has a home. -/
theorem home_of (hsize : 2 ≤ opts.players.length ∧ opts.players.length ≤ 4) {pl : Player}
    (h : pl ∈ opts.players) :
    ∃ e ∈ homes opts, e.1 = pl := by
  rw [← homes_players hsize] at h
  exact List.mem_map.mp h

theorem new_flags {players : List Player} {order : TurnOrder} {phases : List Phase} {phase : String}
    {rm : RoundManager} (h : RoundManager.new players order phases phase = .ok rm) (n : String) :
    rm.turn.flag n = false := by
  unfold RoundManager.new at h
  split at h
  · cases h
  · split at h
    · cases h
    · cases h
      rfl

/-- The board and the turn of a fresh game. -/
structure Ground (opts : GameSetupOptions) (s : FState) : Prop where
  size : 2 ≤ opts.players.length ∧ opts.players.length ≤ 4
  map : s.map = buildDemoMap opts.players.length opts.seed
  flags : ∀ n, s.rounds.turn.flag n = false
  pieces : s.pieces = .ofEntries ((homes opts).map homeFlag)
  homeTiles : s.extras.homeTiles = .ofEntries ((homes opts).map fun e => (e.1.id, tileId e.2))
  roster : s.players = .new opts.players

variable {s : FState}

theorem freshState_map (opts : GameSetupOptions) (rounds : RoundManager) :
    (freshState frontierScenario opts rounds).map = buildDemoMap opts.players.length opts.seed := by
  simp only [freshState, frontierScenario]

theorem fresh_ground (h : createGameState frontierScenario opts = .ok s) : Ground opts s := by
  obtain ⟨hsize, rounds, hrm, hset⟩ := createGameState_ok h
  have hon : ∀ e ∈ homes opts, ∃ tile,
      (freshState frontierScenario opts rounds).map.tileById (tileId e.2) = some tile :=
      fun e he => by
    rw [freshState_map]
    exact demoMap_on (startingCoords_on (List.of_mem_zip he).2)
  obtain ⟨hmap, hrounds, hpieces, hhomes⟩ := placeHomes_ground (homes opts) hon hset
  exact
    { size := hsize
      map := hmap.trans (freshState_map opts rounds)
      flags := by rw [hrounds]; exact new_flags hrm
      pieces := hpieces
      homeTiles := hhomes
      roster := (fresh_state h).players }

theorem Ground.planted (hg : Ground opts s) : Planted s where
  keyed id tile h := demoMap_keyed (hg.map ▸ h)
  owners id flag h := by
    rw [hg.pieces] at h
    obtain ⟨e, he, heq⟩ :=
      List.mem_map.mp ((OrderedMap.mem_of_get?_setAll h).resolve_right (by simp))
    cases heq
    rw [hg.roster, (PlayerManager.new_ids opts.players).mem_iff]
    exact List.mem_map_of_mem (List.of_mem_zip he).1
  flags id flag h := by
    rw [hg.pieces] at h
    obtain ⟨e, -, heq⟩ :=
      List.mem_map.mp ((OrderedMap.mem_of_get?_setAll h).resolve_right (by simp))
    cases heq
    exact ⟨_, rfl, rfl⟩
  lone t id flag id' flag' h h' ht ht' := by
    rw [hg.pieces] at h h'
    obtain ⟨e, he, heq⟩ :=
      List.mem_map.mp ((OrderedMap.mem_of_get?_setAll h).resolve_right (by simp))
    obtain ⟨e', he', heq'⟩ :=
      List.mem_map.mp ((OrderedMap.mem_of_get?_setAll h').resolve_right (by simp))
    cases heq
    cases heq'
    cases ht
    have hsame : tileId e'.2 = tileId e.2 := by simpa [homeFlag, tileOf, makeUnit] using ht'
    rw [List.inj_on_of_nodup_map (homes_tiles hg.size) he he' hsame.symm]

/-- At the start a player holds the home tile and no other. -/
theorem Ground.holds (hg : Ground opts s) {q : PlayerId} {u : TileId} (h : Holds s q u) :
    ∃ e ∈ homes opts, e.1.id = q ∧ tileId e.2 = u := by
  obtain ⟨id, flag, hget, rfl, hu⟩ := h
  rw [hg.pieces] at hget
  obtain ⟨e, he, heq⟩ :=
    List.mem_map.mp ((OrderedMap.mem_of_get?_setAll hget).resolve_right (by simp))
  cases heq
  exact ⟨e, he, rfl, by simpa [homeFlag, tileOf, makeUnit] using hu⟩

theorem Ground.home (hg : Ground opts s) (hapart : HomesApart opts) {e : Player × AxialCoord}
    (he : e ∈ homes opts) :
    Holds s e.1.id (tileId e.2) := by
  refine ⟨(homeFlag e).1, (homeFlag e).2, ?_, rfl, rfl⟩
  rw [hg.pieces, OrderedMap.get?_ofEntries (by rw [List.map_map]; exact hapart)]
  exact List.mem_map_of_mem he

theorem Ground.bounded (hg : Ground opts s) (hid : (opts.players.map Player.id).Nodup) :
    Bounded s fun _ => 0 := by
  intro q
  have hzero : leaping s q = 0 := by rw [leaping, hg.flags]; simp
  refine ⟨1, ?_, by omega⟩
  by_cases hsome : ∃ u, Holds s q u
  · obtain ⟨u, hu⟩ := hsome
    have hone : territory s q = {u} := by
      refine Set.eq_singleton_iff_unique_mem.mpr ⟨hu, fun u' hu' => ?_⟩
      obtain ⟨e, he, heq, rfl⟩ := hg.holds hu
      obtain ⟨e', he', heq', rfl⟩ := hg.holds hu'
      rw [List.inj_on_of_nodup_map (homes_ids hg.size hid) he' he (heq'.trans heq.symm)]
    rw [hone]
    exact parts_singleton
  · have hnone : territory s q = ∅ := Set.eq_empty_iff_forall_notMem.mpr fun u hu => hsome ⟨u, hu⟩
    rw [hnone, parts_empty]
    exact bot_le

end Homes

/-! ## Runs -/

/-- The action of a record, if it is accepted. -/
def acceptedAction (r : FRecord) : Option FAction :=
  match r.label with
  | .start => none
  | .submit a _ => if accepts r.before a then some a else none

/-- How many leaps the player has paid for: the accepted trades of stone. -/
def stoneTrades (q : PlayerId) (rs : List FRecord) : Nat :=
  (rs.filterMap acceptedAction).countP fun a => a.playerId = some q ∧ a.payload = .trade "stone"

/-- The record is an accepted claim whose flag has the id of a flag on the board. -/
def Overplants (r : FRecord) : Prop :=
  ∃ a t p, acceptedAction r = some a ∧ a.payload = .claimTile t ∧ a.playerId = some p ∧
    r.before.state.pieces.get? (flagId p t) ≠ none

/-- What the territories are after a run. -/
structure Expanded (opts : GameSetupOptions) (rs : List FRecord) (g : FGame) : Prop where
  /-- Every tile carries one flag at most. -/
  lone : Lone g.state
  /-- No call takes a tile from who has it. -/
  kept : ∀ r ∈ rs, ∀ q t, Holds r.before.state q t → Holds r.after.state q t
  /-- Between two ends of a turn at most one tile is claimed. -/
  once : ∀ turn, turn <:+: rs → (∀ a ∈ turn.filterMap acceptedAction, a.payload ≠ .endTurn) →
    (turn.filterMap acceptedAction).countP (fun a => isClaim a.payload) ≤ 1
  /-- A territory has one part, and one more at most for each leap. -/
  parts : ∀ q, parts (tileGraph g.state.map) (territory g.state q) ≤ (1 + stoneTrades q rs : ℕ)
  /-- Every player holds their home tile. -/
  home : ∀ pl ∈ opts.players, ∃ t, g.state.extras.homeTiles.get? pl.id = some t ∧
    Holds g.state pl.id t
  /-- Without leaps a territory is connected. -/
  joined : ∀ pl ∈ opts.players, stoneTrades pl.id rs = 0 →
    ((tileGraph g.state.map).induce (territory g.state pl.id)).Connected

/-- What a call does to the territories. -/
structure Grows (g : FGame) (action : Option FAction) (g' : FGame) : Prop where
  map : g'.state.map = g.state.map
  players : g'.state.players = g.state.players
  homeTiles : g'.state.extras.homeTiles = g.state.extras.homeTiles
  idle : action = none → g'.state.pieces = g.state.pieces ∧ g'.state.rounds = g.state.rounds
  acted : ∀ a, action = some a → a.playerId = some g.state.rounds.turn.activePlayer ∧
    Growth g.state g'.state g.state.rounds.turn.activePlayer a.payload

theorem Effect.homeTiles {s s' : FState} {p : PlayerId} {payload : FrontierPayload}
    {evs : List FEvent} (h : Effect s p payload evs s') :
    s'.extras.homeTiles = s.extras.homeTiles := by
  cases h <;> rfl

theorem grows_of_step {g g' : FGame} {c : FCall} (hs : Sound g.state)
    (h : Game.Step frontierScenario g c g') :
    Grows g (acceptedAction ⟨g, c, g'⟩) g' := by
  have hmove : Game.Move frontierScenario (fun s a evs s' =>
      frontierScenario.validate s a = .ok () ∧ ActedOn s a evs s') g c g' := by
    refine h.move no_rules fun a hv => ?_
    obtain ⟨evs, s', hx, hacted⟩ := acted_on hs hv
    exact ⟨evs, s', hx, hv, hacted⟩
  cases hmove with
  | idle hno hstate =>
    have hnone : acceptedAction ⟨g, c, g'⟩ = none := by
      cases c with
      | start => rfl
      | submit a r => simp [acceptedAction, accepts, hno a r rfl]
    rw [hnone]
    refine ⟨?_, ?_, ?_, fun _ => ⟨?_, ?_⟩, nofun⟩ <;> rw [hstate]
  | @acted a r _ evs s' status history tail hacc hF hstate =>
    obtain ⟨hv, hact, -, heff⟩ := hF
    have hsome : acceptedAction ⟨g, .submit a r, g'⟩ = some a := if_pos hacc
    rw [validate_eq, hact] at hv
    rw [hsome]
    refine ⟨?_, ?_, ?_, nofun, fun a' ha' => ?_⟩
    · rw [hstate]
      exact heff.frame.1
    · rw [hstate]
      exact heff.players
    · rw [hstate]
      exact heff.homeTiles
    · cases ha'
      exact ⟨hact, (heff.growth hv).congr (by rw [hstate]) (by rw [hstate])⟩

/-- What holds of every reachable game, whatever the ids. -/
structure Rooted (opts : GameSetupOptions) (g : FGame) : Prop where
  sound : Sound g.state
  planted : Planted g.state
  roster : g.state.players = .new opts.players
  homeTiles : g.state.extras.homeTiles = .ofEntries ((homes opts).map fun e => (e.1.id, tileId e.2))

section Rooted

variable {opts : GameSetupOptions} {g g' : FGame} {c : FCall}

theorem Planted.congr {s s' : FState} (hp : Planted s) (hmap : s'.map = s.map)
    (hplayers : s'.players = s.players) (hpieces : s'.pieces = s.pieces) : Planted s' :=
  ⟨by rw [hmap]; exact hp.keyed,
    by rw [hpieces, hplayers]; exact hp.owners,
    by rw [hpieces]; exact hp.flags,
    by rw [Lone, hpieces]; exact hp.lone⟩

theorem sound_step (hs : Sound g.state) (h : Game.Step frontierScenario g c g') :
    Sound g'.state := by
  cases move_of_step hs h with
  | idle _ hstate =>
    rw [hstate]
    exact sound_frame hs _ _
  | acted _ hF hstate =>
    obtain ⟨_, _, heff⟩ := hF
    rw [hstate]
    exact sound_frame (heff.sound hs hs.turn) _ _

theorem rooted_step (hr : Rooted opts g) (h : Game.Step frontierScenario g c g') :
    Rooted opts g' := by
  have hgrows := grows_of_step hr.sound h
  refine ⟨sound_step hr.sound h, ?_, hgrows.players.trans hr.roster,
    hgrows.homeTiles.trans hr.homeTiles⟩
  cases haction : acceptedAction ⟨g, c, g'⟩ with
  | none => exact hr.planted.congr hgrows.map hgrows.players (hgrows.idle haction).1
  | some a =>
    exact (hgrows.acted a haction).2.planted hr.planted hgrows.map hgrows.players hr.sound.turn

theorem rooted_fresh {s : FState} (hs : createGameState frontierScenario opts = .ok s) :
    Rooted opts (Game.new s) :=
  have hground := fresh_ground hs
  ⟨fresh_sound (fresh_state hs), hground.planted, hground.roster, hground.homeTiles⟩

/-- Unless a flag takes another's place, a call leaves everybody their tiles. -/
theorem step_kept (hr : Rooted opts g) (h : Game.Step frontierScenario g c g')
    (hfree : ¬ Overplants ⟨g, c, g'⟩) {q : PlayerId} {t : TileId} (hq : Holds g.state q t) :
    Holds g'.state q t := by
  have hgrows := grows_of_step hr.sound h
  cases haction : acceptedAction ⟨g, c, g'⟩ with
  | none => rwa [Holds, (hgrows.idle haction).1]
  | some a =>
    obtain ⟨hact, hgrowth⟩ := hgrows.acted a haction
    refine (hgrowth.holds (fun t ht => ?_) q t).mpr (.inl hq)
    by_contra htaken
    exact hfree ⟨a, t, _, haction, ht, hact, htaken⟩

/-- If one does, somebody loses a tile. -/
theorem step_lost (hr : Rooted opts g) (h : Game.Step frontierScenario g c g')
    (hover : Overplants ⟨g, c, g'⟩) :
    ∃ q t, Holds g.state q t ∧ ¬ Holds g'.state q t := by
  obtain ⟨a, t, p, haction, hclaim, hp, htaken⟩ := hover
  obtain ⟨hact, hgrowth⟩ := (grows_of_step hr.sound h).acted a haction
  rw [hp, Option.some.injEq] at hact
  obtain ⟨old, hold⟩ := Option.ne_none_iff_exists'.mp htaken
  exact hgrowth.loses hr.planted (rooted_step hr h).planted hclaim (hact ▸ hold)

theorem claims_step (hr : Rooted opts g) (h : Game.Step frontierScenario g c g')
    (hturn : ∀ a, acceptedAction ⟨g, c, g'⟩ = some a → a.payload ≠ .endTurn) :
    claimsLeft g'.state +
      (if ((acceptedAction ⟨g, c, g'⟩).map fun a => isClaim a.payload).getD false then 1 else 0) ≤
      claimsLeft g.state := by
  have hgrows := grows_of_step hr.sound h
  cases haction : acceptedAction ⟨g, c, g'⟩ with
  | none =>
    rw [claimsLeft, claimsLeft, (hgrows.idle haction).2]
    exact le_rfl
  | some a =>
    obtain ⟨-, hgrowth⟩ := hgrows.acted a haction
    exact hgrowth.claims_paid (hturn a haction)

end Rooted

/-- What holds while no flag takes another's place. -/
structure Spread (opts : GameSetupOptions) (rs : List FRecord) (g : FGame) :
    Prop extends Rooted opts g where
  bounded : Bounded g.state fun q => stoneTrades q rs
  held : ∀ e ∈ homes opts, Holds g.state e.1.id (tileId e.2)

section Spread

variable {opts : GameSetupOptions} {g g' : FGame} {rs : List FRecord}

theorem stoneTrades_snoc (q : PlayerId) (rs : List FRecord) (r : FRecord) :
    stoneTrades q (rs ++ [r]) = stoneTrades q rs +
      ((acceptedAction r).toList.countP fun a => a.playerId = some q ∧
        a.payload = .trade "stone") := by
  rw [stoneTrades, List.filterMap_append, List.countP_append, ← stoneTrades]
  cases h : acceptedAction r <;> simp [h]

theorem spread_step {c : FCall} (hs : Spread opts rs g) (h : Game.Step frontierScenario g c g')
    (hfree : ¬ Overplants ⟨g, c, g'⟩) : Spread opts (rs ++ [⟨g, c, g'⟩]) g' := by
  have hr := hs.toRooted
  have hgrows := grows_of_step hr.sound h
  refine ⟨rooted_step hr h, ?_, fun e he => step_kept hr h hfree (hs.held e he)⟩
  cases haction : acceptedAction ⟨g, c, g'⟩ with
  | none =>
    obtain ⟨hpieces, hrounds⟩ := hgrows.idle haction
    intro q
    obtain ⟨n, hparts, hn⟩ := hs.bounded q
    have hterr : territory g'.state q = territory g.state q := by
      simp only [territory, Holds, hpieces]
    have hleap : leaping g'.state q = leaping g.state q := by
      simp only [leaping, hrounds]
    have hcount : stoneTrades q (rs ++ [⟨g, c, g'⟩]) = stoneTrades q rs := by
      rw [stoneTrades_snoc, haction]
      rfl
    refine ⟨n, by rw [hgrows.map, hterr]; exact hparts, ?_⟩
    show n + leaping g'.state q ≤ 1 + stoneTrades q (rs ++ [⟨g, c, g'⟩])
    rw [hleap, hcount]
    exact hn
  | some a =>
    obtain ⟨hact, hgrowth⟩ := hgrows.acted a haction
    have hnew : ∀ t, a.payload = .claimTile t →
        g.state.pieces.get? (flagId g.state.rounds.turn.activePlayer t) = none := fun t ht => by
      by_contra htaken
      exact hfree ⟨a, t, _, haction, ht, hact, htaken⟩
    intro q
    obtain ⟨n, hparts, hn⟩ := parts_step hr.planted rfl hgrowth hgrows.map hnew hs.bounded q
    have hcount : stoneTrades q (rs ++ [⟨g, c, g'⟩]) =
        stoneTrades q rs + leapPaid a.payload g.state.rounds.turn.activePlayer q := by
      rw [stoneTrades_snoc, haction]
      simp [leapPaid, hact, and_comm]
    refine ⟨n, hparts, ?_⟩
    show n + leaping g'.state q ≤ 1 + stoneTrades q (rs ++ [⟨g, c, g'⟩])
    rw [hcount]
    exact hn

theorem spread_run {s : FState} (hid : (opts.players.map Player.id).Nodup)
    (hs : createGameState frontierScenario opts = .ok s) (hapart : HomesApart opts)
    (h : Trace (Recorded (Game.Step frontierScenario)) (Game.new s) rs g)
    (hfree : ∀ r ∈ rs, ¬ Overplants r) :
    Spread opts rs g := by
  have hground := fresh_ground hs
  have hstart : Spread opts [] (Game.new s) :=
    ⟨rooted_fresh hs, hground.bounded hid, fun e he => hground.home hapart he⟩
  exact Trace.inv_labels (I := fun pre g => Spread opts pre g)
    (fun pre g r g' hI hstep => by
      obtain ⟨b, c, a⟩ := r
      obtain ⟨rfl, rfl, hs⟩ := Recorded.step_of hstep.1
      exact spread_step hI hs hstep.2)
    (h.restrict hfree) [] hstart

/-- One claim at most in a turn. -/
theorem once_a_turn {turn : List FRecord} (hr : Rooted opts g)
    (h : Trace (Recorded (Game.Step frontierScenario)) g turn g')
    (hturn : ∀ a ∈ turn.filterMap acceptedAction, a.payload ≠ .endTurn) :
    (turn.filterMap acceptedAction).countP (fun a => isClaim a.payload) ≤ 1 := by
  have hno : ∀ r ∈ turn, ∀ a, acceptedAction r = some a → a.payload ≠ .endTurn := fun r hr a ha =>
    hturn a (List.mem_filterMap.mpr ⟨r, hr, ha⟩)
  rw [List.countP_filterMap]
  have hcount := Trace.count_le (I := fun g => Rooted opts g) (φ := fun g => claimsLeft g.state)
    (p := fun r : FRecord => ((acceptedAction r).map fun a => isClaim a.payload).getD false)
    (fun g r g' hI hstep => by
      obtain ⟨rfl, rfl, hs⟩ := Recorded.step_of hstep.1
      exact rooted_step hI hs)
    (fun g r g' hI hstep => by
      obtain ⟨b, c, a⟩ := r
      obtain ⟨rfl, rfl, hs⟩ := Recorded.step_of hstep.1
      exact claims_step hI hs hstep.2)
    (h.restrict hno) hr
  refine hcount.trans ?_
  unfold claimsLeft
  split <;> omega

theorem rooted_run {s : FState} (hs : createGameState frontierScenario opts = .ok s)
    (h : Trace (Recorded (Game.Step frontierScenario)) (Game.new s) rs g) : Rooted opts g :=
  have hkeep : ∀ (g : FGame) c g', Rooted opts g → Game.Step frontierScenario g c g' →
      Rooted opts g' :=
    fun _ _ _ hr hstep => rooted_step hr hstep
  Trace.inv hkeep (Recorded.trace h) (rooted_fresh hs)

theorem rooted_records {s : FState} (hs : createGameState frontierScenario opts = .ok s)
    (h : Trace (Recorded (Game.Step frontierScenario)) (Game.new s) rs g) :
    ∀ r ∈ rs, Rooted opts r.before ∧ Game.Step frontierScenario r.before r.label r.after :=
  Recorded.forall_inv (fun _ _ _ hr hstep => rooted_step hr hstep) h (rooted_fresh hs)

theorem Rooted.homeTile (hr : Rooted opts g)
    (hsize : 2 ≤ opts.players.length ∧ opts.players.length ≤ 4)
    (hid : (opts.players.map Player.id).Nodup) {e : Player × AxialCoord} (he : e ∈ homes opts) :
    g.state.extras.homeTiles.get? e.1.id = some (tileId e.2) := by
  rw [hr.homeTiles, OrderedMap.get?_ofEntries (by rw [List.map_map]; exact homes_ids hsize hid)]
  exact List.mem_map_of_mem he

/-- While no flag takes the place of another, the territories grow as they should. -/
theorem expanded_of_apart {s : FState} (hid : (opts.players.map Player.id).Nodup)
    (hs : createGameState frontierScenario opts = .ok s)
    (h : Trace (Recorded (Game.Step frontierScenario)) (Game.new s) rs g) (hapart : HomesApart opts)
    (hfree : ∀ r ∈ rs, ¬ Overplants r) : Expanded opts rs g := by
  have hsize := (fresh_ground hs).size
  have hspread := spread_run hid hs hapart h hfree
  have hparts : ∀ q, parts (tileGraph g.state.map) (territory g.state q) ≤
      (1 + stoneTrades q rs : ℕ) := fun q => by
    obtain ⟨n, hn, hle⟩ := hspread.bounded q
    exact hn.trans (Nat.cast_le.mpr ((Nat.le_add_right n _).trans hle))
  have hheld : ∀ pl ∈ opts.players, ∃ t, g.state.extras.homeTiles.get? pl.id = some t ∧
      Holds g.state pl.id t :=
    fun pl hpl => by
      obtain ⟨e, he, rfl⟩ := home_of hsize hpl
      exact ⟨_, hspread.homeTile hsize hid he, hspread.held e he⟩
  refine
    { lone := hspread.planted.lone
      kept := fun r hr q t hq => ?_
      once := ?_
      parts := hparts
      home := hheld
      joined := fun pl hpl hnone => ?_ }
  · obtain ⟨hroot, hstep⟩ := rooted_records hs h r hr
    exact step_kept hroot hstep (hfree r hr) hq
  · rintro turn ⟨pre, post, rfl⟩ hturn
    obtain ⟨_, hmid, -⟩ := Trace.append_iff.mp h
    obtain ⟨_, hpre, hrun⟩ := Trace.append_iff.mp hmid
    exact once_a_turn (rooted_run hs hpre) hrun hturn
  · obtain ⟨t, -, hholds⟩ := hheld pl hpl
    have hone := hparts pl.id
    rw [hnone] at hone
    exact induce_connected hone hholds

/-- If all players have their home tiles, the home flags have ids of their own. -/
theorem Expanded.apart {s : FState} (hid : (opts.players.map Player.id).Nodup)
    (hs : createGameState frontierScenario opts = .ok s) (hr : Rooted opts g)
    (he : Expanded opts rs g) :
    HomesApart opts := by
  have hsize := (fresh_ground hs).size
  have hheld : ∀ e ∈ homes opts, Holds g.state e.1.id (tileId e.2) := fun e hmem => by
    obtain ⟨t, ht, hholds⟩ := he.home e.1 (List.of_mem_zip hmem).1
    rw [hr.homeTile hsize hid hmem, Option.some.injEq] at ht
    exact ht ▸ hholds
  have hnd : (homes opts).Nodup := (homes_ids hsize hid).of_map _
  refine hnd.map_on fun e he e' he' hflag => ?_
  obtain ⟨flag, hget, howner, -⟩ := hr.planted.flag (hheld e he)
  obtain ⟨flag', hget', howner', -⟩ := hr.planted.flag (hheld e' he')
  rw [hflag, hget', Option.some.injEq] at hget
  exact List.inj_on_of_nodup_map (homes_ids hsize hid) he he' (by rw [← howner, ← howner', hget])

/-- **Expansion is continuous** in exactly the runs in which no flag takes the place of another:
neither a home flag at the start nor a claim's. Then every tile has one flag at most and keeps its
owner, a turn claims one tile at most, and a territory has one connected part and one more at most
for each leap. -/
theorem expansion_iff {s : FState} (hid : (opts.players.map Player.id).Nodup)
    (hs : createGameState frontierScenario opts = .ok s)
    (h : Trace (Recorded (Game.Step frontierScenario)) (Game.new s) rs g) :
    Expanded opts rs g ↔ HomesApart opts ∧ ∀ r ∈ rs, ¬ Overplants r := by
  constructor
  · intro hexp
    refine ⟨hexp.apart hid hs (rooted_run hs h), fun r hr hover => ?_⟩
    obtain ⟨hroot, hstep⟩ := rooted_records hs h r hr
    obtain ⟨q, t, hbefore, hafter⟩ := step_lost hroot hstep hover
    exact hafter (hexp.kept r hr q t hbefore)
  · rintro ⟨hapart, hfree⟩
    exact expanded_of_apart hid hs h hapart hfree

/-! ## Ids of one length -/

theorem flagId_inj {p q : PlayerId} {t u : TileId} (hlen : p.length = q.length)
    (h : flagId p t = flagId q u) :
    p = q ∧ t = u := by
  have hlist := congrArg String.toList h
  simp only [flagId, String.toList_append, List.append_assoc] at hlist
  obtain ⟨hp, ht⟩ := List.append_inj (List.append_cancel_left hlist)
    (by rw [String.length_toList, String.length_toList, hlen])
  exact ⟨String.toList_inj.mp hp, String.toList_inj.mp (List.append_cancel_left ht)⟩

theorem homesApart_of_length (hsize : 2 ≤ opts.players.length ∧ opts.players.length ≤ 4)
    (hid : (opts.players.map Player.id).Nodup) {n : Nat}
    (hlen : ∀ pl ∈ opts.players, pl.id.length = n) :
    HomesApart opts := by
  have hnd : (homes opts).Nodup := (homes_ids hsize hid).of_map _
  refine hnd.map_on fun e he e' he' hflag => ?_
  have hp := hlen e.1 (List.of_mem_zip he).1
  have hp' := hlen e'.1 (List.of_mem_zip he').1
  exact List.inj_on_of_nodup_map (homes_ids hsize hid) he he'
    (flagId_inj (hp.trans hp'.symm) hflag).1

/-- A flag that has the id of another stands on its tile, which is taken. -/
theorem Rooted.spares (hr : Rooted opts g) {n : Nat} (hlen : ∀ pl ∈ opts.players, pl.id.length = n)
    {c : FCall} (h : Game.Step frontierScenario g c g') : ¬ Overplants ⟨g, c, g'⟩ := by
  rintro ⟨a, t, p, haction, hclaim, hp, htaken⟩
  obtain ⟨hact, hgrowth⟩ := (grows_of_step hr.sound h).acted a haction
  rw [hp, Option.some.injEq] at hact
  obtain ⟨old, hold⟩ := Option.ne_none_iff_exists'.mp htaken
  obtain ⟨u, hflag, hu⟩ := hr.planted.flags _ old hold
  have hlength : ∀ q ∈ g.state.players.bySeat.map Player.id, q.length = n := fun q hq => by
    rw [hr.roster, (PlayerManager.new_ids opts.players).mem_iff] at hq
    obtain ⟨pl, hpl, rfl⟩ := List.mem_map.mp hq
    exact hlen pl hpl
  have hsame : p.length = old.owner.length :=
    (hlength p (hact ▸ hr.sound.turn)).trans (hlength old.owner (hr.planted.owners _ old hold)).symm
  obtain ⟨-, rfl⟩ := flagId_inj hsame hflag
  rw [hclaim] at hgrowth
  cases hgrowth with
  | claims _ hfree => exact not_occupied hfree hold hu
  | rests _ _ hno => exact hno t rfl

/-- With ids of one length, such as the accounts have, expansion is continuous in every run. -/
theorem expanded_of_length {s : FState} (hid : (opts.players.map Player.id).Nodup) {n : Nat}
    (hlen : ∀ pl ∈ opts.players, pl.id.length = n)
    (hs : createGameState frontierScenario opts = .ok s)
    (h : Trace (Recorded (Game.Step frontierScenario)) (Game.new s) rs g) : Expanded opts rs g :=
  expanded_of_apart hid hs h (homesApart_of_length (fresh_ground hs).size hid hlen) fun r hr => by
    obtain ⟨hroot, hstep⟩ := rooted_records hs h r hr
    exact hroot.spares hlen hstep

end Spread

/-! ## Two games -/

/-- The ids of the first two join with their home tiles to one. -/
def dashed : GameSetupOptions :=
  { gameId := "game-1"
    players := [⟨"a-", "Ada", "red", 0, none⟩, ⟨"a", "Bo", "blue", 1, none⟩,
      ⟨"c", "Cy", "green", 2, none⟩, ⟨"d", "Di", "white", 3, none⟩]
    seed := "s8" }

/-- The home flag of the second takes the place of the first's, who starts without a tile. -/
theorem expansion_overplanted : ∃ s rs g, createGameState frontierScenario dashed = .ok s ∧
    Trace (Recorded (Game.Step frontierScenario)) (Game.new s) rs g ∧
    flagId "a-" "3,0" = flagId "a" "-3,0" ∧
    (∀ t, ¬ Holds g.state "a-" t) ∧ ¬ Expanded dashed rs g := by
  have hobserved : (createGameState frontierScenario dashed).toOption.bind (fun s =>
      (film (Game.turn frontierScenario) (Game.new s) [.start]).map fun m =>
        m.2.state.pieces.values.map Piece.owner) = some ["a", "c", "d"] := by decide +kernel
  obtain ⟨s, rs, g, hs, htrace, howners⟩ := film_observed Game.turn_step hobserved
  have hnone : ∀ t, ¬ Holds g.state "a-" t := by
    rintro t ⟨id, flag, hget, howner, -⟩
    have hmem : flag.owner ∈ g.state.pieces.values.map Piece.owner :=
      List.mem_map_of_mem (OrderedMap.mem_values.mpr ⟨id, hget⟩)
    rw [howners, howner] at hmem
    revert hmem
    decide
  refine ⟨s, rs, g, hs, htrace, by decide, hnone, fun hexp => ?_⟩
  obtain ⟨t, -, hholds⟩ := hexp.home ⟨"a-", "Ada", "red", 0, none⟩ (by decide)
  exact hnone t hholds

/-- `p1` pays for a leap and claims a tile away from the others. -/
def leap : List (Game.Request FrontierPayload) :=
  [.start, request "p1" (.claimTile "2,-1"), request "p1" .endTurn,
    request "p2" (.claimTile "-2,1"),
    request "p2" .endTurn, request "p1" (.trade "stone"), request "p1" (.claimTile "0,0")]

theorem expansion_iff_leap :
    ∃ s rs g, createGameState frontierScenario { pair with seed := "s20" } = .ok s ∧
    Trace (Recorded (Game.Step frontierScenario)) (Game.new s) rs g ∧ stoneTrades "p1" rs = 1 ∧
    (Expanded { pair with seed := "s20" } rs g ↔
      HomesApart { pair with seed := "s20" } ∧ ∀ r ∈ rs, ¬ Overplants r) := by
  have hobserved : (createGameState frontierScenario { pair with seed := "s20" }).toOption.bind
    (fun s =>
      (film (Game.turn frontierScenario) (Game.new s) leap).map fun m => stoneTrades "p1" m.1) =
      some 1 := by
    decide +kernel
  obtain ⟨s, rs, g, hs, htrace, hleaps⟩ := film_observed Game.turn_step hobserved
  exact ⟨s, rs, g, hs, htrace, hleaps, expansion_iff (by decide) hs htrace⟩

end Boardgame.Frontier
