import Boardgame.Core.Players

/-!
# Core.Rounds

Turns and rounds (`rounds/`): the two `TurnOrder` strategies and `RoundManager`.

* `InSeatOrder`: the active players of a roster in seat order; `InSeatOrder.clockwise_next` is what
  `ClockwiseTurnOrder.next` answers there, and `InSeatOrder.clockwise_fallback` when the current
  player is out.
* `clockwise_next`: what `ClockwiseTurnOrder.next` answers on a roster in strict seat order, when
  the current player is still active: the least active seat above the current one, or the least
  active seat of all.
* `RoundManager.endTurn_spec`: the same for `endTurn`, with the wrap test.
-/

namespace Boardgame

structure Turn where
  turnNumber : Nat
  activePlayer : PlayerId
  currentPhaseId : String
  /-- Per-turn flags; an absent flag reads as `false`. -/
  flags : OrderedMap String Bool
  deriving DecidableEq

def Turn.flag (t : Turn) (name : String) : Bool := (t.flags.get? name).getD false

structure Phase where
  id : String
  displayName : String
  nextPhases : List String
  deriving DecidableEq

/-- The strategies of `turn-order.ts`; the snake carries its mutable direction. -/
inductive TurnOrder where
  | clockwise
  | snake (goingForward : Bool)
  deriving DecidableEq

def activeSortedByseat (players : List Player) : List Player :=
  sortBySeat (players.filter Player.isActive)

namespace TurnOrder

def initial (_ : TurnOrder) (players : List Player) : List PlayerId :=
  (activeSortedByseat players).map Player.id

/-- `active[i]!.id`, the index taken as in range; out of range it is a `TypeError`. -/
def idAt (active : List Player) (i : Nat) : Except JsError PlayerId :=
  match active[i]? with
  | some p => .ok p.id
  | none => .error ⟨"Cannot read properties of undefined (reading 'id')"⟩

/-- `ClockwiseTurnOrder.next`. -/
def clockwiseNext (currentId : PlayerId) (players : List Player) : Except JsError PlayerId :=
  let active := activeSortedByseat players
  if active.length = 0 then .error ⟨"No active players remain"⟩
  else if active.length = 1 then idAt active 0
  else match active.findIdx? (·.id = currentId) with
    | none => idAt active 0
    | some idx => idAt active ((idx + 1) % active.length)

/-- `SnakeTurnOrder.next`, with the direction after the call. -/
def snakeNext (goingForward : Bool) (currentId : PlayerId) (players : List Player) :
    Except JsError (PlayerId × Bool) :=
  let active := activeSortedByseat players
  if active.length = 0 then .error ⟨"No active players remain"⟩
  else match active.findIdx? (·.id = currentId) with
    | none => (idAt active 0).map (·, goingForward)
    | some idx =>
      if goingForward ∧ idx = active.length - 1 then (idAt active idx).map (·, false)
      else if ¬ goingForward ∧ idx = 0 then (idAt active 0).map (·, true)
      else if goingForward then (idAt active (idx + 1)).map (·, goingForward)
      else (idAt active (idx - 1)).map (·, goingForward)

def next (order : TurnOrder) (currentId : PlayerId) (players : List Player) :
    Except JsError (PlayerId × TurnOrder) :=
  match order with
  | .clockwise => (clockwiseNext currentId players).map (·, .clockwise)
  | .snake fwd => (snakeNext fwd currentId players).map fun r => (r.1, .snake r.2)

end TurnOrder

structure RoundManager where
  currentRound : Nat
  currentTurn : Turn
  turnOrder : TurnOrder
  phases : List Phase
  deriving DecidableEq

namespace RoundManager

/-- The constructor. -/
def new (players : List Player) (turnOrder : TurnOrder) (phases : List Phase)
    (initialPhaseId : String) : Except JsError RoundManager :=
  if initialPhaseId ∉ phases.map Phase.id then
    .error ⟨"Unknown initial phase: " ++ initialPhaseId⟩
  else match turnOrder.initial players with
    | [] => .error ⟨"No players in roster"⟩
    | first :: _ => .ok
      { currentRound := 1
        currentTurn := ⟨1, first, initialPhaseId, ∅⟩
        turnOrder, phases }

def turn (rm : RoundManager) : Turn := rm.currentTurn

def round (rm : RoundManager) : Nat := rm.currentRound

def setFlag (rm : RoundManager) (name : String) (value : Bool) : RoundManager :=
  { rm with currentTurn := { rm.currentTurn with flags := rm.currentTurn.flags.set name value } }

/-- `players.find((p) => p.id === id)?.seat ?? fallback`. -/
def seatOf (players : List Player) (id : PlayerId) (fallback : Int) : Int :=
  ((players.find? (·.id = id)).map Player.seat).getD fallback

structure TurnEnd where
  newActivePlayer : PlayerId
  newRound : Bool
  deriving DecidableEq

def endTurn (rm : RoundManager) (players : List Player) (initialPhaseId : String) :
    Except JsError (TurnEnd × RoundManager) := do
  let currentSeat := seatOf players rm.currentTurn.activePlayer (-1)
  let (next, order) ← rm.turnOrder.next rm.currentTurn.activePlayer players
  let nextSeat := seatOf players next 0
  -- The round advances when the next player's seat is not above the current one.
  let wrappedAround : Bool := nextSeat ≤ currentSeat
  return (⟨next, wrappedAround⟩,
    { rm with
      currentRound := if wrappedAround then rm.currentRound + 1 else rm.currentRound
      currentTurn := ⟨rm.currentTurn.turnNumber + 1, next, initialPhaseId, ∅⟩
      turnOrder := order })

theorem endTurn_turn {rm rm' : RoundManager} {players : List Player} {phase : String}
    {id : PlayerId} {wrapped : Bool} (h : rm.endTurn players phase = .ok (⟨id, wrapped⟩, rm')) :
    rm'.turn.activePlayer = id := by
  unfold endTurn at h
  cases hnext : rm.turnOrder.next rm.currentTurn.activePlayer players with
  | error e => simp [hnext, bind, Except.bind] at h
  | ok next =>
    simp only [hnext, bind, Except.bind, pure, Except.pure, Except.ok.injEq, Prod.mk.injEq,
      TurnEnd.mk.injEq] at h
    obtain ⟨⟨rfl, -⟩, rfl⟩ := h
    rfl

@[simp] theorem setFlag_round (rm : RoundManager) (n : String) (v : Bool) :
    (rm.setFlag n v).round = rm.round := rfl

@[simp] theorem setFlag_activePlayer (rm : RoundManager) (n : String) (v : Bool) :
    (rm.setFlag n v).turn.activePlayer = rm.turn.activePlayer := rfl

end RoundManager

/-! ## The clockwise successor -/

section Clockwise

variable {ps : List Player}

/-- In a list in strict seat order, the element after index `i` has the least seat above the one
at `i`. -/
theorem SeatSorted.get_lt {as : List Player} (h : SeatSorted as) {i j : Nat} {p q : Player}
    (hi : as[i]? = some p) (hj : as[j]? = some q) (hij : i < j) : p.seat < q.seat := by
  obtain ⟨hi', rfl⟩ := List.getElem?_eq_some_iff.mp hi
  obtain ⟨hj', rfl⟩ := List.getElem?_eq_some_iff.mp hj
  exact List.pairwise_iff_getElem.mp h i j hi' hj' hij

/-- What "next player clockwise" means on the active players `as`: either `q` has the least seat
above `p`'s, or no seat is above `p`'s and `q` has the least seat of all. -/
def ClockwiseSucc (as : List Player) (p q : Player) : Prop :=
  (p.seat < q.seat ∧ ∀ r ∈ as, p.seat < r.seat → q.seat ≤ r.seat) ∨
    ((∀ r ∈ as, r.seat ≤ p.seat) ∧ ∀ r ∈ as, q.seat ≤ r.seat)

/-- `as` are the active players of the roster `ps`, in seat order. -/
structure InSeatOrder (ps as : List Player) : Prop where
  sorted : SeatSorted as
  perm : as.Perm (ps.filter Player.isActive)
  ids : (ps.map Player.id).Nodup

namespace InSeatOrder

variable {as : List Player} {p : Player} {i : Nat}

theorem of_sorted (h : SeatSorted ps) (hid : (ps.map Player.id).Nodup) :
    InSeatOrder ps (ps.filter Player.isActive) :=
  ⟨h.filter _, .refl _, hid⟩

theorem of_nodup (hseat : (ps.map Player.seat).Nodup) (hid : (ps.map Player.id).Nodup) :
    InSeatOrder ps (activeSortedByseat ps) :=
  ⟨sortBySeat_sorted (hseat.sublist (List.filter_sublist.map _)), sortBySeat_perm _, hid⟩

theorem mem (h : InSeatOrder ps as) : p ∈ as ↔ p ∈ ps ∧ p.isActive = true :=
  h.perm.mem_iff.trans List.mem_filter

theorem active (h : InSeatOrder ps as) : activeSortedByseat ps = as := by
  have hseat : ((ps.filter Player.isActive).map Player.seat).Nodup := by
    refine ((h.perm.map Player.seat).nodup_iff).mp ?_
    rw [List.Nodup, List.pairwise_map]
    exact h.sorted.imp fun hab => by omega
  refine ((sortBySeat_perm _).trans h.perm.symm).eq_of_pairwise ?_
    (sortBySeat_sorted hseat) h.sorted
  intro a b _ _ hab hba
  omega

/-- A player of the list is found under their own index. -/
theorem findIdx (h : InSeatOrder ps as) (hi : as[i]? = some p) :
    as.findIdx? (·.id = p.id) = some i := by
  have hidas : (as.map Player.id).Nodup :=
    ((h.perm.map Player.id).nodup_iff).mpr (h.ids.sublist (List.filter_sublist.map _))
  obtain ⟨hlt, rfl⟩ := List.getElem?_eq_some_iff.mp hi
  rw [List.findIdx?_eq_some_iff_getElem]
  refine ⟨hlt, by simp, fun j hj => ?_⟩
  have hne : as[j].id ≠ as[i].id := fun he => by
    have hsame := List.inj_on_of_nodup_map hidas (List.getElem_mem _) (List.getElem_mem _) he
    have := (List.Nodup.getElem_inj_iff (hidas.of_map _)).mp hsame
    omega
  simpa using hne

theorem findIdx_none (h : InSeatOrder ps as) (hp : p ∈ ps) (hout : p.isActive = false) :
    as.findIdx? (·.id = p.id) = none := by
  rw [List.findIdx?_eq_none_iff]
  intro q hq
  have hne : q.id ≠ p.id := fun he => by
    have hqps := h.mem.mp hq
    rw [List.inj_on_of_nodup_map h.ids hqps.1 hp he, hout] at hqps
    cases hqps.2
  simpa using hne

/-- The first active player has the least seat. -/
theorem first (h : InSeatOrder ps as) (hp : as[0]? = some p) : ∀ r ∈ as, p.seat ≤ r.seat := by
  intro r hr
  obtain ⟨k, hk, rfl⟩ := List.getElem_of_mem hr
  rcases Nat.eq_zero_or_pos k with rfl | hk0
  · rw [List.getElem?_eq_getElem hk] at hp
    cases hp
    exact Int.le_refl _
  · exact Int.le_of_lt (h.sorted.get_lt hp (List.getElem?_eq_getElem hk) hk0)

theorem get_le (h : InSeatOrder ps as) (hi : as[i]? = some p) {k : Nat} {r : Player}
    (hr : as[k]? = some r) (hki : k ≤ i) :
    r.seat ≤ p.seat := by
  rcases Nat.lt_or_eq_of_le hki with hlt | rfl
  · exact Int.le_of_lt (h.sorted.get_lt hr hi hlt)
  · rw [hi] at hr
    cases hr
    exact Int.le_refl _

/-- From an active player, `next` goes on to the clockwise successor. -/
theorem clockwise_next (h : InSeatOrder ps as) (hpas : p ∈ as) :
    ∃ q ∈ as, TurnOrder.clockwiseNext p.id ps = .ok q.id ∧ ClockwiseSucc as p q := by
  obtain ⟨i, hi, rfl⟩ := List.getElem_of_mem hpas
  have hp : as[i]? = some as[i] := List.getElem?_eq_getElem hi
  have hnext : TurnOrder.clockwiseNext as[i].id ps = TurnOrder.idAt as ((i + 1) % as.length) := by
    have hlen : as.length ≠ 0 := by omega
    simp only [TurnOrder.clockwiseNext, h.active, hlen, if_false]
    split
    · rename_i h1
      rw [h1, Nat.mod_one]
    · rw [h.findIdx hp]
  by_cases hlast : i + 1 = as.length
  · obtain ⟨q, hq⟩ : ∃ q, as[0]? = some q := ⟨as[0], List.getElem?_eq_getElem (by omega)⟩
    refine ⟨q, List.mem_of_getElem? hq, ?_, .inr ⟨?_, h.first hq⟩⟩
    · rw [hnext, hlast, Nat.mod_self]
      simp [TurnOrder.idAt, hq]
    · intro r hr
      obtain ⟨k, hk, rfl⟩ := List.getElem_of_mem hr
      exact h.get_le hp (List.getElem?_eq_getElem hk) (by omega)
  · have hlt : i + 1 < as.length := by omega
    obtain ⟨q, hq⟩ : ∃ q, as[i + 1]? = some q := ⟨as[i + 1], List.getElem?_eq_getElem hlt⟩
    refine ⟨q, List.mem_of_getElem? hq, ?_, .inl ⟨h.sorted.get_lt hp hq (by omega), ?_⟩⟩
    · rw [hnext, Nat.mod_eq_of_lt (by omega)]
      simp [TurnOrder.idAt, hq]
    · intro r hr hpr
      obtain ⟨k, hk, rfl⟩ := List.getElem_of_mem hr
      have hk? := List.getElem?_eq_getElem hk
      rcases Nat.lt_trichotomy k (i + 1) with hlt | rfl | hgt
      · exact absurd (h.get_le hp hk? (by omega)) (by omega)
      · rw [hk?] at hq
        cases hq
        exact Int.le_refl _
      · exact Int.le_of_lt (h.sorted.get_lt hq hk? hgt)

/-- From a player who is out, `next` falls back to the first active player. -/
theorem clockwise_fallback (h : InSeatOrder ps as) (hp : p ∈ ps) (hout : p.isActive = false)
    {q : Player} (hq : as[0]? = some q) : TurnOrder.clockwiseNext p.id ps = .ok q.id := by
  have hlen : as.length ≠ 0 := by
    obtain ⟨hlt, -⟩ := List.getElem?_eq_some_iff.mp hq
    omega
  simp only [TurnOrder.clockwiseNext, h.active, hlen, if_false, h.findIdx_none hp hout,
    TurnOrder.idAt, hq, ite_self]

end InSeatOrder

theorem clockwise_next (h : SeatSorted ps) (hid : (ps.map Player.id).Nodup) {p : Player}
    (hp : p ∈ ps) (ha : p.isActive = true) :
    ∃ q ∈ ps, q.isActive = true ∧ TurnOrder.clockwiseNext p.id ps = .ok q.id ∧
      ClockwiseSucc (ps.filter Player.isActive) p q := by
  have hs := InSeatOrder.of_sorted h hid
  obtain ⟨q, hq, hnext, hsucc⟩ := hs.clockwise_next (hs.mem.mpr ⟨hp, ha⟩)
  exact ⟨q, (hs.mem.mp hq).1, (hs.mem.mp hq).2, hnext, hsucc⟩

theorem seatOf_eq (hid : (ps.map Player.id).Nodup) {p : Player} (hp : p ∈ ps) (d : Int) :
    RoundManager.seatOf ps p.id d = p.seat := by
  have : ps.find? (·.id = p.id) = some p := by
    cases hf : ps.find? (·.id = p.id) with
    | none => simpa using List.find?_eq_none.mp hf p hp
    | some q =>
      have hq : q.id = p.id := by simpa using List.find?_some hf
      rw [List.inj_on_of_nodup_map hid (List.mem_of_find?_eq_some hf) hp hq]
  simp [RoundManager.seatOf, this]

/-- `endTurn` under the clockwise order, the current player being active: the turn passes to the
clockwise successor, and the round advances exactly when that seat is not above the current one. -/
theorem RoundManager.endTurn_spec (h : SeatSorted ps) (hid : (ps.map Player.id).Nodup)
    {rm : RoundManager} (hord : rm.turnOrder = .clockwise) {p : Player} (hp : p ∈ ps)
    (ha : p.isActive = true) (hcur : rm.turn.activePlayer = p.id) (phase : String) :
    ∃ q ∈ ps, q.isActive = true ∧ ClockwiseSucc (ps.filter Player.isActive) p q ∧
      rm.endTurn ps phase = .ok (⟨q.id, q.seat ≤ p.seat⟩,
        { rm with
          currentRound := if q.seat ≤ p.seat then rm.currentRound + 1 else rm.currentRound
          currentTurn := ⟨rm.currentTurn.turnNumber + 1, q.id, phase, ∅⟩ }) := by
  obtain ⟨q, hq, hqa, hnext, hsucc⟩ := clockwise_next h hid hp ha
  refine ⟨q, hq, hqa, hsucc, ?_⟩
  have hcur' : rm.currentTurn.activePlayer = p.id := hcur
  simp only [endTurn, hord, TurnOrder.next, hcur', hnext, Except.map, seatOf_eq hid hp,
    seatOf_eq hid hq, bind, Except.bind, pure, Except.pure, decide_eq_true_eq]

/-- With somebody in the game a turn can always end, and passes to somebody in the game. -/
theorem RoundManager.endTurn_total {rm : RoundManager} (hord : rm.turnOrder = .clockwise)
    (h : ∃ p ∈ ps, p.isActive = true) (phase : String) :
    ∃ q ∈ ps, ∃ b : Bool, rm.endTurn ps phase = .ok (⟨q.id, b⟩,
      { rm with
        currentRound := if b then rm.currentRound + 1 else rm.currentRound
        currentTurn := ⟨rm.currentTurn.turnNumber + 1, q.id, phase, ∅⟩ }) := by
  have hmem : ∀ q ∈ activeSortedByseat ps, q ∈ ps := fun q hq =>
    (List.mem_filter.mp (mem_sortBySeat.mp hq)).1
  have hpos : 0 < (activeSortedByseat ps).length := by
    obtain ⟨p, hp, ha⟩ := h
    exact List.length_pos_of_mem (mem_sortBySeat.mpr (List.mem_filter.mpr ⟨hp, ha⟩))
  have hat : ∀ i, i < (activeSortedByseat ps).length →
      ∃ q ∈ ps, TurnOrder.idAt (activeSortedByseat ps) i = .ok q.id := fun i hi =>
    ⟨_, hmem _ (List.getElem_mem hi), by rw [TurnOrder.idAt, List.getElem?_eq_getElem hi]⟩
  have hnext : ∃ q ∈ ps, TurnOrder.clockwiseNext rm.currentTurn.activePlayer ps = .ok q.id := by
    unfold TurnOrder.clockwiseNext
    dsimp only
    rw [if_neg (by omega)]
    split
    · exact hat 0 hpos
    · split
      · exact hat 0 hpos
      · exact hat _ (Nat.mod_lt _ hpos)
  obtain ⟨q, hq, hnext⟩ := hnext
  refine ⟨q, hq, decide (seatOf ps q.id 0 ≤ seatOf ps rm.currentTurn.activePlayer (-1)), ?_⟩
  simp only [endTurn, hord, TurnOrder.next, hnext, Except.map, bind, Except.bind, pure, Except.pure]

end Clockwise

theorem RoundManager.new_clockwise {players : List Player} {phases : List Phase} {phase : String}
    {rm : RoundManager} (h : RoundManager.new players .clockwise phases phase = .ok rm) :
    rm.turnOrder = .clockwise ∧ rm.round = 1 ∧ rm.turn.activePlayer ∈ players.map Player.id := by
  unfold RoundManager.new at h
  split at h
  · cases h
  · split at h
    · cases h
    · rename_i first rest heq
      cases h
      refine ⟨rfl, rfl, ?_⟩
      have : first ∈ TurnOrder.initial .clockwise players := by rw [heq]; simp
      simp only [TurnOrder.initial, activeSortedByseat, List.mem_map] at this
      obtain ⟨p, hp, rfl⟩ := this
      exact List.mem_map_of_mem (List.mem_filter.mp (mem_sortBySeat.mp hp)).1

/-- The first turn is that of the lowest seat. -/
theorem RoundManager.new_first {players : List Player} {phases : List Phase} {phase : String}
    {rm : RoundManager} (hseat : (players.map Player.seat).Nodup)
    (h : RoundManager.new players .clockwise phases phase = .ok rm) :
    ∃ p ∈ players, p.id = rm.turn.activePlayer ∧ ∀ q ∈ players, q.isActive = true →
      p.seat ≤ q.seat := by
  unfold RoundManager.new at h
  split at h
  · cases h
  · split at h
    · cases h
    · rename_i first rest heq
      cases h
      have hsorted : SeatSorted (activeSortedByseat players) :=
        sortBySeat_sorted (hseat.sublist (List.filter_sublist.map _))
      have hinitial : (activeSortedByseat players).map Player.id = first :: rest := heq
      cases hlist : activeSortedByseat players with
      | nil =>
        rw [hlist] at hinitial
        cases hinitial
      | cons p ps =>
        rw [hlist] at hinitial hsorted
        have hmem : ∀ q, q ∈ p :: ps ↔ q ∈ players ∧ q.isActive = true := fun q => by
          rw [← hlist, activeSortedByseat, mem_sortBySeat, List.mem_filter]
        refine ⟨p, ((hmem p).mp List.mem_cons_self).1, List.head_eq_of_cons_eq hinitial,
          fun q hq hqa => ?_⟩
        rcases List.mem_cons.mp ((hmem q).mpr ⟨hq, hqa⟩) with rfl | hq
        · exact Int.le_refl _
        · exact Int.le_of_lt ((List.pairwise_cons.mp hsorted).1 q hq)

/-- Somebody is there to begin. -/
theorem RoundManager.new_returns {players : List Player} {phases : List Phase} {phase : String}
    {p : Player} (hphase : phase ∈ phases.map Phase.id) (hp : p ∈ players)
    (hactive : p.isActive = true) :
    ∃ rm, RoundManager.new players .clockwise phases phase = .ok rm := by
  have hin : p.id ∈ TurnOrder.initial .clockwise players :=
    List.mem_map_of_mem (mem_sortBySeat.mpr (List.mem_filter.mpr ⟨hp, hactive⟩))
  unfold RoundManager.new
  rw [if_neg (not_not.mpr hphase)]
  cases h : TurnOrder.initial .clockwise players with
  | nil =>
    rw [h] at hin
    cases hin
  | cons first rest => exact ⟨_, rfl⟩

end Boardgame
