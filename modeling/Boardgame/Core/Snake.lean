import Mathlib.Algebra.Ring.Parity
import Mathlib.Tactic.Ring
import Boardgame.Core.Rounds

/-!
# Core.Snake

The snake order over a fixed roster of `n` active players: A B C C B A A B C …

* `snakeIndex`: the place of turn `k`, counted from 0.
* `snake_sequence`: the turns go by `snakeIndex`, so every pass visits everyone once.
* `snake_rounds_iff`: the round manager's wrap test fits the passes of a snake of one player only.
-/

namespace Boardgame

/-- Whose turn it is after `k` calls of `next`, from `first`. -/
def TurnOrder.after (order : TurnOrder) (players : List Player) (first : PlayerId) : Nat →
    Except JsError (PlayerId × TurnOrder)
  | 0 => .ok (first, order)
  | k + 1 => do
    let (id, order) ← TurnOrder.after order players first k
    order.next id players

/-- The round manager after `k` calls of `endTurn`, and what each reported as `newRound`. -/
def RoundManager.endTurns (rm : RoundManager) (players : List Player) (phase : String) :
    Nat → Except JsError (List Bool × RoundManager)
  | 0 => .ok ([], rm)
  | k + 1 => do
    let (flags, rm) ← RoundManager.endTurns rm players phase k
    let (e, rm) ← rm.endTurn players phase
    return (flags ++ [e.newRound], rm)

/-- A pass goes up through the `n` places and the next comes down. -/
def snakeIndex (n k : Nat) : Nat := if k % (2 * n) < n then k % (2 * n) else 2 * n - 1 - k % (2 * n)

/-- Going up at turn `k`. -/
def ascending (n k : Nat) : Bool := k % (2 * n) < n

section

variable {n k : Nat}

theorem snakeIndex_lt (hn : 0 < n) (k : Nat) : snakeIndex n k < n := by
  have := Nat.mod_lt k (Nat.mul_pos Nat.two_pos hn)
  unfold snakeIndex
  split <;> omega

theorem mod_succ_eq (hn : 0 < n) (k : Nat) :
    (k + 1) % (2 * n) = if k % (2 * n) + 1 = 2 * n then 0 else k % (2 * n) + 1 := by
  have hlt := Nat.mod_lt k (Nat.mul_pos Nat.two_pos hn)
  rw [Nat.add_mod_eq_ite, Nat.mod_eq_of_lt (a := 1) (by omega)]
  split <;> split <;> omega

theorem snakeIndex_up (h : k % (2 * n) < n) : snakeIndex n k = k % (2 * n) ∧ ascending n k = true :=
  ⟨if_pos h, decide_eq_true h⟩

theorem snakeIndex_down (h : n ≤ k % (2 * n)) : snakeIndex n k = 2 * n - 1 - k % (2 * n) ∧
    ascending n k = false :=
  ⟨if_neg (Nat.not_lt.mpr h), decide_eq_false (Nat.not_lt.mpr h)⟩

/-- From one turn to the next the place goes up or down by one, or stays where the direction
turns. -/
theorem snakeIndex_succ (hn : 0 < n) (k : Nat) :
    (ascending n k = true ∧ snakeIndex n k = n - 1 ∧ snakeIndex n (k + 1) = snakeIndex n k ∧
      ascending n (k + 1) = false) ∨
    (ascending n k = false ∧ snakeIndex n k = 0 ∧ snakeIndex n (k + 1) = 0 ∧
      ascending n (k + 1) = true) ∨
    (ascending n k = true ∧ snakeIndex n k < n - 1 ∧ snakeIndex n (k + 1) = snakeIndex n k + 1 ∧
      ascending n (k + 1) = true) ∨
    (ascending n k = false ∧ 0 < snakeIndex n k ∧ snakeIndex n (k + 1) = snakeIndex n k - 1 ∧
      ascending n (k + 1) = false) := by
  have hlt := Nat.mod_lt k (Nat.mul_pos Nat.two_pos hn)
  have hsucc := mod_succ_eq hn k
  rcases Nat.lt_or_ge (k % (2 * n)) n with hup | hdown
  · obtain ⟨hi, ha⟩ := snakeIndex_up hup
    rw [if_neg (by omega)] at hsucc
    rcases Nat.lt_or_ge (k % (2 * n) + 1) n with hup' | hdown'
    · obtain ⟨hi', ha'⟩ := snakeIndex_up (hsucc ▸ hup')
      exact .inr (.inr (.inl ⟨ha, by omega, by omega, ha'⟩))
    · obtain ⟨hi', ha'⟩ := snakeIndex_down (hsucc ▸ hdown')
      exact .inl ⟨ha, by omega, by omega, ha'⟩
  · obtain ⟨hi, ha⟩ := snakeIndex_down hdown
    by_cases hlast : k % (2 * n) + 1 = 2 * n
    · rw [if_pos hlast] at hsucc
      obtain ⟨hi', ha'⟩ := snakeIndex_up (hsucc ▸ hn)
      exact .inr (.inl ⟨ha, by omega, by omega, ha'⟩)
    · rw [if_neg hlast] at hsucc
      have hdown' : n ≤ (k + 1) % (2 * n) := by omega
      obtain ⟨hi', ha'⟩ := snakeIndex_down hdown'
      exact .inr (.inr (.inr ⟨ha, by omega, by omega, ha'⟩))

end

section

variable {ps as : List Player} {p : Player}

/-- One call of `next`, at turn `k`. -/
theorem snakeNext_eq (h : InSeatOrder ps as) (k : Nat) (hp : as[snakeIndex as.length k]? = some p) :
    TurnOrder.snakeNext (ascending as.length k) p.id ps =
      (TurnOrder.idAt as (snakeIndex as.length (k + 1))).map (·, ascending as.length (k + 1)) := by
  have hn : 0 < as.length := by
    obtain ⟨hlt, -⟩ := List.getElem?_eq_some_iff.mp hp
    omega
  have hlen : as.length ≠ 0 := by omega
  simp only [TurnOrder.snakeNext, h.active, hlen, if_false, h.findIdx hp]
  rcases snakeIndex_succ hn k with ⟨hup, hi, hi', hup'⟩ | ⟨hup, hi, hi', hup'⟩ |
    ⟨hup, hi, hi', hup'⟩ | ⟨hup, hi, hi', hup'⟩
  · rw [if_pos ⟨hup, hi⟩, hi', hup']
  · rw [if_neg (by simp [hup]), if_pos ⟨by simp [hup], hi⟩, hi', hup']
  · rw [if_neg (by omega), if_neg (by simp [hup]), if_pos hup, hi', hup, hup']
  · rw [if_neg (by simp [hup]), if_neg (by omega), if_neg (by simp [hup]), hi', hup, hup']

/-- The player whose turn `k` is. -/
theorem place_get (hne : as ≠ []) (k : Nat) : ∃ p ∈ as, as[snakeIndex as.length k]? = some p := by
  have hlt := snakeIndex_lt (List.length_pos_of_ne_nil hne) k
  exact ⟨_, List.getElem_mem hlt, List.getElem?_eq_getElem hlt⟩

theorem snake_after {p₀ : Player} {rest : List Player} (h : InSeatOrder ps (p₀ :: rest)) (k : Nat) :
    ∃ p, (p₀ :: rest)[snakeIndex (rest.length + 1) k]? = some p ∧
      TurnOrder.after (.snake true) ps p₀.id k =
        .ok (p.id, .snake (ascending (rest.length + 1) k)) := by
  induction k with
  | zero =>
    have hzero : snakeIndex (rest.length + 1) 0 = 0 := by simp [snakeIndex]
    refine ⟨p₀, by rw [hzero]; rfl, ?_⟩
    have hup : ascending (rest.length + 1) 0 = true := by simp [ascending]
    rw [hup]
    rfl
  | succ k ih =>
    obtain ⟨p, hp, hafter⟩ := ih
    obtain ⟨q, -, hq⟩ := place_get (List.cons_ne_nil p₀ rest) (k + 1)
    rw [List.length_cons] at hq
    refine ⟨q, hq, ?_⟩
    have hnext := snakeNext_eq h k (by rw [List.length_cons]; exact hp)
    rw [List.length_cons] at hnext
    rw [TurnOrder.after, hafter]
    simp only [bind, Except.bind, TurnOrder.next, hnext, TurnOrder.idAt, hq, Except.map]

/-- Turn `i` of pass `j`. -/
theorem snakeIndex_pass {n i : Nat} (j : Nat) (hi : i < n) :
    snakeIndex n (j * n + i) = if j % 2 = 0 then i else n - 1 - i := by
  rcases Nat.even_or_odd' j with ⟨a, rfl | rfl⟩
  · have hmod : (2 * a * n + i) % (2 * n) = i := by
      rw [show 2 * a * n + i = i + 2 * n * a by ring, Nat.add_mul_mod_self_left,
        Nat.mod_eq_of_lt (by omega)]
    rw [(snakeIndex_up (hmod.symm ▸ hi)).1, hmod, if_pos (Nat.mul_mod_right 2 a)]
  · have hmod : ((2 * a + 1) * n + i) % (2 * n) = n + i := by
      rw [show (2 * a + 1) * n + i = n + i + 2 * n * a by ring, Nat.add_mul_mod_self_left,
        Nat.mod_eq_of_lt (by omega)]
    rw [(snakeIndex_down (by omega)).1, hmod, if_neg (by omega)]
    omega

/-- **The snake order is the snake.** Turn `k` falls to player `k mod 2n`, or to the one as far from
the other end; so pass `j` goes through the active players in seat order, or back through them. -/
theorem snake_sequence {p₀ : Player} {rest : List Player} (h : InSeatOrder ps (p₀ :: rest)) :
    let as := p₀ :: rest
    let n := as.length
    (∀ k, ∃ p order, as[if k % (2 * n) < n then k % (2 * n) else 2 * n - 1 - k % (2 * n)]? =
      some p ∧
      TurnOrder.after (.snake true) ps p₀.id k = .ok (p.id, order)) ∧
    ∀ j, ∀ i < n, ∃ p order, (if j % 2 = 0 then as else as.reverse)[i]? = some p ∧
      TurnOrder.after (.snake true) ps p₀.id (j * n + i) = .ok (p.id, order) := by
  intro as n
  refine ⟨fun k => ?_, fun j i hi => ?_⟩
  · obtain ⟨p, hp, hafter⟩ := snake_after h k
    exact ⟨p, _, hp, hafter⟩
  · obtain ⟨p, hp, hafter⟩ := snake_after h (j * n + i)
    refine ⟨p, _, ?_, hafter⟩
    have hpass : snakeIndex (rest.length + 1) (j * n + i) = if j % 2 = 0 then i else n - 1 - i :=
      snakeIndex_pass j hi
    rw [hpass] at hp
    by_cases hj : j % 2 = 0
    · rwa [if_pos hj] at hp ⊢
    · rw [if_neg hj] at hp ⊢
      rwa [List.getElem?_reverse hi]

end

/-! ## Rounds -/

section

variable {ps as : List Player} {p : Player} {rm : RoundManager} {phase phase' : String}
  {phases : List Phase}

/-- The rounds of a snake are its passes. -/
def RoundsArePasses (rm : RoundManager) (ps : List Player) (n : Nat) (phase : String) : Prop :=
  ∀ k, ∃ flags rm', rm.endTurns ps phase k = .ok (flags, rm') ∧
    (∀ i < k, flags[i]? = some (decide (n ∣ i + 1))) ∧ rm'.round = 1 + k / n

/-- Places compare as their seats do. -/
theorem seat_le_iff (h : InSeatOrder ps as) {i j : Nat} {p q : Player} (hp : as[i]? = some p)
    (hq : as[j]? = some q) :
    q.seat ≤ p.seat ↔ j ≤ i := by
  constructor
  · intro hle
    refine Nat.le_of_not_lt fun hlt => ?_
    have := h.sorted.get_lt hp hq hlt
    omega
  · exact fun hji => h.get_le hp hq hji

/-- The state after `k` calls, and what each of them reported. -/
theorem snake_endTurns {p₀ : Player} {rest : List Player} (h : InSeatOrder ps (p₀ :: rest))
    (horder : rm.turnOrder = .snake true) (hround : rm.round = 1)
    (hturn : rm.turn.activePlayer = p₀.id) (phase : String) (k : Nat) :
    ∃ flags rm' p, rm.endTurns ps phase k = .ok (flags, rm') ∧ flags.length = k ∧
      (∀ i < k, flags[i]? =
        some (decide (snakeIndex (rest.length + 1) (i + 1) ≤ snakeIndex (rest.length + 1) i))) ∧
      rm'.round = 1 + flags.count true ∧ rm'.turnOrder = .snake (ascending (rest.length + 1) k) ∧
      (p₀ :: rest)[snakeIndex (rest.length + 1) k]? = some p ∧ rm'.turn.activePlayer = p.id := by
  induction k with
  | zero =>
    have hzero : snakeIndex (rest.length + 1) 0 = 0 := by simp [snakeIndex]
    have hup : ascending (rest.length + 1) 0 = true := by simp [ascending]
    exact ⟨[], rm, p₀, rfl, rfl, nofun, hround, by rw [horder, hup], by rw [hzero]; rfl, hturn⟩
  | succ k ih =>
    obtain ⟨flags, rm', p, hrun, hlen, hflags, hround', horder', hp, hturn'⟩ := ih
    obtain ⟨q, hq', hq⟩ := place_get (List.cons_ne_nil p₀ rest) (k + 1)
    rw [List.length_cons] at hq
    have hnext := snakeNext_eq h k (by rw [List.length_cons]; exact hp)
    rw [List.length_cons] at hnext
    have hpps := (h.mem.mp (List.mem_of_getElem? hp)).1
    have hqps := (h.mem.mp hq').1
    have hwrap : decide (q.seat ≤ p.seat) =
        decide (snakeIndex (rest.length + 1) (k + 1) ≤ snakeIndex (rest.length + 1) k) :=
      decide_eq_decide.mpr (seat_le_iff h hp hq)
    obtain ⟨rm'', hend, horder'', hround'', hturn''⟩ : ∃ rm'',
        rm'.endTurn ps phase = .ok (⟨q.id, decide (q.seat ≤ p.seat)⟩, rm'') ∧
          rm''.turnOrder = .snake (ascending (rest.length + 1) (k + 1)) ∧
          rm''.round = (if q.seat ≤ p.seat then rm'.round + 1 else rm'.round) ∧
          rm''.turn.activePlayer = q.id := by
      have hcur : rm'.currentTurn.activePlayer = p.id := hturn'
      simp only [RoundManager.endTurn, horder', TurnOrder.next, hcur, hnext, TurnOrder.idAt,
        hq, Except.map, seatOf_eq h.ids hpps, seatOf_eq h.ids hqps, bind, Except.bind, pure,
        Except.pure, decide_eq_true_eq]
      exact ⟨_, rfl, rfl, rfl, rfl⟩
    refine ⟨flags ++ [decide (q.seat ≤ p.seat)], rm'', q, ?_, ?_, ?_, ?_, horder'', hq, hturn''⟩
    · rw [RoundManager.endTurns, hrun]
      simp only [bind, Except.bind, hend]
      rfl
    · rw [List.length_append, hlen, List.length_singleton]
    · intro i hi
      rcases Nat.lt_succ_iff_lt_or_eq.mp hi with hlt | rfl
      · rw [List.getElem?_append_left (hlen.symm ▸ hlt), hflags i hlt]
      · rw [List.getElem?_append_right (Nat.le_of_eq hlen), hlen, Nat.sub_self, hwrap]
        rfl
    · rw [hround'', List.count_append, ← Nat.add_assoc, ← hround']
      by_cases hle : q.seat ≤ p.seat
      · rw [if_pos hle, decide_eq_true hle]
        rfl
      · rw [if_neg hle, decide_eq_false hle]
        rfl

/-- **A snake of two or more breaks the count of rounds.** The round manager reports a new round on
every `n`-th call, and no other, exactly when there is one player: going down, every turn counts as
one. -/
theorem snake_rounds_iff (h : InSeatOrder ps as)
    (hnew : RoundManager.new ps (.snake true) phases phase = .ok rm) :
    RoundsArePasses rm ps as.length phase' ↔ as.length = 1 := by
  obtain ⟨p₀, rest, has, horder, hround, hturn⟩ : ∃ p₀ rest, as = p₀ :: rest ∧
      rm.turnOrder = .snake true ∧
      rm.round = 1 ∧ rm.turn.activePlayer = p₀.id := by
    cases as with
    | nil =>
      simp only [RoundManager.new, TurnOrder.initial, h.active, List.map_nil] at hnew
      split at hnew <;> cases hnew
    | cons p₀ rest =>
      simp only [RoundManager.new, TurnOrder.initial, h.active, List.map_cons] at hnew
      split at hnew
      · cases hnew
      · cases hnew
        exact ⟨p₀, rest, rfl, rfl, rfl, rfl⟩
  subst has
  rw [List.length_cons]
  have hpos : 0 < rest.length + 1 := Nat.succ_pos _
  constructor
  · intro hrounds
    by_contra hne
    obtain ⟨flags, rm', hrun, hclaimed, -⟩ := hrounds (rest.length + 1 + 1)
    obtain ⟨flags', rm'', p, hrun', -, hflags, -⟩ :=
      snake_endTurns h horder hround hturn phase' (rest.length + 1 + 1)
    rw [hrun] at hrun'
    cases hrun'
    have hreported := (hclaimed _ (Nat.lt_succ_self _)).symm.trans (hflags _ (Nat.lt_succ_self _))
    -- the turn after the first of the second pass: one place down
    have hlow : rest.length + 1 ≤ (rest.length + 1) % (2 * (rest.length + 1)) := by
      rw [Nat.mod_eq_of_lt (by omega)]
    have hplace := snakeIndex_down hlow
    rw [Nat.mod_eq_of_lt (by omega)] at hplace
    have hdown : snakeIndex (rest.length + 1) (rest.length + 1 + 1) ≤ snakeIndex (rest.length + 1)
        (rest.length + 1) := by
      rcases snakeIndex_succ hpos (rest.length + 1) with hs | hs | hs | hs <;> omega
    rw [decide_eq_true hdown, Option.some_inj, decide_eq_true_eq] at hreported
    have := (Nat.dvd_add_right (Nat.dvd_refl _)).mp hreported
    exact hne (Nat.dvd_one.mp this)
  · intro hone k
    obtain ⟨flags, rm', p, hrun, hlen, hflags, hround', -⟩ :=
      snake_endTurns h horder hround hturn phase' k
    have htrue : ∀ i < k, flags[i]? = some true := fun i hi => by
      have hplace := snakeIndex_lt hpos (i + 1)
      have hle : snakeIndex (rest.length + 1) (i + 1) ≤ snakeIndex (rest.length + 1) i := by omega
      rw [hflags i hi, decide_eq_true hle]
    refine ⟨flags, rm', hrun, fun i hi => ?_, ?_⟩
    · rw [htrue i hi, hone, decide_eq_true (Nat.one_dvd _)]
    · have hall : flags.count true = flags.length := List.count_eq_length.mpr fun b hb => by
        obtain ⟨i, hi, rfl⟩ := List.getElem_of_mem hb
        have := htrue i (hlen ▸ hi)
        rw [List.getElem?_eq_getElem hi, Option.some_inj] at this
        exact this.symm
      rw [hround', hall, hlen, hone, Nat.div_one]

end

/-! ## Two players -/

def duo : List Player :=
  [{ id := "p1", displayName := "p1", color := "red", seat := 0 },
    { id := "p2", displayName := "p2", color := "blue", seat := 1 }]

theorem duo_seated : InSeatOrder duo duo where
  sorted := by simp [SeatSorted, duo]
  perm := .refl _
  ids := by decide

theorem snake_sequence_duo : ∃ p order, duo[1]? = some p ∧
    TurnOrder.after (.snake true) duo "p1" 6 = .ok (p.id, order) :=
  (snake_sequence duo_seated).1 6

/-- The third turn ends inside the second pass, and is reported as a new round. -/
theorem snake_overcounts : ∃ rm, RoundManager.new duo (.snake true) [⟨"main", "Main", ["main"]⟩]
    "main" = .ok rm ∧
    ¬ RoundsArePasses rm duo 2 "main" := by
  refine ⟨_, rfl, fun hrounds => ?_⟩
  obtain ⟨flags, rm', hrun, hclaimed, -⟩ := hrounds 3
  cases hrun
  exact absurd (hclaimed 2 (by decide)) (by decide)

theorem snake_rounds_iff_duo :
    ∃ rm, RoundManager.new duo (.snake true) [⟨"main", "Main", ["main"]⟩] "main" = .ok rm ∧
    (RoundsArePasses rm duo 2 "main" ↔ duo.length = 1) := by
  have hnew : RoundManager.new duo (.snake true) [⟨"main", "Main", ["main"]⟩] "main" =
      .ok ⟨1, ⟨1, "p1", "main", ∅⟩, .snake true, [⟨"main", "Main", ["main"]⟩]⟩ := rfl
  exact ⟨_, hnew, snake_rounds_iff duo_seated hnew⟩

end Boardgame
