import Boardgame.Lib.Trace
import Boardgame.Core.Rounds

/-!
# Core.Elimination

The round manager while players leave the game between its calls, under the clockwise order.

* `Table.PassesOn`: the turn goes to the next active seat, or round to the first with a new round.
* `Table.Straddled`: the player whose turn it is is out, and active players sit on both sides.
* `endTurn_clockwise`: in every run `endTurn` passes the turn on so except from a straddled seat,
  where it falls back to the first active player.
-/

namespace Boardgame

structure Table where
  players : List Player
  rounds : RoundManager
  deriving DecidableEq

/-- What happens at a table: some of the players are eliminated, a flag is set, or a turn ends. -/
inductive Deed where
  | eliminate (ids : List PlayerId)
  | setFlag (name : String) (value : Bool)
  | endTurn (phase : String)

def eliminateAll (ids : List PlayerId) (ps : List Player) : List Player :=
  ps.map fun p => if p.id ∈ ids then { p with status := some .eliminated } else p

namespace Table

/-- A step; a call of `endTurn` that throws is none. -/
inductive Step : Table → Deed → Table → Prop where
  | eliminate {ps : List Player} {rm : RoundManager} {ids : List PlayerId} :
      Step ⟨ps, rm⟩ (.eliminate ids) ⟨eliminateAll ids ps, rm⟩
  | setFlag {ps : List Player} {rm : RoundManager} {name : String} {value : Bool} :
      Step ⟨ps, rm⟩ (.setFlag name value) ⟨ps, rm.setFlag name value⟩
  | endTurn {ps : List Player} {rm rm' : RoundManager} {phase : String} {r : RoundManager.TurnEnd} :
      rm.endTurn ps phase = .ok (r, rm') → Step ⟨ps, rm⟩ (.endTurn phase) ⟨ps, rm'⟩

def active (t : Table) : List Player := t.players.filter Player.isActive

/-- Ending the turn of `p` hands it to the active player with the least seat above, in the same
round, or else to the one with the least seat, in the next round. -/
def PassesOn (t : Table) (p : Player) (phase : String) : Prop :=
  ∃ q ∈ t.active, ∃ b rm', t.rounds.endTurn t.players phase = .ok (⟨q.id, b⟩, rm') ∧
    rm'.turn.activePlayer = q.id ∧ rm'.round = (if b then t.rounds.round + 1 else t.rounds.round) ∧
    ((p.seat < q.seat ∧ (∀ r ∈ t.active, p.seat < r.seat → q.seat ≤ r.seat) ∧ b = false) ∨
      ((∀ r ∈ t.active, r.seat ≤ p.seat) ∧ (∀ r ∈ t.active, q.seat ≤ r.seat) ∧ b = true))

/-- Ending the turn hands it to the active player with the least seat, in the next round. -/
def FallsBack (t : Table) (phase : String) : Prop :=
  ∃ q ∈ t.active, ∃ rm', t.rounds.endTurn t.players phase = .ok (⟨q.id, true⟩, rm') ∧
    rm'.turn.activePlayer = q.id ∧ rm'.round = t.rounds.round + 1 ∧ ∀ r ∈ t.active, q.seat ≤ r.seat

/-- `p` is out of the game, and active players sit on both sides of the seat. -/
def Straddled (t : Table) (p : Player) : Prop :=
  p.isActive = false ∧ (∃ r ∈ t.active, r.seat < p.seat) ∧ ∃ r ∈ t.active, p.seat < r.seat

end Table

/-- What the calls keep: ids and seats stay distinct, and the turn is one of the players'. -/
structure Table.Sound (t : Table) : Prop where
  ids : (t.players.map Player.id).Nodup
  seats : (t.players.map Player.seat).Nodup
  clockwise : t.rounds.turnOrder = .clockwise
  current : ∃ p ∈ t.players, p.id = t.rounds.turn.activePlayer

section

variable {ps : List Player} {rm rm₀ : RoundManager} {t t' : Table} {p : Player} {d : Deed}

theorem eliminateAll_id (ids : List PlayerId) (ps : List Player) :
    (eliminateAll ids ps).map Player.id = ps.map Player.id := by
  rw [eliminateAll, List.map_map]
  refine List.map_congr_left fun p _ => ?_
  simp only [Function.comp_apply]
  split <;> rfl

theorem eliminateAll_seat (ids : List PlayerId) (ps : List Player) :
    (eliminateAll ids ps).map Player.seat = ps.map Player.seat := by
  rw [eliminateAll, List.map_map]
  refine List.map_congr_left fun p _ => ?_
  simp only [Function.comp_apply]
  split <;> rfl

namespace Table

theorem Sound.inSeatOrder (h : t.Sound) : InSeatOrder t.players (activeSortedByseat t.players) :=
  .of_nodup h.seats h.ids

theorem Sound.mem_active (h : t.Sound) : p ∈ activeSortedByseat t.players ↔ p ∈ t.active :=
  h.inSeatOrder.perm.mem_iff

/-- `endTurn` once the order has answered. -/
theorem Sound.endTurn_of_next (h : t.Sound) (hp : p ∈ t.players)
    (hcur : p.id = t.rounds.turn.activePlayer) {q : Player} (hq : q ∈ t.players)
    (hnext : TurnOrder.clockwiseNext p.id t.players = .ok q.id) (phase : String) :
    ∃ rm', t.rounds.endTurn t.players phase = .ok (⟨q.id, decide (q.seat ≤ p.seat)⟩, rm') ∧
      rm'.turnOrder = .clockwise ∧ rm'.turn.activePlayer = q.id ∧
      rm'.round = if q.seat ≤ p.seat then t.rounds.round + 1 else t.rounds.round := by
  have hcur' : t.rounds.currentTurn.activePlayer = p.id := hcur.symm
  simp only [RoundManager.endTurn, h.clockwise, TurnOrder.next, hcur', hnext, Except.map,
    seatOf_eq h.ids hp, seatOf_eq h.ids hq, bind, Except.bind, pure, Except.pure, decide_eq_true_eq]
  exact ⟨_, rfl, rfl, rfl, rfl⟩

/-- Whom the clockwise order answers with, while somebody is in the game. -/
theorem Sound.next (h : t.Sound) (hp : p ∈ t.players) (hin : ∃ r, r ∈ t.active) :
    ∃ q ∈ t.active, TurnOrder.clockwiseNext p.id t.players = .ok q.id ∧
      (p.isActive = true → ClockwiseSucc t.active p q) ∧
      (p.isActive = false → ∀ r ∈ t.active, q.seat ≤ r.seat) := by
  have hsucc : ∀ {q}, ClockwiseSucc (activeSortedByseat t.players) p q →
      ClockwiseSucc t.active p q := fun hq =>
    hq.imp (fun hq => ⟨hq.1, fun r hr => hq.2 r (h.mem_active.mpr hr)⟩)
      fun hq => ⟨fun r hr => hq.1 r (h.mem_active.mpr hr), fun r hr => hq.2 r (h.mem_active.mpr hr)⟩
  cases hactive : p.isActive with
  | true =>
    have hpin : p ∈ activeSortedByseat t.players := h.inSeatOrder.mem.mpr ⟨hp, hactive⟩
    obtain ⟨q, hq, hnext, hq'⟩ := h.inSeatOrder.clockwise_next hpin
    exact ⟨q, h.mem_active.mp hq, hnext, fun _ => hsucc hq', nofun⟩
  | false =>
    obtain ⟨r, hr⟩ := hin
    have hlen : 0 < (activeSortedByseat t.players).length :=
      List.length_pos_of_mem (h.mem_active.mpr hr)
    have hfirst := List.getElem?_eq_getElem hlen
    exact ⟨_, h.mem_active.mp (List.getElem_mem hlen),
      h.inSeatOrder.clockwise_fallback hp hactive hfirst, nofun, fun _ r hr =>
        h.inSeatOrder.first hfirst r (h.mem_active.mpr hr)⟩

/-- A turn that ends leaves a table whose turn is an active player's. -/
theorem Sound.endTurn (h : t.Sound) {phase : String} {r : RoundManager.TurnEnd}
    (hend : t.rounds.endTurn t.players phase = .ok (r, rm)) : Sound ⟨t.players, rm⟩ := by
  obtain ⟨p, hp, hcur⟩ := h.current
  have hin : ∃ r, r ∈ t.active := by
    by_contra hnone
    have hempty : activeSortedByseat t.players = [] :=
      List.eq_nil_iff_forall_not_mem.mpr fun q hq => hnone ⟨q, h.mem_active.mp hq⟩
    simp [RoundManager.endTurn, h.clockwise, TurnOrder.next, TurnOrder.clockwiseNext, hempty,
      Except.map, bind, Except.bind] at hend
  obtain ⟨q, hq, hnext, -⟩ := h.next hp hin
  have hqp : q ∈ t.players := (List.mem_filter.mp hq).1
  obtain ⟨rm', hend', horder, hturn, -⟩ := h.endTurn_of_next hp hcur hqp hnext phase
  rw [hend] at hend'
  cases hend'
  exact ⟨h.ids, h.seats, horder, q, hqp, hturn.symm⟩

theorem Sound.step (h : t.Sound) (hs : Step t d t') : t'.Sound := by
  cases hs with
  | eliminate =>
    obtain ⟨p, hp, hcur⟩ := h.current
    refine ⟨by rw [eliminateAll_id]; exact h.ids, by rw [eliminateAll_seat]; exact h.seats,
      h.clockwise, ?_⟩
    have hid := List.mem_map_of_mem (f := Player.id) hp
    rw [← eliminateAll_id] at hid
    obtain ⟨q, hq, hqid⟩ := List.mem_map.mp hid
    exact ⟨q, hq, hqid.trans hcur⟩
  | setFlag => exact ⟨h.ids, h.seats, h.clockwise, h.current⟩
  | endTurn hend => exact h.endTurn hend

theorem sound_new {phases : List Phase} {phase : String} (hid : (ps.map Player.id).Nodup)
    (hseat : (ps.map Player.seat).Nodup)
    (hnew : RoundManager.new ps .clockwise phases phase = .ok rm) :
    Sound ⟨ps, rm⟩ := by
  obtain ⟨hclockwise, -, hcur⟩ := RoundManager.new_clockwise hnew
  obtain ⟨p, hp, hid'⟩ := List.mem_map.mp hcur
  exact ⟨hid, hseat, hclockwise, p, hp, hid'⟩

/-- One call of `endTurn`. -/
theorem Sound.passesOn (h : t.Sound) (hp : p ∈ t.players) (hcur : p.id = t.rounds.turn.activePlayer)
    (hin : ∃ r, r ∈ t.active) (phase : String) :
    (¬ t.Straddled p → t.PassesOn p phase) ∧ (t.Straddled p → t.FallsBack phase) := by
  obtain ⟨q, hq, hnext, hsucc, hleast⟩ := h.next hp hin
  have hqp : q ∈ t.players ∧ q.isActive = true := List.mem_filter.mp hq
  obtain ⟨rm', hend, -, hturn, hround⟩ := h.endTurn_of_next hp hcur hqp.1 hnext phase
  constructor
  · intro hsides
    refine ⟨q, hq, _, rm', hend, hturn, by simpa using hround, ?_⟩
    cases hactive : p.isActive with
    | true =>
      rcases hsucc hactive with ⟨hlt, hmin⟩ | ⟨hmost, hmin⟩
      · exact .inl ⟨hlt, hmin, by simpa using hlt⟩
      · have hle := hmin p (List.mem_filter.mpr ⟨hp, hactive⟩)
        exact .inr ⟨hmost, hmin, by simpa using hle⟩
    | false =>
      have hmin := hleast hactive
      have hne : q.seat ≠ p.seat := fun he => by
        rw [List.inj_on_of_nodup_map h.seats hqp.1 hp he, hactive] at hqp
        cases hqp.2
      by_cases hbelow : ∃ r ∈ t.active, r.seat < p.seat
      · have habove : ∀ r ∈ t.active, r.seat ≤ p.seat := fun r hr =>
          Int.not_lt.mp fun hlt => hsides ⟨hactive, hbelow, r, hr, hlt⟩
        have hle := habove q hq
        exact .inr ⟨habove, hmin, by simpa using hle⟩
      · have hle : p.seat ≤ q.seat := Int.not_lt.mp fun hlt => hbelow ⟨q, hq, hlt⟩
        exact .inl ⟨by omega, fun r hr _ =>
          hmin r hr, by simp only [decide_eq_false_iff_not]; omega⟩
  · rintro ⟨hactive, ⟨r, hr, hlt⟩, -⟩
    have hle : q.seat ≤ p.seat := by
      have := hleast hactive r hr
      omega
    rw [decide_eq_true hle] at hend
    rw [if_pos hle] at hround
    exact ⟨q, hq, rm', hend, hturn, hround, hleast hactive⟩

end Table

/-- **The turn passes on over any eliminations.** In every run of a table, `endTurn` hands the turn
to the active player with the least seat above, or else round to the least seat with a new round;
only from the seat of an eliminated player with active players on both sides it falls back to the
least seat with a new round. -/
theorem endTurn_clockwise {phases : List Phase} {phase : String} (hid : (ps.map Player.id).Nodup)
    (hseat : (ps.map Player.seat).Nodup)
    (hnew : RoundManager.new ps .clockwise phases phase = .ok rm₀) {ds : List Deed}
    (h : Trace Table.Step ⟨ps, rm₀⟩ ds t) (hin : ∃ r, r ∈ t.active) :
    (∃ p ∈ t.players, p.id = t.rounds.turn.activePlayer) ∧
      ∀ p ∈ t.players, p.id = t.rounds.turn.activePlayer → ∀ phase,
        (¬ t.Straddled p → t.PassesOn p phase) ∧ (t.Straddled p → t.FallsBack phase) := by
  have hsound : t.Sound := h.inv (I := Table.Sound) (fun _ _ _ hs hstep => hs.step hstep)
    (Table.sound_new hid hseat hnew)
  exact ⟨hsound.current, fun p hp hcur phase => hsound.passesOn hp hcur hin phase⟩

end

/-! ## Three players -/

def seat (n : Nat) (id : PlayerId) : Player := { id, displayName := id, color := "red", seat := n }

def mainPhase : Phase := ⟨"main", "Main", ["main"]⟩

/-- The second of three players is eliminated in their own turn. -/
def struck : Table where
  players := eliminateAll ["p2"] [seat 0 "p1", seat 1 "p2", seat 2 "p3"]
  rounds := ⟨1, ⟨2, "p2", "main", ∅⟩, .clockwise, [mainPhase]⟩

theorem struck_run : ∃ rm₀ ds,
    RoundManager.new [seat 0 "p1", seat 1 "p2", seat 2 "p3"] .clockwise [mainPhase] "main" =
      .ok rm₀ ∧
    Trace Table.Step ⟨[seat 0 "p1", seat 1 "p2", seat 2 "p3"], rm₀⟩ ds struck :=
  ⟨_, [.endTurn "main", .eliminate ["p2"]], rfl, .cons (.endTurn rfl) (.cons .eliminate .nil)⟩

/-- The third player, who is still in, loses the turn. -/
theorem struck_skips : ∃ rm₀ ds t,
    RoundManager.new [seat 0 "p1", seat 1 "p2", seat 2 "p3"] .clockwise [mainPhase] "main" =
      .ok rm₀ ∧
    Trace Table.Step ⟨[seat 0 "p1", seat 1 "p2", seat 2 "p3"], rm₀⟩ ds t ∧ (∃ r, r ∈ t.active) ∧
    ∃ p ∈ t.players, p.id = t.rounds.turn.activePlayer ∧ ¬ t.PassesOn p "main" := by
  obtain ⟨rm₀, ds, hnew, hrun⟩ := struck_run
  refine ⟨rm₀, ds, struck, hnew, hrun, ⟨seat 0 "p1", by decide⟩,
    { seat 1 "p2" with status := some .eliminated }, by decide, rfl, ?_⟩
  rintro ⟨q, hq, b, rm', hend, -, -, hcase⟩
  have hend' : struck.rounds.endTurn struck.players "main" =
      .ok (⟨"p1", true⟩, ⟨2, ⟨3, "p1", "main", ∅⟩, .clockwise, [mainPhase]⟩) := rfl
  simp only [hend', Except.ok.injEq, Prod.mk.injEq, RoundManager.TurnEnd.mk.injEq] at hend
  rcases hcase with ⟨-, -, hb⟩ | ⟨hmost, -⟩
  · exact absurd (hend.1.2.trans hb) (by decide)
  · exact absurd (hmost (seat 2 "p3") (by decide)) (by decide)

theorem endTurn_clockwise_struck : struck.FallsBack "main" := by
  obtain ⟨rm₀, ds, hnew, hrun⟩ := struck_run
  have hturn := endTurn_clockwise (by decide) (by decide) hnew hrun ⟨seat 0 "p1", by decide⟩
  exact (hturn.2 { seat 1 "p2" with status := some .eliminated } (by decide) rfl "main").2
    ⟨rfl, ⟨seat 0 "p1", by decide, by decide⟩, seat 2 "p3", by decide, by decide⟩

end Boardgame
