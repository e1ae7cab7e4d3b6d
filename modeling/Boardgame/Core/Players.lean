import Mathlib.Data.List.Sort
import Boardgame.Lib.OrderedMap

/-!
# Core.Players

The roster of a game (`players/`): `Player`, `PlayerManager`, and the exception a JavaScript
`throw` raises. `PlayerManager` owns copies of the players sorted by seat, all `active` at first;
`eliminate` is the only operation that changes a status.
-/

namespace Boardgame

/-- A thrown `Error` (or the `TypeError` of a property read on `undefined`). -/
structure JsError where
  message : String
  deriving DecidableEq

abbrev PlayerId := String

inductive PlayerStatus where
  | active
  | eliminated
  deriving DecidableEq

structure Player where
  id : PlayerId
  displayName : String
  color : String
  seat : Int
  status : Option PlayerStatus := none
  deriving DecidableEq

/-- `p.status !== 'eliminated'`; a player without a status counts as active. -/
def Player.isActive (p : Player) : Bool := p.status ≠ some .eliminated

/-- `[...players].sort((a, b) => a.seat - b.seat)`: stable, by seat. -/
def sortBySeat (players : List Player) : List Player :=
  players.insertionSort fun a b => a.seat ≤ b.seat

structure PlayerManager where
  bySeat : List Player

namespace PlayerManager

/-- The constructor: owned copies in seat order, every status reset to `active`. -/
def new (players : List Player) : PlayerManager :=
  ⟨(sortBySeat players).map fun p => { p with status := some .active }⟩

def all (pm : PlayerManager) : List Player := pm.bySeat

def active (pm : PlayerManager) : List Player := pm.bySeat.filter Player.isActive

def count (pm : PlayerManager) : Nat := pm.bySeat.length

/-- `byId.get(id)`: filled in seat order, so the last player set under an id is the one found. -/
def get (pm : PlayerManager) (id : PlayerId) : Option Player := pm.bySeat.reverse.find? (·.id = id)

def isEliminated (pm : PlayerManager) (id : PlayerId) : Bool :=
  (pm.get id).bind Player.status = some .eliminated

/-- Mark the first player of a list with the given id. -/
def markFirst (id : PlayerId) : List Player → List Player
  | [] => []
  | p :: ps => if p.id = id then { p with status := some .eliminated } :: ps else p ::
      markFirst id ps

/-- `byId` and `bySeat` share their player objects, so marking the one found by id marks the last
of that id in seat order. -/
def eliminate (pm : PlayerManager) (id : PlayerId) : Except JsError PlayerManager :=
  match pm.get id with
  | none => .error ⟨"Cannot eliminate unknown player: " ++ id⟩
  | some _ => .ok ⟨(markFirst id pm.bySeat.reverse).reverse⟩

end PlayerManager

/-! ## Seat order -/

theorem mem_sortBySeat {players : List Player} {p : Player} : p ∈ sortBySeat players ↔
    p ∈ players :=
  List.mem_insertionSort _

theorem sortBySeat_perm (players : List Player) : (sortBySeat players).Perm players :=
  List.perm_insertionSort _ _

/-- A roster in strict seat order. -/
def SeatSorted (ps : List Player) : Prop := ps.Pairwise fun a b => a.seat < b.seat

theorem SeatSorted.filter {ps : List Player} (h : SeatSorted ps) (f : Player → Bool) :
    SeatSorted (ps.filter f) := List.Pairwise.filter f h

theorem sortBySeat_sorted {players : List Player} (h : (players.map Player.seat).Nodup) :
    SeatSorted (sortBySeat players) := by
  have hle : (sortBySeat players).Pairwise fun a b => a.seat ≤ b.seat := by
    have : Std.Total (fun a b : Player => a.seat ≤ b.seat) := ⟨fun a b => Int.le_total _ _⟩
    have : IsTrans Player (fun a b => a.seat ≤ b.seat) := ⟨fun a b c => Int.le_trans⟩
    exact List.pairwise_insertionSort _ _
  have hne : (sortBySeat players).Pairwise fun a b => a.seat ≠ b.seat := by
    have := (List.Perm.nodup_iff ((sortBySeat_perm players).map Player.seat)).mpr h
    rwa [List.Nodup, List.pairwise_map] at this
  exact (hle.and hne).imp fun ⟨h1, h2⟩ => by omega

theorem SeatSorted.eq_of_seat {ps : List Player} (h : SeatSorted ps) {p q : Player} (hp : p ∈ ps)
    (hq : q ∈ ps) (hs : p.seat = q.seat) : p = q := by
  have : (ps.map Player.seat).Nodup := by
    rw [List.Nodup, List.pairwise_map]
    exact h.imp fun hab => by omega
  exact List.inj_on_of_nodup_map this hp hq hs

/-! ## Marking -/

theorem markFirst_eq {ps : List Player} (h : (ps.map Player.id).Nodup) (id : PlayerId) :
    PlayerManager.markFirst id ps =
      ps.map fun p => if p.id = id then { p with status := some .eliminated } else p := by
  induction ps with
  | nil => rfl
  | cons p ps ih =>
    rw [List.map_cons, List.nodup_cons] at h
    simp only [PlayerManager.markFirst, List.map_cons]
    split
    · rename_i hp
      congr 1
      conv_lhs => rw [← List.map_id ps]
      apply List.map_congr_left
      intro q hq
      have : q.id ≠ id := fun he => h.1 (by rw [hp, ← he]; exact List.mem_map_of_mem hq)
      simp [this]
    · rw [ih h.2]

namespace PlayerManager

variable {pm : PlayerManager}

theorem get_eq_some (h : (pm.bySeat.map Player.id).Nodup) {id : PlayerId} {p : Player} :
    pm.get id = some p ↔ p ∈ pm.bySeat ∧ p.id = id := by
  constructor
  · intro hg
    exact ⟨by simpa using List.mem_of_find?_eq_some hg, by simpa using List.find?_some hg⟩
  · rintro ⟨hm, rfl⟩
    cases hg : pm.get p.id with
    | none => simpa using List.find?_eq_none.mp hg p (by simpa using hm)
    | some q =>
      have hq : q ∈ pm.bySeat := by simpa using List.mem_of_find?_eq_some hg
      have hid : q.id = p.id := by simpa using List.find?_some hg
      rw [List.inj_on_of_nodup_map h hq hm hid]

/-- A player of the roster that is not eliminated is an active one. -/
theorem active_of_not_eliminated (h : (pm.bySeat.map Player.id).Nodup) {id : PlayerId}
    (hroster : id ∈ pm.bySeat.map Player.id) (halive : pm.isEliminated id = false) :
    ∃ p ∈ pm.bySeat, p.isActive = true ∧ p.id = id := by
  obtain ⟨p, hp, rfl⟩ := List.mem_map.mp hroster
  refine ⟨p, hp, ?_, rfl⟩
  rw [isEliminated, (get_eq_some h).mpr ⟨hp, rfl⟩] at halive
  simpa [Player.isActive] using halive

theorem new_ids (players : List Player) :
    ((new players).bySeat.map Player.id).Perm (players.map Player.id) := by
  simp only [new, List.map_map, Function.comp_def]
  exact (sortBySeat_perm players).map Player.id

theorem new_sorted {players : List Player} (h : (players.map Player.seat).Nodup) :
    SeatSorted (new players).bySeat := by
  rw [SeatSorted, new, List.pairwise_map]
  exact sortBySeat_sorted h

theorem new_active {players : List Player} {p : Player} (h : p ∈ (new players).bySeat) :
    p.isActive = true := by
  simp only [new, List.mem_map] at h
  obtain ⟨q, _, rfl⟩ := h
  rfl

/-- The roster with every player of that id marked. -/
def marked (pm : PlayerManager) (id : PlayerId) : PlayerManager :=
  ⟨pm.bySeat.map fun p => if p.id = id then { p with status := some .eliminated } else p⟩

theorem eliminate_ok (h : (pm.bySeat.map Player.id).Nodup) {id : PlayerId}
    (hid : id ∈ pm.bySeat.map Player.id) : pm.eliminate id = .ok (pm.marked id) := by
  obtain ⟨p, hp, rfl⟩ := List.mem_map.mp hid
  simp only [eliminate, (get_eq_some h).mpr ⟨hp, rfl⟩, marked]
  rw [markFirst_eq (by simpa [List.map_reverse] using List.nodup_reverse.mpr h), ← List.map_reverse,
    List.reverse_reverse]

@[simp] theorem marked_ids (pm : PlayerManager) (id : PlayerId) :
    (pm.marked id).bySeat.map Player.id = pm.bySeat.map Player.id := by
  rw [marked, List.map_map]
  apply List.map_congr_left
  intro p _
  simp only [Function.comp]
  split <;> rfl

theorem marked_sorted (h : SeatSorted pm.bySeat) (id : PlayerId) :
    SeatSorted (pm.marked id).bySeat := by
  rw [SeatSorted, marked, List.pairwise_map]
  refine h.imp fun {a b} hab => ?_
  split <;> split <;> exact hab

/-- Who is active after the marking was active before, and has another id. -/
theorem mem_marked_active {id : PlayerId} {p : Player} :
    p ∈ (pm.marked id).bySeat ∧ p.isActive = true ↔
      p ∈ pm.bySeat ∧ p.isActive = true ∧ p.id ≠ id := by
  simp only [marked, List.mem_map]
  constructor
  · rintro ⟨⟨q, hq, rfl⟩, ha⟩
    split at ha
    · simp [Player.isActive] at ha
    · rename_i hne
      rw [if_neg hne]
      exact ⟨hq, ha, hne⟩
  · rintro ⟨hp, ha, hne⟩
    exact ⟨⟨p, hp, by rw [if_neg hne]⟩, ha⟩

end PlayerManager

end Boardgame
