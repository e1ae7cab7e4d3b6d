/-!
# Lib.Outbox

A memory written through an ordered channel. A program issues a write and leaves a continuation with
it; the channel performs the writes in the order they were issued and completes them in that order;
what waits for a write runs after what waits for an earlier one.

* `eventual`: what the memory holds when every write issued is done; no completion changes it.
* `waiting`: the continuations in the order they will run; no completion changes it either.
-/

structure Outbox (M W K : Type) where
  memory : M
  /-- Issued and not yet performed, each with what waits for it. -/
  writes : List (W × K) := []
  /-- What waited for a write that is done, and has not run yet. -/
  ready : List K := []

namespace Outbox

variable {M W K : Type}

def issue (w : W) (k : K) (o : Outbox M W K) : Outbox M W K :=
  { o with writes := o.writes ++ [(w, k)] }

/-- The oldest write is performed. -/
def complete (perform : M → W → M) (o : Outbox M W K) : Option (Outbox M W K) :=
  match o.writes with
  | [] => none
  | (w, k) :: writes => some { memory := perform o.memory w, writes, ready := o.ready ++ [k] }

/-- The next continuation to run. -/
def next (o : Outbox M W K) : Option (K × Outbox M W K) :=
  match o.ready with
  | [] => none
  | k :: ready => some (k, { o with ready })

def waiting (o : Outbox M W K) : List K := o.ready ++ o.writes.map Prod.snd

def eventual (perform : M → W → M) (o : Outbox M W K) : M :=
  o.writes.foldl (fun m e => perform m e.1) o.memory

variable {perform : M → W → M} {o o' : Outbox M W K}

@[simp] theorem waiting_issue (w : W) (k : K) : (o.issue w k).waiting = o.waiting ++ [k] := by
  simp [issue, waiting]

@[simp] theorem eventual_issue (w : W) (k : K) :
    (o.issue w k).eventual perform = perform (o.eventual perform) w := by
  simp [issue, eventual]

theorem complete_same (h : o.complete perform = some o') :
    o'.waiting = o.waiting ∧ o'.eventual perform = o.eventual perform := by
  unfold complete at h
  split at h
  · cases h
  · rename_i w k writes hw
    cases h
    simp [waiting, eventual, hw]

theorem complete_cases (h : o.complete perform = some o') :
    ∃ w k, o.writes = (w, k) :: o'.writes ∧ o'.memory = perform o.memory w ∧
      o'.ready = o.ready ++ [k] := by
  unfold complete at h
  split at h
  · cases h
  · rename_i w k writes hw
    cases h
    exact ⟨w, k, hw, rfl, rfl⟩

theorem next_cases {k : K} (h : o.next = some (k, o')) :
    o.ready = k :: o'.ready ∧ o'.writes = o.writes ∧ o'.memory = o.memory := by
  unfold next at h
  split at h
  · cases h
  · rename_i k' ready hr
    cases h
    exact ⟨hr, rfl, rfl⟩

theorem next_waiting {k : K} (h : o.next = some (k, o')) : o.waiting = k :: o'.waiting := by
  obtain ⟨hready, hwrites, -⟩ := next_cases h
  rw [waiting, hready, waiting, hwrites, List.cons_append]

theorem next_eventual (perform : M → W → M) {k : K} (h : o.next = some (k, o')) :
    o'.eventual perform = o.eventual perform := by
  obtain ⟨-, hwrites, hmemory⟩ := next_cases h
  rw [eventual, hwrites, hmemory, eventual]

/-- When nothing waits any more, the memory holds all that was written. -/
theorem eventual_of_idle (h : o.waiting = []) : o.eventual perform = o.memory := by
  rw [waiting, List.append_eq_nil_iff, List.map_eq_nil_iff] at h
  rw [eventual, h.2, List.foldl_nil]

/-! ## Maps -/

section Map

variable {M' W' K' : Type}

def map (m : M → M') (w : W → W') (k : K → K') (o : Outbox M W K) : Outbox M' W' K' :=
  { memory := m o.memory
    writes := o.writes.map (Prod.map w k)
    ready := o.ready.map k }

variable {m : M → M'} {w : W → W'} {k : K → K'}

theorem issue_map (x : W) (y : K) : (o.map m w k).issue (w x) (k y) = (o.issue x y).map m w k := by
  simp [issue, map]

theorem complete_map {perform' : M' → W' → M'}
    (hperform : ∀ a x, perform' (m a) (w x) = m (perform a x)) :
    (o.map m w k).complete perform' = (o.complete perform).map (map m w k) := by
  obtain ⟨memory, writes, ready⟩ := o
  cases writes with
  | nil => rfl
  | cons e writes => simp [complete, map, hperform]

theorem next_map : (o.map m w k).next = o.next.map (Prod.map k (map m w k)) := by
  obtain ⟨memory, writes, ready⟩ := o
  cases ready with
  | nil => rfl
  | cons y ready => rfl

end Map

end Outbox
