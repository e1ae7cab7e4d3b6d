import Mathlib.Data.List.Perm.Basic

/-!
# Lib.Broker

A work queue with acknowledgements. A message waits until it is handed to a consumer, stays in that
consumer's hands until it is settled, and is then gone or back in the queue. This is what is assumed
of a broker that is not part of the code: a queued message goes to one consumer, an `ack` or a
`nack` without requeue removes it, and it is handed out again only after a `nack` with requeue; no
consumer is lost with a message in its hands.

* `take_queue`, `settle_handed`: a step moves messages about, and makes and loses none.
-/

inductive Settlement where
  | ack
  | nack (requeue : Bool)
  deriving DecidableEq

structure Broker (M : Type) where
  queue : List M := []
  /-- In the hands of a consumer, each with what it will be settled with. -/
  unacked : List (M × Settlement) := []
  removed : List M := []

namespace Broker

variable {M : Type}

def publish (m : M) (b : Broker M) : Broker M := { b with queue := b.queue ++ [m] }

/-- Any message of the queue may be the next to be handed out. -/
def take (k : Nat) (b : Broker M) : Option (M × Broker M) :=
  b.queue[k]?.map fun m => (m, { b with queue := b.queue.eraseIdx k })

def hold (m : M) (s : Settlement) (b : Broker M) : Broker M :=
  { b with unacked := b.unacked ++ [(m, s)] }

/-- Any message that is out may be the next to be settled. -/
def settle (k : Nat) (b : Broker M) : Option (M × Broker M) :=
  b.unacked[k]?.map fun held =>
    let b := { b with unacked := b.unacked.eraseIdx k }
    match held.2 with
    | .nack true => (held.1, { b with queue := b.queue ++ [held.1] })
    | _ => (held.1, { b with removed := b.removed ++ [held.1] })

/-- What has been handed out and not come back. -/
def handed (b : Broker M) : List M := b.unacked.map Prod.fst ++ b.removed

/-- No consumer asks for a message to be delivered again. -/
def Final (b : Broker M) : Prop := ∀ held ∈ b.unacked, held.2 ≠ .nack true

variable {b b' : Broker M} {m : M}

@[simp] theorem handed_publish : (b.publish m).handed = b.handed := rfl

theorem handed_hold (s : Settlement) : (b.hold m s).handed.Perm (m :: b.handed) := by
  rw [handed, hold, List.map_append, List.append_assoc]
  exact List.perm_middle

theorem final_hold (h : b.Final) {s : Settlement} (hs : s ≠ .nack true) : (b.hold m s).Final := by
  intro held hheld
  rcases List.mem_append.mp hheld with hheld | hheld
  · exact h held hheld
  · rw [List.mem_singleton.mp hheld]
    exact hs

theorem getElem?_perm {α : Type} {l : List α} {k : Nat} {a : α} (h : l[k]? = some a) :
    l.Perm (a :: l.eraseIdx k) := by
  obtain ⟨hk, rfl⟩ := List.getElem?_eq_some_iff.mp h
  exact (List.getElem_cons_eraseIdx_perm hk).symm

theorem take_queue {k : Nat} (h : b.take k = some (m, b')) :
    b.queue.Perm (m :: b'.queue) ∧ b'.unacked = b.unacked ∧ b'.removed = b.removed := by
  obtain ⟨m', hm, heq⟩ := Option.map_eq_some_iff.mp h
  cases heq
  exact ⟨getElem?_perm hm, rfl, rfl⟩

theorem take_handed {k : Nat} (h : b.take k = some (m, b')) : b'.handed = b.handed := by
  obtain ⟨-, hunacked, hremoved⟩ := take_queue h
  rw [handed, handed, hunacked, hremoved]

/-- A message that is handed out is still there. -/
theorem deliver_contents {k : Nat} (h : b.take k = some (m, b')) (s : Settlement) :
    ((b'.hold m s).queue ++ (b'.hold m s).handed).Perm (b.queue ++ b.handed) := by
  obtain ⟨hqueue, -, -⟩ := take_queue h
  calc (b'.hold m s).queue ++ (b'.hold m s).handed
    _ |>.Perm (b'.queue ++ m :: b.handed) := take_handed h ▸ (handed_hold s).append_left _
    _ |>.Perm (m :: (b'.queue ++ b.handed)) := List.perm_middle
    _ |>.Perm (b.queue ++ b.handed) := (hqueue.append_right _).symm

theorem deliver_handed {k : Nat} (h : b.take k = some (m, b')) (s : Settlement) :
    (b'.hold m s).handed.Perm (m :: b.handed) :=
  take_handed h ▸ handed_hold s

theorem deliver_final {k : Nat} (hfinal : b.Final) (h : b.take k = some (m, b')) {s : Settlement}
    (hs : s ≠ .nack true) : (b'.hold m s).Final := by
  obtain ⟨-, hunacked, -⟩ := take_queue h
  exact final_hold (fun held hheld => hfinal held (hunacked ▸ hheld)) hs

/-- Messages that are published one after the other join the queue. -/
theorem publish_all (ms : List M) : ∀ b : Broker M,
    (ms.foldl (fun b m => b.publish m) b).queue = b.queue ++ ms ∧
      (ms.foldl (fun b m => b.publish m) b).handed = b.handed ∧
      ((ms.foldl (fun b m => b.publish m) b).Final ↔ b.Final) := by
  induction ms with
  | nil => exact fun b => ⟨(List.append_nil _).symm, rfl, Iff.rfl⟩
  | cons m ms ih =>
    intro b
    obtain ⟨hqueue, hhanded, hfinal⟩ := ih (b.publish m)
    exact ⟨by rw [List.foldl_cons, hqueue, publish, List.append_assoc]; rfl, hhanded, hfinal⟩

theorem settle_handed {k : Nat} (hfinal : b.Final) (h : b.settle k = some (m, b')) :
    b'.handed.Perm b.handed ∧ b'.queue = b.queue ∧ b'.Final := by
  obtain ⟨⟨m', s⟩, hheld, heq⟩ := Option.map_eq_some_iff.mp h
  have hperm := getElem?_perm hheld
  have hs : s ≠ .nack true := hfinal _ (List.mem_of_getElem? hheld)
  have hrest : ∀ held ∈ b.unacked.eraseIdx k, held.2 ≠ .nack true :=
    fun held hmem => hfinal held (hperm.mem_iff.mpr (List.mem_cons_of_mem _ hmem))
  have hgone : b' = { b with unacked := b.unacked.eraseIdx k, removed := b.removed ++ [m] } := by
    cases s with
    | ack => cases heq; rfl
    | nack requeue =>
      cases requeue with
      | false => cases heq; rfl
      | true => exact absurd rfl hs
  have hm : m' = m := by
    cases s with
    | ack => cases heq; rfl
    | nack requeue => cases requeue <;> cases heq <;> rfl
  subst hgone hm
  refine ⟨?_, rfl, hrest⟩
  rw [handed, handed]
  refine List.Perm.trans ?_ ((hperm.map Prod.fst).append_right b.removed).symm
  rw [← List.append_assoc]
  exact List.perm_append_singleton _ _

end Broker
