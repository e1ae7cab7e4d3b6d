import Boardgame.Lib.Topic
import Boardgame.Lib.OrderedMap

/-!
# EventBus.RabbitMq

What the services rely on of the broker. `amqplib` and RabbitMQ are not part of the code: what is
said of them here is what they document.

* `RabbitMq`: a broker, with the laws of its queues and bindings.
* `RabbitMq.inMemory`: one that keeps them.
-/

namespace Boardgame.EventBus

/-- A broker with topic exchanges. Declaring a queue makes it, empty, if it is not there; binding a
queue that is there changes nothing else; an exclusive queue goes with the connection that declared
it, and its bindings with it; a message that is published goes once, behind all others, to every
queue that a binding takes it to, and to no other. Acknowledgement is not of concern: `messages` is
all that was ever put into a queue, if it is there. -/
structure RabbitMq (M : Type) where
  State : Type
  start : State
  assertQueue : String → State → State
  bindQueue : Topic.Binding → State → State
  dropQueue : String → State → State
  publish : String → String → M → State → State
  messages : State → String → Option (List M)
  Bound : State → Topic.Binding → Prop
  messages_start : ∀ queue, messages start queue = none
  bound_start : ∀ b, ¬ Bound start b
  messages_assertQueue : ∀ s queue queue', messages (assertQueue queue s) queue' =
    if queue' = queue then some ((messages s queue).getD []) else messages s queue'
  bound_assertQueue : ∀ s queue b, Bound (assertQueue queue s) b ↔ Bound s b
  messages_bindQueue : ∀ s b queue, messages s b.queue ≠ none →
    messages (bindQueue b s) queue = messages s queue
  bound_bindQueue : ∀ s b b', messages s b.queue ≠ none →
    (Bound (bindQueue b s) b' ↔ Bound s b' ∨ b' = b)
  messages_dropQueue : ∀ s queue queue', messages (dropQueue queue s) queue' =
    if queue' = queue then none else messages s queue'
  bound_dropQueue : ∀ s queue b, Bound (dropQueue queue s) b ↔ Bound s b ∧ b.queue ≠ queue
  messages_taken : ∀ s exchange key m queue,
    (∃ b, Bound s b ∧ b.queue = queue ∧ b.takes exchange key = true) →
      messages (publish exchange key m s) queue = (messages s queue).map (· ++ [m])
  messages_passed : ∀ s exchange key m queue,
    (¬ ∃ b, Bound s b ∧ b.queue = queue ∧ b.takes exchange key = true) →
      messages (publish exchange key m s) queue = messages s queue
  bound_publish : ∀ s exchange key m b, Bound (publish exchange key m s) b ↔ Bound s b

/-! ## A broker in memory -/

structure Bus (M : Type) where
  queues : OrderedMap String (List M) := ∅
  bindings : List Topic.Binding := []

namespace Bus

variable {M : Type}

def publish (exchange key : String) (m : M) (b : Bus M) : Bus M :=
  { b with
    queues := b.queues.mapValues fun queue ms =>
      if queue ∈ Topic.routes b.bindings exchange key then ms ++ [m] else ms }

theorem get?_publish (exchange key : String) (m : M) (b : Bus M) (queue : String) :
    (b.publish exchange key m).queues.get? queue = (b.queues.get? queue).map fun ms =>
      if ∃ binding ∈ b.bindings, binding.takes exchange key = true ∧
      binding.queue = queue then ms ++ [m] else ms := by
  rw [publish, OrderedMap.get?_mapValues]
  simp only [Topic.mem_routes]

end Bus

def RabbitMq.inMemory (M : Type) : RabbitMq M where
  State := Bus M
  start := {}
  assertQueue queue b :=
    { b with queues := if b.queues.has queue then b.queues else b.queues.set queue [] }
  bindQueue binding b :=
    { b with bindings := if binding ∈ b.bindings then b.bindings else b.bindings ++ [binding] }
  dropQueue queue b :=
    { queues := b.queues.erase queue
      bindings := b.bindings.filter fun binding => binding.queue ≠ queue }
  publish := Bus.publish
  messages b queue := b.queues.get? queue
  Bound b binding := binding ∈ b.bindings
  messages_start _ := rfl
  bound_start _ := List.not_mem_nil
  messages_assertQueue b queue queue' := by
    dsimp only
    split_ifs with hhas heq heq
    · subst heq
      obtain ⟨ms, hms⟩ := Option.isSome_iff_exists.mp hhas
      rw [hms]
      rfl
    · rfl
    · subst heq
      have hnone : b.queues.get? queue' = none := by simpa [OrderedMap.has] using hhas
      rw [OrderedMap.get?_set, if_pos rfl, hnone]
      rfl
    · rw [OrderedMap.get?_set, if_neg heq]
  bound_assertQueue _ _ _ := Iff.rfl
  messages_bindQueue _ _ _ _ := rfl
  bound_bindQueue b binding binding' _ := by
    dsimp only
    split_ifs with hin
    · exact ⟨.inl, fun h => h.elim id fun heq => heq ▸ hin⟩
    · simp
  messages_dropQueue b queue queue' := OrderedMap.get?_erase b.queues queue queue'
  bound_dropQueue b queue binding := by simp
  messages_taken b exchange key m queue h := by
    obtain ⟨binding, hb, hqueue, htakes⟩ := h
    have hin : ∃ binding ∈ b.bindings, binding.takes exchange key = true ∧ binding.queue = queue :=
      ⟨binding, hb, htakes, hqueue⟩
    simp only [Bus.get?_publish, if_pos hin]
  messages_passed b exchange key m queue h := by
    have hno : ¬ ∃ binding ∈ b.bindings, binding.takes exchange key = true ∧
        binding.queue = queue :=
      fun ⟨binding, hb, htakes, hqueue⟩ => h ⟨binding, hb, hqueue, htakes⟩
    simp only [Bus.get?_publish, if_neg hno, Option.map_id']
  bound_publish _ _ _ _ _ := Iff.rfl

end Boardgame.EventBus
