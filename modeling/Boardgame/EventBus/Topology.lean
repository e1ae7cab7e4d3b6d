import Boardgame.EventBus.RabbitMq
import Boardgame.Lib.Trace

/-!
# EventBus.Topology

The message bus (`topology.ts`, `publisher.ts`, the subscriptions of `consumer.ts`,
`game-runner.service.ts` and `event-relay.service.ts`): the exchanges and keys the services publish
under, and the queues they declare and bind, on any broker that keeps the laws of `RabbitMq`. A
service that comes up awaits each call on the broker, and whatever else happens may happen in
between.

* `takes_iff`: which publications the binding of a queue takes.
* `routed_exactly`: what every queue has been given, in every run of services that come up, go away
  and publish.
-/

namespace Boardgame.EventBus

/-! ## Exchanges and keys -/

def Exchange.gameCommands : String := "game.commands"

def Exchange.gameEvents : String := "game.events"

def Exchange.lobbyEvents : String := "lobby.events"

def RoutingKey.gameCommand (gameId : String) : String := "game" ++ "." ++ gameId ++ "." ++ "command"

def RoutingKey.gameEvent (gameId eventType : String) : String :=
  "game" ++ "." ++ gameId ++ "." ++ eventType

def RoutingKey.lobbyEvent (roomId eventType : String) : String :=
  "lobby" ++ "." ++ roomId ++ "." ++ eventType

/-- What the services publish, each under its exchange and key. -/
inductive Publication where
  | command (gameId : String)
  | event (gameId eventType : String)
  | lobby (roomId eventType : String)

def Publication.exchange : Publication → String
  | .command _ => Exchange.gameCommands
  | .event _ _ => Exchange.gameEvents
  | .lobby _ _ => Exchange.lobbyEvents

def Publication.routingKey : Publication → String
  | .command gameId => RoutingKey.gameCommand gameId
  | .event gameId eventType => RoutingKey.gameEvent gameId eventType
  | .lobby roomId eventType => RoutingKey.lobbyEvent roomId eventType

/-! ## Queues -/

structure SubscribeOptions where
  exchange : String
  routingKey : String
  queue : String
  exclusive : Bool := false

/-- The queues of the services: two the engine replicas share, one for each gateway. -/
inductive QueueId where
  | gameStarting
  | commands
  | gateway (uuid : String)
  deriving DecidableEq

def QueueId.name : QueueId → String
  | .gameStarting => "engine-game-starting"
  | .commands => "engine-commands"
  | .gateway uuid => "gateway-events-" ++ uuid

def QueueId.options : QueueId → SubscribeOptions
  | .gameStarting =>
    { exchange := Exchange.lobbyEvents, routingKey := "lobby.*.game-starting",
      queue := QueueId.gameStarting.name }
  | .commands =>
    { exchange := Exchange.gameCommands, routingKey := "game.*.command",
      queue := QueueId.commands.name }
  | .gateway uuid =>
    { exchange := Exchange.gameEvents, routingKey := "game.*.*",
      queue := (QueueId.gateway uuid).name
      exclusive := true }

def SubscribeOptions.binding (opts : SubscribeOptions) : Topic.Binding :=
  { exchange := opts.exchange, routingKey := opts.routingKey, queue := opts.queue }

abbrev QueueId.binding (q : QueueId) : Topic.Binding := q.options.binding

/-! ## The services -/

/-- An engine replica, or a gateway with the uuid that names its queue. -/
inductive Service where
  | engine (replica : String)
  | gateway (uuid : String)
  deriving DecidableEq

/-- A call on the broker that a service awaits before it consumes. -/
inductive Await where
  | assertQueue (q : QueueId)
  | bindQueue (q : QueueId)
  deriving DecidableEq

/-- `BusConsumer.subscribe`. -/
def subscribe (q : QueueId) : List Await := [.assertQueue q, .bindQueue q]

/-- The queues that a service consumes, in the order in which it subscribes. -/
def Service.queues : Service → List QueueId
  | .engine _ => [.gameStarting, .commands]
  | .gateway uuid => [.gateway uuid]

/-- `onApplicationBootstrap` of an engine, `onModuleInit` of a gateway. -/
def Service.setup (s : Service) : List Await := s.queues.flatMap subscribe

inductive Happening (M : Type) where
  | up (s : Service)
  | asserted (s : Service) (q : QueueId)
  | bound (s : Service) (q : QueueId)
  | down (s : Service)
  | publish (p : Publication) (message : M)

variable {M : Type}

/-- The broker, and the services that are up, each with what it has still to await. -/
structure World (mq : RabbitMq M) where
  broker : mq.State := mq.start
  services : OrderedMap Service (List Await) := ∅

/-- A publication, under its exchange and key. -/
def RabbitMq.put (mq : RabbitMq M) (p : Publication) (message : M) : mq.State → mq.State :=
  mq.publish p.exchange p.routingKey message

/-- The connection of a service is gone, and its exclusive queues with it. -/
def RabbitMq.disconnect (mq : RabbitMq M) (s : Service) (b : mq.State) : mq.State :=
  (s.queues.filter (·.options.exclusive)).foldl (fun b q => mq.dropQueue q.name b) b

inductive Step (mq : RabbitMq M) : World mq → Happening M → World mq → Prop where
  | up {w : World mq} {s : Service} : s ∉ w.services.keys →
      Step mq w (.up s) { w with services := w.services.set s s.setup }
  | asserted {w : World mq} {s : Service} {q : QueueId} {rest : List Await} :
      w.services.get? s = some (.assertQueue q :: rest) →
      Step mq w (.asserted s q)
        { broker := mq.assertQueue q.options.queue w.broker, services := w.services.set s rest }
  | bound {w : World mq} {s : Service} {q : QueueId} {rest : List Await} :
      w.services.get? s = some (.bindQueue q :: rest) →
      Step mq w (.bound s q)
        { broker := mq.bindQueue q.binding w.broker, services := w.services.set s rest }
  | down {w : World mq} {s : Service} : s ∈ w.services.keys →
      Step mq w (.down s) { broker := mq.disconnect s w.broker, services := w.services.erase s }
  | publish {w : World mq} {p : Publication} {message : M} :
      Step mq w (.publish p message) { w with broker := mq.put p message w.broker }

/-! ## What the queues are for -/

/-- What the consumers of a queue are meant to get. -/
def QueueId.wants : QueueId → Publication → Bool
  | .gameStarting, .lobby roomId eventType => '.' ∉ roomId.toList ∧ eventType = "game-starting"
  | .commands, .command gameId => '.' ∉ gameId.toList
  | .gateway _, .event gameId eventType => '.' ∉ gameId.toList ∧ '.' ∉ eventType.toList
  | _, _ => false

/-- How a queue stands: a queue that is declared and not yet bound is there and is given nothing. -/
inductive Standing (M : Type) where
  | absent
  | declared
  | bound (messages : List M)
  deriving DecidableEq

namespace Standing

/-- What the queue has been given, if it is there. -/
def messages : Standing M → Option (List M)
  | .absent => none
  | .declared => some []
  | .bound ms => some ms

def isBound : Standing M → Prop
  | .bound _ => True
  | _ => False

def declare : Standing M → Standing M
  | .absent => .declared
  | standing => standing

def bind : Standing M → Standing M
  | .declared => .bound []
  | standing => standing

def receive (message : M) : Standing M → Standing M
  | .bound ms => .bound (ms ++ [message])
  | standing => standing

end Standing

/-- What happens to a queue. -/
def QueueId.after (q : QueueId) (standing : Standing M) : Happening M → Standing M
  | .up _ => standing
  | .asserted _ q' => if q' = q then standing.declare else standing
  | .bound _ q' => if q' = q then standing.bind else standing
  | .down s => if q ∈ s.queues ∧ q.options.exclusive = true then .absent else standing
  | .publish p message => if q.wants p = true then standing.receive message else standing

/-- How a queue stands when all this has happened: since it was bound it has been given, in order
and once each, the messages it is meant for. -/
def QueueId.standing (q : QueueId) (hs : List (Happening M)) : Standing M :=
  hs.foldl q.after .absent

/-! ## Bindings and what they take -/

theorem QueueId.name_injective : Function.Injective QueueId.name := by
  intro q q' h
  have hlist := congrArg String.toList h
  cases q <;> cases q' <;> simp [QueueId.name] at hlist ⊢
  exact String.toList_inj.mp hlist

/-- A pattern of a first word, any second one and a third part, on a key of a first word and two
names: the names must be free of dots. -/
theorem matches_three {w : List Char} {p : Topic.Part} (hp : p ≠ .hash) (a b : String) :
    Topic.Matches [.word w, .star, p] (w :: (Topic.words a ++ Topic.words b)) = true ↔
      '.' ∉ a.toList ∧ '.' ∉ b.toList ∧ Topic.Matches [p] [b.toList] = true := by
  have hhash : Topic.Part.hash ∉ [.word w, .star, p] := by simpa using hp.symm
  constructor
  · intro h
    have hlen := Topic.Matches.length_eq hhash h
    rw [List.length_cons, List.length_append, Topic.words_length, Topic.words_length] at hlen
    simp only [List.length_cons, List.length_nil] at hlen
    have ha : '.' ∉ a.toList := List.count_eq_zero.mp (by omega)
    have hb : '.' ∉ b.toList := List.count_eq_zero.mp (by omega)
    rw [Topic.words_single ha, Topic.words_single hb] at h
    simp only [Topic.Matches, Bool.and_eq_true] at h
    exact ⟨ha, hb, h.2.2⟩
  · rintro ⟨ha, hb, h⟩
    rw [Topic.words_single ha, Topic.words_single hb]
    simpa [Topic.Matches] using h

theorem lobby_pattern : Topic.pattern "lobby.*.game-starting" =
    [.word "lobby".toList, .star, .word "game-starting".toList] := by decide +kernel

theorem command_pattern : Topic.pattern "game.*.command" =
    [.word "game".toList, .star, .word "command".toList] := by decide +kernel

theorem event_pattern : Topic.pattern "game.*.*" = [.word "game".toList, .star, .star] := by
  decide +kernel

/-- The words of a key of three parts. -/
theorem words_three {w : String} (hw : '.' ∉ w.toList) (a b : String) :
    Topic.words (w ++ "." ++ a ++ "." ++ b) = w.toList :: (Topic.words a ++ Topic.words b) := by
  rw [Topic.words_join, Topic.words_join, Topic.words_single hw]
  rfl

theorem takes_three {binding : Topic.Binding} {w : String} {part : Topic.Part}
    (hpattern : Topic.pattern binding.routingKey = [.word w.toList, .star, part])
    (hpart : part ≠ .hash) (hw : '.' ∉ w.toList) (a b : String) :
    binding.takes binding.exchange (w ++ "." ++ a ++ "." ++ b) = true ↔
      '.' ∉ a.toList ∧ '.' ∉ b.toList ∧ Topic.Matches [part] [b.toList] = true := by
  rw [Topic.Binding.takes, hpattern, words_three hw, decide_eq_true rfl, Bool.true_and,
    matches_three hpart]

theorem takes_other {binding : Topic.Binding} {exchange key : String}
    (h : binding.exchange ≠ exchange) :
    binding.takes exchange key = false := by
  rw [Topic.Binding.takes, decide_eq_false h, Bool.false_and]

/-- **What the binding of a queue takes** is what the queue is for. -/
theorem takes_iff (q : QueueId) (p : Publication) :
    q.binding.takes p.exchange p.routingKey = q.wants p := by
  cases q with
  | gameStarting =>
    cases p with
    | lobby roomId eventType =>
      rw [Bool.eq_iff_iff]
      refine (takes_three lobby_pattern (by decide) (by decide) roomId eventType).trans ?_
      have hend : Topic.Matches [.word "game-starting".toList] [eventType.toList] = true ↔
          eventType = "game-starting" := by
        simp only [Topic.Matches, List.head?_cons, List.tail_cons, List.isEmpty_nil, Bool.and_true,
          decide_eq_true_eq, Option.some.injEq, String.toList_inj]
      rw [hend, QueueId.wants, decide_eq_true_eq]
      constructor
      · rintro ⟨hr, -, ht⟩
        exact ⟨hr, ht⟩
      · rintro ⟨hr, rfl⟩
        exact ⟨hr, by decide, rfl⟩
    | command _ => exact takes_other (show Exchange.lobbyEvents ≠ Exchange.gameCommands by decide)
    | event _ _ => exact takes_other (show Exchange.lobbyEvents ≠ Exchange.gameEvents by decide)
  | commands =>
    cases p with
    | command gameId =>
      rw [Bool.eq_iff_iff]
      refine (takes_three command_pattern (by decide) (by decide) gameId "command").trans ?_
      rw [QueueId.wants, decide_eq_true_eq]
      constructor
      · exact fun h => h.1
      · exact fun h => ⟨h, by decide, by decide⟩
    | event _ _ => exact takes_other (show Exchange.gameCommands ≠ Exchange.gameEvents by decide)
    | lobby _ _ => exact takes_other (show Exchange.gameCommands ≠ Exchange.lobbyEvents by decide)
  | gateway uuid =>
    cases p with
    | event gameId eventType =>
      rw [Bool.eq_iff_iff]
      refine (takes_three event_pattern (by decide) (by decide) gameId eventType).trans ?_
      simp [QueueId.wants, Topic.Matches]
    | command _ => exact takes_other (show Exchange.gameEvents ≠ Exchange.gameCommands by decide)
    | lobby _ _ => exact takes_other (show Exchange.gameEvents ≠ Exchange.lobbyEvents by decide)

/-! ## Runs -/

theorem Standing.declare_there (standing : Standing M) : standing.declare ≠ .absent := by
  cases standing <;> simp [Standing.declare]

theorem Standing.bind_isBound {standing : Standing M} (hthere : standing ≠ .absent) :
    standing.bind.isBound := by
  cases standing with
  | absent => exact absurd rfl hthere
  | declared | bound => trivial

theorem QueueId.options_queue (q : QueueId) : q.options.queue = q.name := by
  cases q <;> rfl

/-- The queues of the broker stand as `standing` says, and the bindings are theirs. -/
structure Holds (mq : RabbitMq M) (standing : QueueId → Standing M) (b : mq.State) : Prop where
  queues : ∀ q : QueueId, mq.messages b q.name = (standing q).messages
  known : ∀ queue, mq.messages b queue ≠ none → ∃ q : QueueId, q.name = queue
  bindings : ∀ binding, mq.Bound b binding ↔
    ∃ q : QueueId, (standing q).isBound ∧ binding = q.binding

variable {mq : RabbitMq M} {b : mq.State} {standing : QueueId → Standing M}

namespace Holds

theorem start : Holds mq (fun _ => .absent) mq.start where
  queues q := mq.messages_start q.name
  known queue h := absurd (mq.messages_start queue) h
  bindings binding := iff_of_false (mq.bound_start binding) fun ⟨_, h, _⟩ => h

theorem congr {standing' : QueueId → Standing M} (h : Holds mq standing b)
    (heq : ∀ q, standing q = standing' q) :
    Holds mq standing' b := funext heq ▸ h

/-- The bindings stay the same when one queue stands differently and is bound just as before. -/
theorem bindings_update (h : Holds mq standing b) {q : QueueId} {new : Standing M}
    (hsame : new.isBound ↔ (standing q).isBound) (binding : Topic.Binding) :
    mq.Bound b binding ↔ ∃ q', (Function.update standing q new q').isBound ∧
    binding = q'.binding := by
  rw [h.bindings]
  refine exists_congr fun q' => and_congr_left fun _ => ?_
  by_cases hq : q' = q
  · rw [hq, Function.update_self, hsame]
  · rw [Function.update_of_ne hq]

theorem asserted (h : Holds mq standing b) (q : QueueId) :
    Holds mq (Function.update standing q (standing q).declare)
      (mq.assertQueue q.options.queue b) where
  queues q' := by
    rw [mq.messages_assertQueue, q.options_queue]
    by_cases hq : q' = q
    · subst hq
      rw [if_pos rfl, h.queues, Function.update_self]
      cases standing q' <;> rfl
    · rw [if_neg fun heq => hq (QueueId.name_injective heq), h.queues, Function.update_of_ne hq]
  known queue hqueue := by
    rw [mq.messages_assertQueue] at hqueue
    split at hqueue
    · rename_i heq
      exact ⟨q, by rw [heq, q.options_queue]⟩
    · exact h.known queue hqueue
  bindings binding := by
    rw [mq.bound_assertQueue]
    refine h.bindings_update ?_ binding
    cases standing q <;> exact Iff.rfl

/-- A queue is bound when it has been declared. -/
theorem bound (h : Holds mq standing b) {q : QueueId} (hthere : standing q ≠ .absent) :
    Holds mq (Function.update standing q (standing q).bind) (mq.bindQueue q.binding b) := by
  have hqueue : mq.messages b q.binding.queue ≠ none := by
    rw [show q.binding.queue = q.name from q.options_queue, h.queues]
    cases hq : standing q with
    | absent => exact absurd hq hthere
    | declared | bound => exact Option.some_ne_none _
  refine ⟨fun q' => ?_, fun queue hmessages => ?_, fun binding => ?_⟩
  · rw [mq.messages_bindQueue _ _ _ hqueue, h.queues]
    by_cases hq : q' = q
    · subst hq
      rw [Function.update_self]
      cases standing q' <;> rfl
    · rw [Function.update_of_ne hq]
  · rw [mq.messages_bindQueue _ _ _ hqueue] at hmessages
    exact h.known queue hmessages
  · rw [mq.bound_bindQueue _ _ _ hqueue, h.bindings]
    constructor
    · rintro (⟨q', hbound, rfl⟩ | rfl)
      · refine ⟨q', ?_, rfl⟩
        by_cases hq : q' = q
        · subst hq
          rw [Function.update_self]
          cases hs : standing q' with
          | bound => trivial
          | absent | declared => rw [hs] at hbound; exact hbound.elim
        · rwa [Function.update_of_ne hq]
      · refine ⟨q, ?_, rfl⟩
        rw [Function.update_self]
        exact Standing.bind_isBound hthere
    · rintro ⟨q', hbound, rfl⟩
      by_cases hq : q' = q
      · exact .inr (by rw [hq])
      · rw [Function.update_of_ne hq] at hbound
        exact .inl ⟨q', hbound, rfl⟩

theorem dropped (h : Holds mq standing b) (q : QueueId) :
    Holds mq (Function.update standing q .absent) (mq.dropQueue q.name b) where
  queues q' := by
    rw [mq.messages_dropQueue]
    by_cases hq : q' = q
    · rw [hq, if_pos rfl, Function.update_self]
      rfl
    · rw [if_neg fun heq => hq (QueueId.name_injective heq), h.queues, Function.update_of_ne hq]
  known queue hqueue := by
    rw [mq.messages_dropQueue] at hqueue
    split at hqueue
    · exact absurd rfl hqueue
    · exact h.known queue hqueue
  bindings binding := by
    rw [mq.bound_dropQueue, h.bindings]
    have hname : ∀ q' : QueueId, q'.binding.queue = q'.name := QueueId.options_queue
    constructor
    · rintro ⟨⟨q', hbound, rfl⟩, hne⟩
      have hq : q' ≠ q := fun heq => hne (heq ▸ hname q')
      exact ⟨q', by rwa [Function.update_of_ne hq], rfl⟩
    · rintro ⟨q', hbound, rfl⟩
      have hq : q' ≠ q := by
        rintro rfl
        rw [Function.update_self] at hbound
        exact hbound
      rw [Function.update_of_ne hq] at hbound
      exact ⟨⟨q', hbound, rfl⟩, fun heq => hq (QueueId.name_injective ((hname q').symm.trans heq))⟩

theorem put (h : Holds mq standing b) (p : Publication) (message : M) :
    Holds mq (fun q => if q.wants p = true then (standing q).receive message else standing q)
      (mq.put p message b) := by
  have htaken : ∀ q : QueueId,
      (∃ binding, mq.Bound b binding ∧ binding.queue = q.name ∧
        binding.takes p.exchange p.routingKey = true) ↔
        (standing q).isBound ∧ q.wants p = true := by
    intro q
    constructor
    · rintro ⟨binding, hb, hqueue, htakes⟩
      obtain ⟨q', hbound, rfl⟩ := (h.bindings binding).mp hb
      obtain rfl : q' = q := QueueId.name_injective (q'.options_queue.symm.trans hqueue)
      exact ⟨hbound, (takes_iff q' p).symm.trans htakes⟩
    · rintro ⟨hbound, hwants⟩
      exact ⟨q.binding, (h.bindings _).mpr ⟨q, hbound, rfl⟩, q.options_queue,
        (takes_iff q p).trans hwants⟩
  have hfed : ∀ q : QueueId, mq.messages (mq.put p message b) q.name =
      (if q.wants p = true then (standing q).receive message else standing q).messages := by
    intro q
    have hbefore := h.queues q
    by_cases hin : (standing q).isBound ∧ q.wants p = true
    · rw [RabbitMq.put, mq.messages_taken _ _ _ _ _ ((htaken q).mpr hin), hbefore, if_pos hin.2]
      cases hs : standing q with
      | bound ms => rfl
      | absent | declared => rw [hs] at hin; exact hin.1.elim
    · rw [RabbitMq.put, mq.messages_passed _ _ _ _ _ fun hex => hin ((htaken q).mp hex), hbefore]
      split
      · rename_i hwants
        cases hs : standing q with
        | bound ms => rw [hs] at hin; exact absurd ⟨trivial, hwants⟩ hin
        | absent | declared => rfl
      · rfl
  refine ⟨hfed, fun queue hqueue => ?_, fun binding => ?_⟩
  · refine h.known queue fun hnone => hqueue ?_
    by_cases hin : ∃ binding, mq.Bound b binding ∧ binding.queue = queue ∧
        binding.takes p.exchange p.routingKey = true
    · rw [RabbitMq.put, mq.messages_taken _ _ _ _ _ hin, hnone]
      rfl
    · rw [RabbitMq.put, mq.messages_passed _ _ _ _ _ hin, hnone]
  · rw [RabbitMq.put, mq.bound_publish, h.bindings]
    refine exists_congr fun q => and_congr_left fun _ => ?_
    split
    · cases standing q <;> exact Iff.rfl
    · exact Iff.rfl

/-- A connection takes the exclusive queues of its service with it. -/
theorem disconnect (h : Holds mq standing b) (s : Service) :
    Holds mq (fun q => if q ∈ s.queues ∧ q.options.exclusive = true then .absent else standing q)
      (mq.disconnect s b) := by
  cases s with
  | engine replica =>
    refine Holds.congr (b := b) h fun q => (if_neg ?_).symm
    rintro ⟨hq, hexclusive⟩
    simp only [Service.queues, List.mem_cons, List.not_mem_nil, or_false] at hq
    rcases hq with rfl | rfl <;> cases hexclusive
  | gateway uuid =>
    refine (h.dropped (.gateway uuid)).congr fun q => ?_
    by_cases hq : q = .gateway uuid
    · subst hq
      rw [Function.update_self, if_pos ⟨List.mem_singleton_self _, rfl⟩]
    · rw [Function.update_of_ne hq, if_neg fun hin => hq (List.mem_singleton.mp hin.1)]

end Holds

theorem standing_snoc (q : QueueId) (hs : List (Happening M)) (h : Happening M) :
    q.standing (hs ++ [h]) = q.after (q.standing hs) h := by
  rw [QueueId.standing, List.foldl_append]
  rfl

theorem standing_asserted (hs : List (Happening M)) (s : Service) (q q' : QueueId) :
    q'.standing (hs ++ [.asserted s q]) =
      Function.update (fun q => q.standing hs) q (q.standing hs).declare q' := by
  rw [standing_snoc, QueueId.after]
  by_cases hq : q' = q
  · rw [hq, if_pos rfl, Function.update_self]
  · rw [if_neg (Ne.symm hq), Function.update_of_ne hq]

theorem standing_bound (hs : List (Happening M)) (s : Service) (q q' : QueueId) :
    q'.standing (hs ++ [.bound s q]) =
      Function.update (fun q => q.standing hs) q (q.standing hs).bind q' := by
  rw [standing_snoc, QueueId.after]
  by_cases hq : q' = q
  · rw [hq, if_pos rfl, Function.update_self]
  · rw [if_neg (Ne.symm hq), Function.update_of_ne hq]

/-- What a service has awaited has been done: what it has declared is there, and what it has bound
is bound. -/
structure Progress (standing : QueueId → Standing M) (s : Service) (pending : List Await) :
    Prop where
  suffix : pending <:+ s.setup
  declared : ∀ q ∈ s.queues, .assertQueue q ∉ pending → standing q ≠ .absent
  bound : ∀ q ∈ s.queues, .bindQueue q ∉ pending → (standing q).isBound

/-- A service declares a queue before it binds it. -/
theorem setup_order {s : Service} {q : QueueId} {rest : List Await}
    (h : (.bindQueue q :: rest) <:+ s.setup) :
    q ∈ s.queues ∧ .assertQueue q ∉ rest := by
  cases s with
  | engine replica =>
    simp only [Service.setup, Service.queues, subscribe, List.flatMap_cons, List.flatMap_nil,
      List.cons_append, List.nil_append, List.suffix_cons_iff, List.cons.injEq,
      Await.bindQueue.injEq, reduceCtorEq, false_and,
      false_or, or_false, List.suffix_nil] at h
    rcases h with ⟨rfl, rfl⟩ | ⟨rfl, rfl⟩ <;> simp [Service.queues]
  | gateway uuid =>
    simp only [Service.setup, Service.queues, subscribe, List.flatMap_cons, List.flatMap_nil,
      List.cons_append, List.nil_append, List.suffix_cons_iff, List.cons.injEq,
      Await.bindQueue.injEq, reduceCtorEq, false_and,
      false_or, or_false, List.suffix_nil] at h
    obtain ⟨rfl, rfl⟩ := h
    exact ⟨List.mem_singleton_self _, List.not_mem_nil⟩

theorem exclusive_owner {s s' : Service} {q : QueueId} (h : q ∈ s.queues) (h' : q ∈ s'.queues)
    (hq : q.options.exclusive = true) : s = s' := by
  cases s with
  | engine replica =>
    simp only [Service.queues, List.mem_cons, List.not_mem_nil, or_false] at h
    rcases h with rfl | rfl <;> cases hq
  | gateway uuid =>
    obtain rfl := List.mem_singleton.mp h
    cases s' with
    | engine replica => simp [Service.queues] at h'
    | gateway uuid' =>
      rw [Service.queues, List.mem_singleton, QueueId.gateway.injEq] at h'
      rw [h']

/-- A queue stays declared, and bound, unless the service that owns it goes down. -/
theorem after_keeps {q : QueueId} {h : Happening M} (standing : Standing M)
    (hopen : ∀ s, h = .down s → ¬ (q ∈ s.queues ∧ q.options.exclusive = true)) :
    (standing ≠ .absent → q.after standing h ≠ .absent) ∧
    (standing.isBound → (q.after standing h).isBound) := by
  cases h with
  | up s => exact ⟨id, id⟩
  | down s =>
    rw [QueueId.after, if_neg (hopen s rfl)]
    exact ⟨id, id⟩
  | asserted | bound | publish =>
    rw [QueueId.after]
    split
    · cases standing <;> simp [Standing.declare, Standing.bind, Standing.receive, Standing.isBound]
    · exact ⟨id, id⟩

theorem Progress.keeps {hs : List (Happening M)} {h : Happening M} {s : Service}
    {pending : List Await} (hp : Progress (fun q => q.standing hs) s pending)
    (hopen : ∀ q ∈ s.queues, ∀ s', h = .down s' → ¬ (q ∈ s'.queues ∧ q.options.exclusive = true)) :
    Progress (fun q => q.standing (hs ++ [h])) s pending where
  suffix := hp.suffix
  declared q hq hno := by
    rw [standing_snoc]
    exact (after_keeps _ (hopen q hq)).1 (hp.declared q hq hno)
  bound q hq hno := by
    rw [standing_snoc]
    exact (after_keeps _ (hopen q hq)).2 (hp.bound q hq hno)

/-- The broker and the services are where what has happened has brought them. -/
structure Coherent (hs : List (Happening M)) (w : World mq) : Prop where
  holds : Holds mq (fun q => q.standing hs) w.broker
  progress : ∀ s pending, w.services.get? s = some pending →
    Progress (fun q => q.standing hs) s pending

theorem coherent_step {hs : List (Happening M)} {w w' : World mq} {h : Happening M}
    (hc : Coherent hs w) (hstep : Step mq w h w') : Coherent (hs ++ [h]) w' := by
  have hkeeps : ∀ {s pending}, (∀ s', h ≠ .down s') → w.services.get? s = some pending →
      Progress (fun q => q.standing (hs ++ [h])) s pending := fun hno hget =>
    (hc.progress _ _ hget).keeps fun _ _ s' heq => absurd heq (hno s')
  cases hstep with
  | @up s hnew =>
    refine ⟨hc.holds.congr fun q => (standing_snoc q hs (.up s)).symm, fun s' pending hget => ?_⟩
    rw [OrderedMap.get?_set] at hget
    split at hget
    · rename_i heq
      subst heq
      cases hget
      refine ⟨List.suffix_rfl, fun q hq hno => absurd ?_ hno, fun q hq hno => absurd ?_ hno⟩
      · exact List.mem_flatMap.mpr ⟨q, hq, by simp [subscribe]⟩
      · exact List.mem_flatMap.mpr ⟨q, hq, by simp [subscribe]⟩
    · exact hkeeps (fun s' heq => by cases heq) hget
  | @asserted s q rest hawaits =>
    have hp := hkeeps (fun s' heq => by cases heq) hawaits
    refine ⟨(hc.holds.asserted q).congr fun q' => (standing_asserted hs s q q').symm,
      fun s' pending hget => ?_⟩
    rw [OrderedMap.get?_set] at hget
    split at hget
    · rename_i heq
      subst heq
      cases hget
      refine ⟨(List.suffix_cons _ _).trans hp.suffix, fun q' hq' hno => ?_,
        fun q' hq' hno => hp.bound q' hq' (by simpa using hno)⟩
      by_cases hq : q' = q
      · rw [standing_asserted, hq, Function.update_self]
        exact Standing.declare_there _
      · exact hp.declared q' hq' (by simpa [hq] using hno)
    · exact hkeeps (fun s' heq => by cases heq) hget
  | @bound s q rest hawaits =>
    have hp := hkeeps (fun s' heq => by cases heq) hawaits
    obtain ⟨hmem, hno⟩ := setup_order hp.suffix
    have hthere := (hc.progress s _ hawaits).declared q hmem (by simpa using hno)
    refine ⟨(hc.holds.bound hthere).congr fun q' => (standing_bound hs s q q').symm,
      fun s' pending hget => ?_⟩
    rw [OrderedMap.get?_set] at hget
    split at hget
    · rename_i heq
      subst heq
      cases hget
      refine ⟨(List.suffix_cons _ _).trans hp.suffix,
        fun q' hq' hno => hp.declared q' hq' (by simpa using hno), fun q' hq' hno => ?_⟩
      by_cases hq : q' = q
      · rw [standing_bound, hq, Function.update_self]
        exact Standing.bind_isBound hthere
      · exact hp.bound q' hq' (by simpa [hq] using hno)
    · exact hkeeps (fun s' heq => by cases heq) hget
  | @down s hup =>
    refine ⟨(hc.holds.disconnect s).congr fun q => (standing_snoc q hs (.down s)).symm,
      fun s' pending hget => ?_⟩
    rw [OrderedMap.get?_erase] at hget
    split at hget
    · cases hget
    · rename_i hne
      refine (hc.progress s' pending hget).keeps fun q hq s'' heq hdrop => hne ?_
      cases heq
      exact exclusive_owner hq hdrop.1 hdrop.2
  | @publish p message =>
    refine ⟨(hc.holds.put p message).congr fun q => (standing_snoc q hs (.publish p message)).symm,
      fun s' pending hget => ?_⟩
    exact hkeeps (fun s' heq => by cases heq) hget

/-- **What the queues are given.** On every broker that keeps the laws, in every run of engines and
gateways that come up, declare and bind their queues one call after the other, go away and publish:
the queues that are there are exactly those that were declared and have not gone with their service,
each holds, once and in order, the messages published since it was bound that it is meant for, and a
service that is done subscribing has all its queues bound. -/
theorem routed_exactly {hs : List (Happening M)} {w : World mq} (h : Trace (Step mq) {} hs w) :
    Holds mq (fun q => q.standing hs) w.broker ∧
      ∀ s, w.services.get? s = some [] → ∀ q ∈ s.queues, (q.standing hs).isBound := by
  have hc := h.inv_labels (I := fun hs w => Coherent hs w)
    (fun _ _ _ _ hc hstep => coherent_step hc hstep) []
    ⟨Holds.start, fun s pending hget => by cases hget⟩
  exact ⟨hc.holds, fun s hget q hq => (hc.progress s [] hget).bound q hq List.not_mem_nil⟩

/-- The gateway `a` misses what is published before its queue is bound, and the engines a command
that comes between declaring and binding. -/
def morning : List (Happening Nat) :=
  [.up (.gateway "a"), .asserted (.gateway "a") (.gateway "a"),
    .publish (.event "g" "turn-ended") 1,
    .bound (.gateway "a") (.gateway "a"), .up (.engine "e"), .asserted (.engine "e") .gameStarting,
    .bound (.engine "e") .gameStarting, .asserted (.engine "e") .commands,
    .publish (.command "g") 2,
    .bound (.engine "e") .commands, .publish (.lobby "r" "room-created") 3,
    .publish (.lobby "r" "game-starting") 4,
    .publish (.command "g") 5, .publish (.command "g.h") 6, .publish (.event "g" "tile-claimed") 7,
    .up (.gateway "b"), .asserted (.gateway "b") (.gateway "b")]

theorem morning_routed : ∃ w : World (RabbitMq.inMemory Nat), Trace (Step _) {} morning w ∧
    w.services.get? (.engine "e") = some [] ∧ Holds _ (fun q => q.standing morning) w.broker ∧
    ∀ s, w.services.get? s = some [] → ∀ q ∈ s.queues, (q.standing morning).isBound := by
  have hmorning : Trace (Step (RabbitMq.inMemory Nat)) {} morning _ :=
    .cons (.up (by decide)) <| .cons (.asserted rfl) <| .cons .publish <| .cons (.bound rfl) <|
    .cons (.up (by decide)) <| .cons (.asserted rfl) <| .cons (.bound rfl) <| .cons
    (.asserted rfl) <|
    .cons .publish <| .cons (.bound rfl) <| .cons .publish <| .cons .publish <| .cons .publish <|
    .cons .publish <| .cons .publish <| .cons (.up (by decide)) <| .cons (.asserted rfl) .nil
  exact ⟨_, hmorning, rfl, routed_exactly hmorning⟩

example : [QueueId.commands, .gameStarting, .gateway "a", .gateway "b",
    .gateway "c"].map (·.standing morning) =
    [.bound [5], .bound [4], .bound [7], .declared, .absent] := by decide

end Boardgame.EventBus
