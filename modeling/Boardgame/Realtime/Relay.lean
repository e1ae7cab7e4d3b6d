import Boardgame.EventBus.Topology
import Boardgame.Realtime.Delivery

/-!
# Realtime.Relay

The broker, the gateways and their sockets together (`event-relay.service.ts`). Each gateway has a
queue of its own for the events of all games, is handed its messages one after the other, and emits
each to the sockets it finds for it at that moment. It is up from the moment its queue is bound: the
server listens to no socket before. The broker keeps the laws of `RabbitMq`, and hands out a queue
in order.

* `Relay.Step`: an event is published, a gateway comes up or goes away, one of its sockets does
  something, or it is handed the next message of its queue.
* `Linked.grows`: what a step does to the queue and to the emissions of a gateway that stays up.
* `relayed_exactly`: what a socket is sent between any two moments.
-/

namespace Boardgame.Realtime

open EventBus (RabbitMq QueueId Holds Standing)

abbrev Uuid := String

/-- What `flushEvents` publishes: an event of a game. -/
structure GameMessage (V E : Type) where
  gameId : GameId
  event : Engine.GameBusEvent V E

def GameMessage.publication {V E : Type} (m : GameMessage V E) : EventBus.Publication :=
  .event m.gameId m.event.type

/-- A gateway process, and how many messages of its queue it has been handed. -/
structure Gate (io : SocketIo) where
  gateway : Gateway io := {}
  handed : Nat := 0

/-- A `game-event` that a gateway emits to a socket. -/
structure Emission (V E : Type) where
  uuid : Uuid
  socketId : SocketId
  message : GameMessage V E

structure Relay (io : SocketIo) {V E : Type} (mq : RabbitMq (GameMessage V E)) where
  bus : mq.State := mq.start
  gates : OrderedMap Uuid (Gate io) := ∅
  emitted : List (Emission V E) := []

inductive Occurrence (V E : Type) where
  | published (m : GameMessage V E)
  | gatewayUp (uuid : Uuid)
  | gatewayDown (uuid : Uuid)
  | socket (uuid : Uuid) (event : SocketEvent)
  | handed (uuid : Uuid)

variable {io : SocketIo} {V E : Type} {mq : RabbitMq (GameMessage V E)}

namespace Relay

/-- All that was ever put into the queue of a gateway. -/
def queue (r : Relay io mq) (uuid : Uuid) : List (GameMessage V E) :=
  (mq.messages r.bus (QueueId.gateway uuid).name).getD []

def publish (m : GameMessage V E) (r : Relay io mq) : Relay io mq :=
  { r with bus := mq.put m.publication m r.bus }

/-- The handler of `onModuleInit`, given a message. -/
def dispatch (uuid : Uuid) (gate : Gate io) (m : GameMessage V E) (r : Relay io mq) : Relay io mq :=
  { r with
    gates := r.gates.set uuid { gate with handed := gate.handed + 1 }
    emitted := r.emitted ++ (gate.gateway.dispatch m.gameId m.event).map fun sid => ⟨uuid, sid, m⟩ }

/-- A queue has one consumer, which is handed its messages in order. -/
inductive Step : Relay io mq → Occurrence V E → Relay io mq → Prop where
  | published {r : Relay io mq} {m : GameMessage V E} : Step r (.published m) (r.publish m)
  | gatewayUp {r : Relay io mq} {uuid : Uuid} : uuid ∉ r.gates.keys →
      Step r (.gatewayUp uuid)
        { r with
          bus := mq.bindQueue (QueueId.gateway uuid).binding
            (mq.assertQueue (QueueId.gateway uuid).options.queue r.bus)
          gates := r.gates.set uuid {} }
  | gatewayDown {r : Relay io mq} {uuid : Uuid} : uuid ∈ r.gates.keys →
      Step r (.gatewayDown uuid)
        { r with bus := mq.disconnect (.gateway uuid) r.bus, gates := r.gates.erase uuid }
  | socket {r : Relay io mq} {uuid : Uuid} {gate : Gate io} {event : SocketEvent}
      {gateway : Gateway io} :
      r.gates.get? uuid = some gate → Gateway.Step gate.gateway event gateway →
      Step r (.socket uuid event) { r with gates := r.gates.set uuid { gate with gateway } }
  | handed {r : Relay io mq} {uuid : Uuid} {gate : Gate io} {m : GameMessage V E} :
      r.gates.get? uuid = some gate → (r.queue uuid)[gate.handed]? = some m →
      Step r (.handed uuid) (r.dispatch uuid gate m)

/-- What the gateway has emitted. -/
def emittedBy (r : Relay io mq) (uuid : Uuid) : List (Emission V E) :=
  r.emitted.filter fun e => e.uuid = uuid

/-- What a socket has been sent of a game. -/
def sentTo (r : Relay io mq) (uuid : Uuid) (sid : SocketId) (gameId : GameId) :
    List (Engine.GameBusEvent V E) :=
  ((r.emittedBy uuid).filter fun e => e.socketId = sid ∧ e.message.gameId = gameId).map fun e =>
    e.message.event

end Relay

/-! ## What has happened -/

/-- The gateway that something happens to. -/
def Occurrence.at : Occurrence V E → Option Uuid
  | .published _ => none
  | .gatewayUp uuid => some uuid
  | .gatewayDown uuid => some uuid
  | .socket uuid _ => some uuid
  | .handed uuid => some uuid

/-- The events of the sockets of a gateway since it came up. -/
def heard (uuid : Uuid) (events : List SocketEvent) : Occurrence V E → List SocketEvent
  | .gatewayUp uuid' => if uuid' = uuid then [] else events
  | .socket uuid' event => if uuid' = uuid then events ++ [event] else events
  | _ => events

def socketEvents (uuid : Uuid) (os : List (Occurrence V E)) : List SocketEvent :=
  os.foldl (heard uuid) []

/-- The queues of the gateways take it: its key is of three words. -/
def GameMessage.Routed (m : GameMessage V E) : Prop :=
  '.' ∉ m.gameId.toList ∧ '.' ∉ m.event.type.toList

instance (m : GameMessage V E) : Decidable m.Routed := inferInstanceAs (Decidable (_ ∧ _))

def Occurrence.routed : Occurrence V E → List (GameMessage V E)
  | .published m => if m.Routed then [m] else []
  | _ => []

/-- What is published in a run for the gateways. -/
def routed (os : List (Occurrence V E)) : List (GameMessage V E) := os.flatMap Occurrence.routed

theorem routed_snoc (os : List (Occurrence V E)) (o : Occurrence V E) :
    routed (os ++ [o]) = routed os ++ o.routed := by
  simp [routed]

theorem socketEvents_snoc (uuid : Uuid) (os : List (Occurrence V E)) (o : Occurrence V E) :
    socketEvents uuid (os ++ [o]) = heard uuid (socketEvents uuid os) o := by
  simp [socketEvents]

/-- What an occurrence does to the queue of a gateway. -/
def fill (uuid : Uuid) (queue : Option (List (GameMessage V E))) : Occurrence V E →
    Option (List (GameMessage V E))
  | .published m => queue.map fun ms => ms ++ Occurrence.routed (.published m)
  | .gatewayUp uuid' => if uuid' = uuid then some (queue.getD []) else queue
  | .gatewayDown uuid' => if uuid' = uuid then none else queue
  | _ => queue

/-- What has been put into the queue of a gateway, if it is there. -/
def inbox (uuid : Uuid) (os : List (Occurrence V E)) : Option (List (GameMessage V E)) :=
  os.foldl (fill uuid) none

theorem inbox_snoc (uuid : Uuid) (os : List (Occurrence V E)) (o : Occurrence V E) :
    inbox uuid (os ++ [o]) = fill uuid (inbox uuid os) o := by
  rw [inbox, List.foldl_append]
  rfl

/-- A queue that is there is bound. -/
def bound (queue : Option (List (GameMessage V E))) : Standing (GameMessage V E) :=
  match queue with
  | none => .absent
  | some ms => .bound ms

/-- How the queues stand; those of the engines are not of concern. -/
def standing (os : List (Occurrence V E)) : QueueId → Standing (GameMessage V E)
  | .gateway uuid => bound (inbox uuid os)
  | _ => .absent

/-! ## One gateway -/

/-- What a step does to a gateway, and what the gateway emits in it. -/
inductive Fate (uuid : Uuid) (r : Relay io mq) :
    Occurrence V E → Option (Gate io) → Option (Gate io) → List (Emission V E) → Prop where
  | apart {o : Occurrence V E} {gate : Option (Gate io)} : o.at ≠ some uuid →
      Fate uuid r o gate gate []
  | opened : Fate uuid r (.gatewayUp uuid) none (some {}) []
  | closed {gate : Gate io} : Fate uuid r (.gatewayDown uuid) (some gate) none []
  | socket {gate : Gate io} {event : SocketEvent} {gateway : Gateway io} :
      Gateway.Step gate.gateway event gateway →
      Fate uuid r (.socket uuid event) (some gate) (some { gate with gateway }) []
  | handed {gate : Gate io} {m : GameMessage V E} : (r.queue uuid)[gate.handed]? = some m →
      Fate uuid r (.handed uuid) (some gate) (some { gate with handed := gate.handed + 1 })
        ((gate.gateway.dispatch m.gameId m.event).map fun sid => ⟨uuid, sid, m⟩)

section Steps

variable {os : List (Occurrence V E)} {o : Occurrence V E} {r r' : Relay io mq} {uuid : Uuid}
  {gate : Gate io}

/-- What happens at another gateway. -/
theorem Fate.elsewhere {uuid' : Uuid} (hat : o.at = some uuid') (hu : uuid ≠ uuid')
    (gate : Option (Gate io)) :
    Fate uuid r o gate gate [] :=
  .apart fun heq => hu (Option.some.inj (hat.symm.trans heq)).symm

theorem get?_dispatch (uuid' : Uuid) (m : GameMessage V E) :
    (r.dispatch uuid' gate m).gates.get? uuid =
      if uuid = uuid' then some { gate with handed := gate.handed + 1 } else r.gates.get? uuid := by
  rw [Relay.dispatch, OrderedMap.get?_set]

theorem emittedBy_dispatch (uuid' : Uuid) (m : GameMessage V E) :
    (r.dispatch uuid' gate m).emittedBy uuid = r.emittedBy uuid ++
      if uuid = uuid' then (gate.gateway.dispatch m.gameId m.event).map fun sid =>
        ⟨uuid', sid, m⟩ else [] := by
  rw [Relay.emittedBy, Relay.dispatch, List.filter_append, Relay.emittedBy]
  congr 1
  split
  · rename_i hu
    refine List.filter_eq_self.mpr fun e he => ?_
    obtain ⟨sid, -, rfl⟩ := List.mem_map.mp he
    exact decide_eq_true hu.symm
  · rename_i hu
    refine List.filter_eq_nil_iff.mpr fun e he => ?_
    obtain ⟨sid, -, rfl⟩ := List.mem_map.mp he
    simpa using Ne.symm hu

theorem fate (hstep : Relay.Step r o r') (uuid : Uuid) :
    ∃ new, Fate uuid r o (r.gates.get? uuid) (r'.gates.get? uuid) new ∧
      r'.emittedBy uuid = r.emittedBy uuid ++ new := by
  cases hstep with
  | published => exact ⟨[], .apart nofun, (List.append_nil _).symm⟩
  | @gatewayUp uuid' hnew =>
    refine ⟨[], ?_, (List.append_nil _).symm⟩
    rw [OrderedMap.get?_set]
    by_cases hu : uuid = uuid'
    · subst hu
      rw [if_pos rfl, OrderedMap.get?_eq_none.mpr hnew]
      exact .opened
    · rw [if_neg hu]
      exact .elsewhere rfl hu _
  | @gatewayDown uuid' hup =>
    refine ⟨[], ?_, (List.append_nil _).symm⟩
    rw [OrderedMap.get?_erase]
    by_cases hu : uuid = uuid'
    · subst hu
      obtain ⟨gate, hget⟩ := OrderedMap.mem_keys.mp hup
      rw [if_pos rfl, hget]
      exact .closed
    · rw [if_neg hu]
      exact .elsewhere rfl hu _
  | @socket uuid' gate event gateway hget hsocket =>
    refine ⟨[], ?_, (List.append_nil _).symm⟩
    rw [OrderedMap.get?_set]
    by_cases hu : uuid = uuid'
    · subst hu
      rw [if_pos rfl, hget]
      exact .socket hsocket
    · rw [if_neg hu]
      exact .elsewhere rfl hu _
  | @handed uuid' gate m hget hm =>
    refine ⟨_, ?_, emittedBy_dispatch uuid' m⟩
    rw [get?_dispatch]
    by_cases hu : uuid = uuid'
    · subst hu
      rw [if_pos rfl, if_pos rfl, hget]
      exact .handed hm
    · rw [if_neg hu, if_neg hu]
      exact .elsewhere rfl hu _

theorem heard_apart (events : List SocketEvent) (h : o.at ≠ some uuid) :
    heard uuid events o = events := by
  cases o with
  | published | gatewayDown | handed => rfl
  | gatewayUp uuid' => exact if_neg fun heq => h (congrArg some heq)
  | socket uuid' => exact if_neg fun heq => h (congrArg some heq)

theorem fill_apart (queue : Option (List (GameMessage V E))) (h : o.at ≠ some uuid) :
    fill uuid queue o = queue.map fun ms => ms ++ o.routed := by
  have hid : queue = queue.map fun ms => ms ++ [] := by simp
  cases o with
  | published => rfl
  | gatewayUp uuid' => exact (if_neg fun heq => h (congrArg some heq)).trans hid
  | gatewayDown uuid' => exact (if_neg fun heq => h (congrArg some heq)).trans hid
  | socket | handed => exact hid

end Steps

/-! ## The invariant -/

/-- What the bus and the gateways hold is what has happened. -/
structure Linked (os : List (Occurrence V E)) (r : Relay io mq) : Prop where
  bus : Holds mq (standing os) r.bus
  up : ∀ uuid, r.gates.get? uuid = none ↔ inbox uuid os = none
  heard : ∀ uuid gate, r.gates.get? uuid = some gate → Inv (socketEvents uuid os) gate.gateway
  handed : ∀ uuid gate, r.gates.get? uuid = some gate → gate.handed ≤ (r.queue uuid).length

section Run

variable {os : List (Occurrence V E)} {o : Occurrence V E} {r r' : Relay io mq} {uuid : Uuid}
  {gate gate' : Gate io}

theorem linked_start : Linked [] ({} : Relay io mq) where
  bus := Holds.start.congr fun q => by cases q <;> rfl
  up uuid := iff_of_true rfl rfl
  heard uuid gate h := by cases h
  handed uuid gate h := by cases h

theorem standing_snoc (os : List (Occurrence V E)) (o : Occurrence V E) :
    ∀ q, standing (os ++ [o]) q = match q with
      | .gateway uuid => bound (fill uuid (inbox uuid os) o)
      | _ => .absent
  | .gateway uuid => congrArg bound (inbox_snoc uuid os o)
  | .gameStarting => rfl
  | .commands => rfl

/-- The queues, after a step. -/
theorem Linked.bus_step (h : Linked os r) (hstep : Relay.Step r o r') :
    Holds mq (standing (os ++ [o])) r'.bus := by
  cases hstep with
  | @published m =>
    refine (h.bus.put m.publication m).congr fun q => ?_
    rw [standing_snoc]
    cases q with
    | gameStarting | commands => rfl
    | gateway uuid =>
      have hwants : (QueueId.gateway uuid).wants m.publication = true ↔ m.Routed :=
        decide_eq_true_iff
      simp only [standing, fill, Occurrence.routed, hwants]
      cases inbox uuid os with
      | none => split <;> rfl
      | some ms => split <;> simp [bound, Standing.receive]
  | @gatewayUp uuid =>
    refine ((h.bus.asserted (.gateway uuid)).bound ?_).congr fun q => ?_
    · rw [Function.update_self]
      cases standing os (.gateway uuid) <;> simp [Standing.declare]
    · rw [standing_snoc]
      by_cases hq : q = .gateway uuid
      · subst hq
        simp only [Function.update_self, fill, if_true, standing]
        cases inbox uuid os <;> rfl
      · rw [Function.update_of_ne hq, Function.update_of_ne hq]
        cases q with
        | gameStarting | commands => rfl
        | gateway uuid' =>
          have hu : uuid ≠ uuid' := fun heq => hq (by rw [heq])
          simp only [fill, if_neg hu, standing]
  | @gatewayDown uuid =>
    refine (h.bus.disconnect (.gateway uuid)).congr fun q => ?_
    rw [standing_snoc]
    cases q with
    | gameStarting | commands => exact if_neg fun hin => by cases hin.2
    | gateway uuid' =>
      by_cases hu : uuid = uuid'
      · subst hu
        simp only [fill, if_true]
        exact if_pos ⟨List.mem_singleton_self _, rfl⟩
      · simp only [fill, if_neg hu]
        refine if_neg fun hin => hu ?_
        exact (QueueId.gateway.inj (List.mem_singleton.mp hin.1)).symm
  | socket =>
    refine h.bus.congr fun q => ?_
    rw [standing_snoc]
    cases q <;> rfl
  | handed =>
    refine h.bus.congr fun q => ?_
    rw [standing_snoc]
    cases q <;> rfl

theorem queue_of_bus (h : Holds mq (standing os) r.bus) (uuid : Uuid) :
    r.queue uuid = (inbox uuid os).getD [] := by
  rw [Relay.queue, h.queues, standing]
  cases inbox uuid os <;> rfl

/-- The queue of a gateway that is up, and stays up. -/
theorem Linked.queue_step (h : Linked os r) (hstep : Relay.Step r o r')
    (hget : r.gates.get? uuid = some gate) (hget' : r'.gates.get? uuid = some gate') :
    r'.queue uuid = r.queue uuid ++ o.routed := by
  rw [queue_of_bus (h.bus_step hstep), queue_of_bus h.bus, inbox_snoc]
  obtain ⟨ms, hms⟩ := Option.ne_none_iff_exists'.mp fun hnone => by
    rw [(h.up uuid).mpr hnone] at hget
    cases hget
  obtain ⟨new, hfate, -⟩ := fate hstep uuid
  rw [hget, hget'] at hfate
  rw [hms]
  cases hfate with
  | apart ho => rw [fill_apart _ ho]; rfl
  | socket => exact (List.append_nil _).symm
  | handed => exact (List.append_nil _).symm

theorem linked_step (h : Linked os r) (hstep : Relay.Step r o r') : Linked (os ++ [o]) r' := by
  refine ⟨h.bus_step hstep, fun uuid => ?_, fun uuid gate hget => ?_, fun uuid gate hget => ?_⟩
  · obtain ⟨new, hfate, -⟩ := fate hstep uuid
    have hup := h.up uuid
    rw [inbox_snoc]
    generalize r.gates.get? uuid = gate at hfate hup
    generalize r'.gates.get? uuid = gate' at hfate
    cases hfate with
    | apart ho => rw [hup, fill_apart _ ho, Option.map_eq_none_iff]
    | opened => simp [fill]
    | closed => simp [fill]
    | socket => exact (iff_of_false (Option.some_ne_none _) (Option.some_ne_none _)).trans hup
    | handed => exact (iff_of_false (Option.some_ne_none _) (Option.some_ne_none _)).trans hup
  · obtain ⟨new, hfate, -⟩ := fate hstep uuid
    have hheard := h.heard uuid
    rw [socketEvents_snoc]
    rw [hget] at hfate
    generalize r.gates.get? uuid = gate at hfate hheard
    cases hfate with
    | apart ho =>
      rw [heard_apart _ ho]
      exact hheard gate rfl
    | opened =>
      rw [Realtime.heard, if_pos rfl]
      exact inv_start
    | socket hsocket =>
      rw [Realtime.heard, if_pos rfl]
      exact inv_step (hheard _ rfl) hsocket
    | @handed gate => exact hheard gate rfl
  · obtain ⟨new, hfate, -⟩ := fate hstep uuid
    have hhanded := h.handed uuid
    have hle : ∀ before, r.gates.get? uuid = some before →
        (r.queue uuid).length ≤ (r'.queue uuid).length := by
      intro before hbefore
      rw [h.queue_step hstep hbefore hget, List.length_append]
      exact Nat.le_add_right _ _
    rw [hget] at hfate
    generalize r.gates.get? uuid = before at hfate hhanded hle
    cases hfate with
    | apart => exact (hhanded gate rfl).trans (hle gate rfl)
    | opened => exact Nat.zero_le _
    | @socket gate => exact (hhanded gate rfl).trans (hle gate rfl)
    | @handed gate m hm => exact (List.getElem?_eq_some_iff.mp hm).1.trans_le (hle gate rfl)

/-- The socket leaves the game, or its gateway goes away. -/
inductive Leaves (uuid : Uuid) (sid : SocketId) (gameId : GameId) : Occurrence V E → Prop where
  | unsubscribed : Leaves uuid sid gameId (.socket uuid (.unsubscribeGame sid gameId))
  | disconnected : Leaves uuid sid gameId (.socket uuid (.disconnect sid))
  | gone : Leaves uuid sid gameId (.gatewayDown uuid)

/-- The message is of the game, and is for the user. -/
def passes (user : UserId) (gameId : GameId) (m : GameMessage V E) : Bool :=
  m.gameId = gameId ∧ (Gateway.privateTo m.event).all (· = user)

/-- What happens to a gateway that is up between two moments. -/
structure Stretch (uuid : Uuid) (before after : List (Occurrence V E)) (r r' : Relay io mq)
    (gate gate' : Gate io) :
    Prop where
  up : r'.gates.get? uuid = some gate'
  queue : r'.queue uuid = r.queue uuid ++ routed after
  order : gate.handed ≤ gate'.handed ∧ gate'.handed ≤ (r'.queue uuid).length
  /-- A socket that is in the game all the time is sent what the gateway is handed. -/
  sent : ∀ sid gameId user, ConnectedAs (socketEvents uuid before) sid user →
    Subscribed (socketEvents uuid before) sid gameId → (∀ o ∈ after, ¬ Leaves uuid sid gameId o) →
    r'.sentTo uuid sid gameId = r.sentTo uuid sid gameId ++
      ((((r'.queue uuid).take gate'.handed).drop gate.handed).filter
        (passes user gameId)).map GameMessage.event
  /-- A socket that is not is sent nothing. -/
  silent : ∀ sid gameId, ¬ Subscribed (socketEvents uuid before) sid gameId →
    (∀ o ∈ after, o ≠ .socket uuid (.subscribeGame sid gameId)) →
    r'.sentTo uuid sid gameId = r.sentTo uuid sid gameId

theorem Inv.mem_dispatch {events : List SocketEvent} {g : Gateway io} (h : Inv events g)
    (gameId : GameId) (event : Engine.GameBusEvent V E) {sid : SocketId} {user : UserId}
    (hconn : ConnectedAs events sid user) :
    sid ∈ g.dispatch gameId event ↔
      Subscribed events sid gameId ∧ (Gateway.privateTo event).all (· = user) = true := by
  have hd : Delivers V E events g := h.delivers
  cases hp : Gateway.privateTo event with
  | none =>
    rw [(hd.publicly gameId event hp).mem_iff, h.mem_sockets]
    simp
  | some user' =>
    rw [(hd.privately gameId user' event hp).2 sid, and_comm]
    refine and_congr_right fun _ => ?_
    rw [Option.all_some, decide_eq_true_eq, ← h.users]
    constructor
    · intro hu
      exact Option.some.inj (hu.symm.trans ((h.users sid user).mpr hconn))
    · rintro rfl
      exact (h.users sid user').mpr hconn

theorem Inv.not_mem_dispatch {events : List SocketEvent} {g : Gateway io} (h : Inv events g)
    {gameId : GameId} {event : Engine.GameBusEvent V E} {sid : SocketId}
    (hsub : ¬ Subscribed events sid gameId) :
    sid ∉ g.dispatch gameId event := by
  have hd : Delivers V E events g := h.delivers
  cases hp : Gateway.privateTo event with
  | none =>
    rw [(hd.publicly gameId event hp).mem_iff, h.mem_sockets]
    exact hsub
  | some user =>
    rw [(hd.privately gameId user event hp).2 sid]
    exact fun hin => hsub hin.2

theorem Inv.nodup_dispatch {events : List SocketEvent} {g : Gateway io} (h : Inv events g)
    (gameId : GameId) (event : Engine.GameBusEvent V E) : (g.dispatch gameId event).Nodup := by
  have hd : Delivers V E events g := h.delivers
  cases hp : Gateway.privateTo event with
  | none => exact (hd.publicly gameId event hp).nodup_iff.mpr (OrderedMap.nodup_keys _)
  | some user => exact (hd.privately gameId user event hp).1

theorem sent_dispatch {sids : List SocketId} (hnd : sids.Nodup) (m : GameMessage V E)
    (sid : SocketId) (gameId : GameId) :
    (((sids.map fun sid' => (⟨uuid, sid', m⟩ : Emission V E)).filter fun e =>
        e.socketId = sid ∧ e.message.gameId = gameId).map fun e => e.message.event) =
      if sid ∈ sids ∧ m.gameId = gameId then [m.event] else [] := by
  rw [List.filter_map, List.map_map]
  by_cases hgame : m.gameId = gameId
  · have hfilter :
        sids.filter ((fun e : Emission V E =>
          decide (e.socketId = sid ∧ e.message.gameId = gameId)) ∘
        fun sid' => ⟨uuid, sid', m⟩) = sids.filter (· = sid) :=
      List.filter_congr fun sid' _ => by simp [hgame]
    rw [hfilter, List.filter_eq]
    by_cases hin : sid ∈ sids
    · simp [hin, hgame, List.count_eq_one_of_mem hnd hin]
    · simp [hin, List.count_eq_zero_of_not_mem hin]
  · simp [hgame]

/-- What a socket is sent in a step. -/
theorem Linked.sent_step (h : Linked os r) (hstep : Relay.Step r o r')
    (hget : r.gates.get? uuid = some gate) (hget' : r'.gates.get? uuid = some gate')
    (sid : SocketId) (gameId : GameId) :
    gate'.handed = gate.handed ∧ r'.sentTo uuid sid gameId = r.sentTo uuid sid gameId ∨
    ∃ m, gate'.handed = gate.handed + 1 ∧ (r.queue uuid)[gate.handed]? = some m ∧
      r'.sentTo uuid sid gameId = r.sentTo uuid sid gameId ++
        if sid ∈ gate.gateway.dispatch m.gameId m.event ∧
        m.gameId = gameId then [m.event] else [] := by
  obtain ⟨new, hfate, hnew⟩ := fate hstep uuid
  have hsent : r'.sentTo uuid sid gameId = r.sentTo uuid sid gameId ++
      (new.filter fun e => e.socketId = sid ∧ e.message.gameId = gameId).map fun e =>
        e.message.event := by
    rw [Relay.sentTo, hnew, List.filter_append, List.map_append, Relay.sentTo]
  rw [hget, hget'] at hfate
  cases hfate with
  | apart => exact .inl ⟨rfl, by rw [hsent]; exact List.append_nil _⟩
  | socket => exact .inl ⟨rfl, by rw [hsent]; exact List.append_nil _⟩
  | @handed _ m hm =>
    refine .inr ⟨m, rfl, hm, ?_⟩
    rw [hsent, sent_dispatch ((h.heard uuid gate hget).nodup_dispatch m.gameId m.event)]

theorem heard_cases (events : List SocketEvent) (hup : o ≠ .gatewayUp uuid) :
    heard uuid events o = events ∨ ∃ event, o = .socket uuid event ∧
    heard uuid events o = events ++ [event] := by
  cases o with
  | published | gatewayDown | handed => exact .inl rfl
  | gatewayUp uuid' => exact .inl (if_neg fun heq => hup (by rw [heq]))
  | socket uuid' event =>
    by_cases hu : uuid' = uuid
    · exact .inr ⟨event, by rw [hu], if_pos hu⟩
    · exact .inl (if_neg hu)

/-- Who is in a game stays in it. -/
theorem remains {before after : List (Occurrence V E)} {sid : SocketId} {gameId : GameId}
    {user : UserId} (hup : .gatewayUp uuid ∉ after)
    (hstay : ∀ o ∈ after, ¬ Leaves uuid sid gameId o)
    (hconn : ConnectedAs (socketEvents uuid before) sid user)
    (hsub : Subscribed (socketEvents uuid before) sid gameId) :
    ConnectedAs (socketEvents uuid (before ++ after)) sid user ∧
      Subscribed (socketEvents uuid (before ++ after)) sid gameId := by
  induction after using List.reverseRecOn with
  | nil => rw [List.append_nil]; exact ⟨hconn, hsub⟩
  | append_singleton after o ih =>
    simp only [List.mem_append, List.mem_singleton, not_or] at hup
    obtain ⟨hconn, hsub⟩ := ih hup.1 fun o ho => hstay o (List.mem_append_left _ ho)
    rw [← List.append_assoc, socketEvents_snoc]
    rcases heard_cases (socketEvents uuid (before ++ after))
      (Ne.symm hup.2) with heq | ⟨event, rfl, heq⟩
    · rw [heq]
      exact ⟨hconn, hsub⟩
    · have hlast := hstay _ (List.mem_append_right _ (List.mem_singleton_self _))
      rw [heq, ConnectedAs, Subscribed, Since.snoc, Since.snoc]
      refine ⟨.inr ⟨?_, hconn⟩, .inr ⟨?_, hsub⟩⟩
      · rintro rfl
        exact hlast .disconnected
      · rintro (rfl | rfl)
        · exact hlast .unsubscribed
        · exact hlast .disconnected

/-- Who is not in a game does not come into it without subscribing. -/
theorem remains_out {before after : List (Occurrence V E)} {sid : SocketId} {gameId : GameId}
    (hsub : ¬ Subscribed (socketEvents uuid before) sid gameId)
    (hno : ∀ o ∈ after, o ≠ .socket uuid (.subscribeGame sid gameId)) :
    ¬ Subscribed (socketEvents uuid (before ++ after)) sid gameId := by
  induction after using List.reverseRecOn with
  | nil => rwa [List.append_nil]
  | append_singleton after o ih =>
    have hsub := ih fun o ho => hno o (List.mem_append_left _ ho)
    rw [← List.append_assoc, socketEvents_snoc]
    by_cases hup : o = .gatewayUp uuid
    · rw [hup, Realtime.heard, if_pos rfl]
      exact Since.not_nil
    · rcases heard_cases (socketEvents uuid (before ++ after)) hup with heq | ⟨event, rfl, heq⟩
      · rwa [heq]
      · rw [heq, Subscribed, Since.snoc]
        rintro (rfl | ⟨-, hin⟩)
        · exact hno _ (List.mem_append_right _ (List.mem_singleton_self _)) rfl
        · exact hsub hin

section Slice

variable {α : Type} {q : List α} {k n : Nat}

theorem slice_append (hn : n ≤ q.length) (ms : List α) :
    ((q ++ ms).take n).drop k = (q.take n).drop k := by
  rw [List.take_append_of_le_length hn]

theorem slice_succ {m : α} (hk : k ≤ n) (hm : q[n]? = some m) :
    (q.take (n + 1)).drop k = (q.take n).drop k ++ [m] := by
  obtain ⟨hn, rfl⟩ := List.getElem?_eq_some_iff.mp hm
  rw [List.take_succ_eq_append_getElem hn, List.drop_append_of_le_length]
  rw [List.length_take]
  exact le_min hk (hk.trans hn.le)

/-- A list in three pieces. -/
theorem take_slice_drop (hk : k ≤ n) (q : List α) :
    q.take k ++ (q.take n).drop k ++ q.drop n = q := by
  rw [← min_eq_left hk, ← List.take_take, min_eq_left hk, List.take_append_drop,
    List.take_append_drop]

end Slice

theorem stretch_start {before : List (Occurrence V E)} (h : Linked before r)
    (hget : r.gates.get? uuid = some gate) :
    Stretch uuid before [] r r gate gate where
  up := hget
  queue := (List.append_nil _).symm
  order := ⟨le_refl _, h.handed uuid gate hget⟩
  sent sid gameId user _ _ _ := by simp
  silent _ _ _ _ := rfl

/-- One more step of a gateway that stays up. -/
theorem Stretch.step {before after : List (Occurrence V E)} {r₁ r₂ : Relay io mq}
    {gate₁ gate₂ : Gate io} (h : Stretch uuid before after r r₁ gate gate₁)
    (hup : .gatewayUp uuid ∉ after) (hlinked : Linked (before ++ after) r₁)
    (hstep : Relay.Step r₁ o r₂) (hget : r₂.gates.get? uuid = some gate₂) :
    Stretch uuid before (after ++ [o]) r r₂ gate gate₂ := by
  have hqueue := hlinked.queue_step hstep h.up hget
  have hlen : (r₁.queue uuid).length ≤ (r₂.queue uuid).length := by
    rw [hqueue, List.length_append]
    exact Nat.le_add_right _ _
  obtain ⟨hfrom, hto⟩ := h.order
  refine ⟨hget, ?_, ?_, fun sid gameId user hconn hsub hstay => ?_, fun sid gameId hsub hno => ?_⟩
  · rw [hqueue, h.queue, routed_snoc, List.append_assoc]
  · rcases hlinked.sent_step hstep h.up hget "" "" with ⟨hn, -⟩ | ⟨m, hn, hm, -⟩
    · rw [hn]
      exact ⟨hfrom, hto.trans hlen⟩
    · rw [hn]
      exact ⟨hfrom.trans (Nat.le_succ _), (List.getElem?_eq_some_iff.mp hm).1.trans_le hlen⟩
  · have hstay' : ∀ o ∈ after, ¬ Leaves uuid sid gameId o :=
      fun o ho => hstay o (List.mem_append_left _ ho)
    have hsent := h.sent sid gameId user hconn hsub hstay'
    obtain ⟨hconn, hsub⟩ := remains hup hstay' hconn hsub
    rcases hlinked.sent_step hstep h.up hget sid gameId with ⟨hn, hr⟩ | ⟨m, hn, hm, hr⟩
    · rw [hr, hsent, hn, hqueue, slice_append hto]
    · have hle := (List.getElem?_eq_some_iff.mp hm).1
      rw [hr, hsent, hn, hqueue, slice_append hle, slice_succ hfrom hm, List.filter_append,
        List.map_append, List.append_assoc]
      congr 2
      have hmem := (hlinked.heard uuid gate₁ h.up).mem_dispatch m.gameId m.event hconn
      by_cases hgame : m.gameId = gameId
      · rw [hgame] at hmem
        by_cases hfor : (Gateway.privateTo m.event).all (· = user) = true
        · simp [hgame, hmem, hsub, hfor, passes]
        · simp [hgame, hmem, hfor, passes]
      · simp [hgame, passes]
  · have hsent := h.silent sid gameId hsub fun o ho => hno o (List.mem_append_left _ ho)
    have hout := remains_out hsub fun o ho => hno o (List.mem_append_left _ ho)
    rcases hlinked.sent_step hstep h.up hget sid gameId with ⟨-, hr⟩ | ⟨m, -, -, hr⟩
    · rw [hr, hsent]
    · rw [hr, hsent, if_neg, List.append_nil]
      rintro ⟨hin, rfl⟩
      exact (hlinked.heard uuid gate₁ h.up).not_mem_dispatch hout hin

/-- A gateway that is up stays up unless it goes down, and does not come up again. -/
theorem stays_up (hstep : Relay.Step r o r') (hget : r.gates.get? uuid = some gate)
    (hstay : o ≠ .gatewayDown uuid) :
    o ≠ .gatewayUp uuid ∧ ∃ gate', r'.gates.get? uuid = some gate' := by
  obtain ⟨new, hfate, -⟩ := fate hstep uuid
  rw [hget] at hfate
  generalize r'.gates.get? uuid = gate' at hfate ⊢
  cases hfate with
  | apart ho => exact ⟨fun heq => ho (by rw [heq]; rfl), gate, rfl⟩
  | closed => exact absurd rfl hstay
  | socket => exact ⟨nofun, _, rfl⟩
  | handed => exact ⟨nofun, _, rfl⟩

theorem linked_run (h : Trace Relay.Step {} os r) : Linked os r :=
  h.inv_labels (I := Linked) (fun _ _ _ _ hl hs => linked_step hl hs) [] linked_start

theorem stretch_of_trace {before after : List (Occurrence V E)} (hlinked : Linked before r)
    (hget : r.gates.get? uuid = some gate) (h : Trace Relay.Step r after r')
    (hstay : .gatewayDown uuid ∉ after) :
    .gatewayUp uuid ∉ after ∧ Linked (before ++ after) r' ∧
    ∃ gate', Stretch uuid before after r r' gate gate' := by
  have hrun := (h.restrict fun o ho => ne_of_mem_of_not_mem ho hstay).inv_labels
    (I := fun after r' => .gatewayUp uuid ∉ after ∧ Linked (before ++ after) r' ∧
      ∃ gate', Stretch uuid before after r r' gate gate')
    ?_ [] ⟨List.not_mem_nil, by rwa [List.append_nil], gate, stretch_start hlinked hget⟩
  · exact hrun
  · rintro pre r₁ o r₂ ⟨hup, hlinked, gate₁, hstretch⟩ ⟨hstep, ho⟩
    obtain ⟨hne, gate₂, hget₂⟩ := stays_up hstep hstretch.up ho
    refine ⟨?_, ?_, gate₂, hstretch.step hup hlinked hstep hget₂⟩
    · simp [hup, Ne.symm hne]
    · rw [← List.append_assoc]
      exact linked_step hlinked hstep

/-- **What the sockets are sent.** In every run of gateways, their sockets and whoever publishes:
between two moments, a gateway that stays up finds in its queue what is published, in order, and is
handed a further piece of it. A socket that is in a game all the time is sent just the events of the
game in that piece that are for everyone or for its user, in order and once each, and one that is
not is sent none. -/
theorem relayed_exactly {before after : List (Occurrence V E)} (h : Trace Relay.Step {} before r)
    (h' : Trace Relay.Step r after r') (hget : r.gates.get? uuid = some gate)
    (hstay : .gatewayDown uuid ∉ after) :
    ∃ gate', Stretch uuid before after r r' gate gate' :=
  (stretch_of_trace (linked_run h) hget h' hstay).2.2

end Run

/-- Two players in a game, on two gateways. -/
def seated : List (Occurrence Nat Nat) :=
  [.gatewayUp "a", .gatewayUp "b", .socket "a" (.connect "s1" (some "ada")),
    .socket "a" (.subscribeGame "s1" "g"),
    .socket "b" (.connect "s2" (some "bo")), .socket "b" (.subscribeGame "s2" "g")]

def told (type : String) (privateTo : Option UserId) : GameMessage Nat Nat :=
  { gameId := "g", event := { seq := 1, type, payload := .event (.scenario 0), privateTo } }

/-- An event for all, and one for `bo`; `b` is handed both late. -/
def evening : List (Occurrence Nat Nat) :=
  [.published (told "tile-claimed" none), .handed "a", .published (told "card-drawn" (some "bo")),
    .handed "a",
    .handed "b", .handed "b"]

theorem evening_relayed : ∃ r r' : Relay inMemory (RabbitMq.inMemory (GameMessage Nat Nat)),
    Trace Relay.Step {} seated r ∧ Trace Relay.Step r evening r' ∧
    (r'.sentTo "a" "s1" "g").map Engine.GameBusEvent.type = ["tile-claimed"] ∧
    (r'.sentTo "b" "s2" "g").map Engine.GameBusEvent.type = ["tile-claimed", "card-drawn"] ∧
    (∃ gate gate', Stretch "a" seated evening r r' gate gate') ∧
    ∃ gate gate', Stretch "b" seated evening r r' gate gate' := by
  have hseated : Trace Relay.Step ({} : Relay inMemory (RabbitMq.inMemory (GameMessage Nat Nat)))
      seated _ :=
    .cons (.gatewayUp (by decide)) <| .cons (.gatewayUp (by decide)) <|
    .cons (.socket rfl (.connect (by decide) (by decide))) <| .cons
    (.socket rfl (.subscribed rfl)) <|
    .cons (.socket rfl (.connect (by decide) (by decide))) <| .cons
    (.socket rfl (.subscribed rfl)) .nil
  have hqueue : ∀ {os : List (Occurrence Nat Nat)}
      {r : Relay inMemory (RabbitMq.inMemory (GameMessage Nat Nat))} {uuid : Uuid} {k : Nat}
      {m : GameMessage Nat Nat}, Trace Relay.Step {} os r → ((inbox uuid os).getD [])[k]? = some m →
      (r.queue uuid)[k]? = some m := by
    intro os r uuid k m h hm
    rwa [queue_of_bus (linked_run h).bus]
  have h₁ := hseated.snoc (.published (m := told "tile-claimed" none))
  have h₂ := h₁.snoc (l := .handed "a") (.handed rfl (hqueue h₁ rfl))
  have h₃ := h₂.snoc (.published (m := told "card-drawn" (some "bo")))
  have h₄ := h₃.snoc (l := .handed "a") (.handed rfl (hqueue h₃ rfl))
  have h₅ := h₄.snoc (l := .handed "b") (.handed rfl (hqueue h₄ rfl))
  have hevening : Trace Relay.Step _ evening _ :=
    .cons .published <| .cons (.handed rfl (hqueue h₁ rfl)) <| .cons .published <|
    .cons (.handed rfl (hqueue h₃ rfl)) <| .cons (.handed rfl (hqueue h₄ rfl)) <|
    .cons (.handed rfl (hqueue h₅ rfl)) .nil
  exact ⟨_, _, hseated, hevening, rfl, rfl,
    ⟨_, relayed_exactly hseated hevening rfl (by simp [evening])⟩,
    ⟨_, relayed_exactly hseated hevening rfl (by simp [evening])⟩⟩

end Boardgame.Realtime
