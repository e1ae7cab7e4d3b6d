import Boardgame.Core.Journal
import Boardgame.Engine.Isolation
import Boardgame.Realtime.Relay

/-!
# Realtime.Broadcast

A game on its replica, the broker, the gateways, and the sockets that listen to the game: from the
event log of the game to what a socket is sent. What the replica publishes comes to the broker one
message after the other, with whatever else happens at the broker and the gateways in between. The
broker keeps the laws of `RabbitMq`, and hands out a queue in order.

* `aired_step`: what a replica has published and what waits in its buffer is the log of the game.
* `Carried.step`: what the queue of a gateway holds of the game is what has come to the broker
  since.
* `heard_exactly`: a socket in the game is sent a piece of the log without gaps.
-/

namespace Boardgame

/-! ## Events for everybody -/

theorem Kingdoms.roundEndEvents_told {R : Type} (s : Kingdoms.KState R) :
    ∀ e ∈ Kingdoms.roundEndEvents s, e.privateTo = none := by
  intro e he
  simp only [Kingdoms.roundEndEvents, List.mem_append, List.mem_flatMap, List.mem_singleton] at he
  rcases he with (⟨pl, -, he⟩ | ⟨pl, -, he⟩) | rfl
  · simp only [Kingdoms.cycleEvents, Kingdoms.fedEvents, List.mem_cons] at he
    rcases he with rfl | he
    · rfl
    · split at he
      · rcases List.mem_cons.mp he with rfl | he
        · rfl
        · split at he
          · rw [List.mem_singleton.mp he]; rfl
          · exact absurd he List.not_mem_nil
      · exact absurd he List.not_mem_nil
  · rw [Kingdoms.reportDisconnected] at he
    split at he
    · rw [List.mem_singleton.mp he]; rfl
    · exact absurd he List.not_mem_nil
  · rfl

/-- No event of Kingdoms is private. -/
theorem Kingdoms.Effect.told {R : Type} [Strength R] {s s' : Kingdoms.KState R} {p : PlayerId}
    {payload : Kingdoms.KingdomsPayload} {evs : List (Kingdoms.KEvent R)}
    (h : Kingdoms.Effect s p payload evs s') :
    ∀ e ∈ evs, e.privateTo = none := by
  cases h with
  | wrapped => exact List.forall_mem_cons.mpr ⟨rfl, Kingdoms.roundEndEvents_told _⟩
  | attacked _ _ _ _ _ _ _ hafter =>
    refine List.forall_mem_cons.mpr ⟨rfl, ?_⟩
    cases hafter <;> simp [Kingdoms.kEvent]
  | _ => simp [Kingdoms.kEvent]

section Emits

variable {X P E : Type} [HasType P] {sc : Scenario X P E} {g g' : Game X P E} {c : Game.Call P E}

/-- Whatever a call comes to, it adds to the log what an executor returned, and what ends the
game. -/
theorem Game.Step.emits (hrules : sc.rules = []) (h : Game.Step sc g c g') :
    ∃ es, g'.events = (Game.emitted g es).events ∧
      ∀ e ∈ es, (∃ victory, e = { body := .gameEnded victory }) ∨
      ∃ a evs s', sc.validate g.state a = .ok () ∧ (sc.execute a).run g.state = .ok evs s' ∧
        e ∈ evs := by
  have hnone : (Game.emitted g []).events = g.events := by simp [Game.emitted, Game.stamp]
  have hempty : ∀ e ∈ ([] : List (GameEvent E)), (∃ victory, e = { body := .gameEnded victory }) ∨
      ∃ a evs s', sc.validate g.state a = .ok () ∧ (sc.execute a).run g.state = .ok evs s' ∧
        e ∈ evs :=
    fun e he => absurd he List.not_mem_nil
  cases h.outcome hrules with
  | started => exact ⟨[], hnone ▸ (Game.start_journal g).2.1, hempty⟩
  | rejected => exact ⟨[], hnone.symm, hempty⟩
  | refused => exact ⟨[], hnone.symm, hempty⟩
  | crashed => exact ⟨[], hnone.symm, hempty⟩
  | @played a primary s hv hx => exact ⟨primary, rfl, fun e he => .inr ⟨a, primary, s, hv, hx, he⟩⟩
  | @won a primary s victory hv hx =>
    refine ⟨primary ++ [{ body := .gameEnded victory }], ?_, fun e he => ?_⟩
    · simp [Game.executed, Game.emitted, Game.stamp_append, Nat.add_assoc]
    · rcases List.mem_append.mp he with he | he
      · exact .inr ⟨a, primary, s, hv, hx, he⟩
      · exact .inl ⟨victory, List.mem_singleton.mp he⟩
  | @stuck a primary s _ _ hv hx =>
    exact ⟨primary, rfl, fun e he => .inr ⟨a, primary, s, hv, hx, he⟩⟩

omit [HasType P] in
theorem Game.stamp_private {es : List (GameEvent E)} (h : ∀ e ∈ es, e.privateTo = none) :
    ∀ n, ∀ e ∈ Game.stamp n es, e.privateTo = none := by
  induction es with
  | nil => exact fun n e he => absurd he List.not_mem_nil
  | cons e es ih =>
    intro n
    rw [List.forall_mem_cons] at h
    exact List.forall_mem_cons.mpr ⟨h.1, ih h.2 (n + 1)⟩

end Emits

/-- The type of an event is one word of a routing key. -/
theorem Engine.Registered.type_plain {R : Type} (id : Engine.Registered)
    (e : GameEvent (id.Event R)) :
    '.' ∉ e.type.toList := by
  obtain ⟨body, _, _, _⟩ := e
  cases body with
  | gameEnded => exact show '.' ∉ "game-ended".toList by decide
  | scenario p =>
    cases id with
    | frontier =>
      have hall : ∀ p : Frontier.FrontierEvent, '.' ∉ (HasType.type p).toList := by
        rintro ⟨⟩ <;> simp [HasType.type]
      exact hall p
    | kingdoms =>
      have hall : ∀ p : Kingdoms.KingdomsEvent R, '.' ∉ (HasType.type p).toList := by
        rintro ⟨⟩ <;> simp [HasType.type]
      exact hall p

/-- Nothing in the log of a game is private. -/
theorem Engine.Registered.log_told {R : Type} [Strength R] (id : Engine.Registered)
    {opts : GameSetupOptions} (hid : (opts.players.map Player.id).Nodup)
    (hseat : (opts.players.map Player.seat).Nodup)
    {calls : List (Game.Call id.Payload (id.Event R))} {g : Game id.Extras id.Payload (id.Event R)}
    (h : Game.RunFrom (id.scenario R) opts calls g) :
    ∀ e ∈ g.events.emitted, e.privateTo = none := by
  have hacts : ∀ {calls g a evs s'}, Game.RunFrom (id.scenario R) opts calls g →
      (id.scenario R).validate g.state a = .ok () →
      ((id.scenario R).execute a).run g.state = .ok evs s' →
      ∀ e ∈ evs, e.privateTo = none := by
    intro calls g a evs s' hrun hv hx
    cases id with
    | frontier =>
      have hpayload : (Frontier.executePayload (Frontier.actor a.playerId) a.payload).run g.state =
          .ok evs s' := by
        rw [← Frontier.execute_eq]
        exact hx
      exact (Frontier.executePayload_told _ _ _ _ _ trivial hpayload).2
    | kingdoms =>
      obtain ⟨-, -, _, _, hx', heff⟩ :=
        Kingdoms.accepted_effect (Kingdoms.board_reachable hid hseat hrun).1 hv
      obtain ⟨rfl, rfl⟩ := EStateM.Result.ok.inj (hx.symm.trans hx')
      exact heff.told
  obtain ⟨s₀, hs₀, htrace⟩ := h
  have hrun := htrace.inv_labels
    (I := fun calls g => Game.RunFrom (id.scenario R) opts calls g ∧
      ∀ e ∈ g.events.emitted, e.privateTo = none)
    ?_ [] ⟨⟨s₀, hs₀, .nil⟩, fun e he => absurd he List.not_mem_nil⟩
  · exact hrun.2
  · rintro pre g c g' ⟨hrun, htold⟩ hstep
    obtain ⟨es, hes, hall⟩ := hstep.emits (id.plays hid hseat).rules
    refine ⟨?_, ?_⟩
    · obtain ⟨s, hs, htrace⟩ := hrun
      exact ⟨s, hs, htrace.snoc hstep⟩
    · rw [hes]
      refine List.forall_mem_append.mpr ⟨htold, Game.stamp_private (fun e he => ?_) _⟩
      rcases hall e he with ⟨victory, rfl⟩ | ⟨a, evs, s', hv, hx, hin⟩
      · rfl
      · exact hacts hrun hv hx e hin

namespace Realtime

open Engine
open EventBus (RabbitMq)

/-! ## The log on the air -/

section Air

variable {X P E V : Type} [HasType P] [HasType E]

/-- What is published of the log of a game, and what waits in the buffer. -/
structure Aired (r : Replica X P E V) : Prop where
  log : r.published.filter GameBusEvent.isEvent ++ r.inst.buffer.map busEvent =
    r.inst.game.events.emitted.map busEvent
  listening : r.held = true → r.inst.listening = true
  stamped : r.inst.game.events.emitted.map GameEvent.seq =
    (List.range' 1 r.inst.game.events.emitted.length).map some
  next : r.inst.game.events.nextSeq = r.inst.game.events.emitted.length + 1
  plain : ∀ msg ∈ r.published, '.' ∉ msg.type.toList

variable {sc : Scenario X P E}
  {buildView : GameState X P E → List Player → Option VictoryResult → V}
  {r r' : Replica X P E V} {m : Moment P E}

omit [HasType P] in
theorem Aired.flushEvents (htypes : ∀ e : GameEvent E, '.' ∉ e.type.toList) (h : Aired r) :
    Aired r.flushEvents where
  log := by
    rw [Replica.flushEvents, List.filter_append, filter_busEvent, List.map_nil, List.append_nil]
    exact h.log
  listening := h.listening
  stamped := h.stamped
  next := h.next
  plain msg hmsg := by
    rcases List.mem_append.mp hmsg with hmsg | hmsg
    · exact h.plain msg hmsg
    · obtain ⟨e, -, rfl⟩ := List.mem_map.mp hmsg
      exact htypes e

omit [HasType P] in
/-- A message that is no event of the game. -/
theorem Aired.publish {msg : GameBusEvent V E} (h : Aired r) (hmsg : msg.isEvent = false)
    (hplain : '.' ∉ msg.type.toList) : Aired (r.publish msg) where
  log := by
    rw [Replica.publish, List.filter_append, List.filter_cons_of_neg (by simp [hmsg]),
      List.filter_nil, List.append_nil]
    exact h.log
  listening := h.listening
  stamped := h.stamped
  next := h.next
  plain msg' hmsg' := by
    rcases List.mem_append.mp hmsg' with hmsg' | hmsg'
    · exact h.plain msg' hmsg'
    · exact List.mem_singleton.mp hmsg' ▸ hplain

omit [HasType P] in
theorem Aired.waits (h : Aired r) (o : Channel X P E V) : Aired { r with store := o } :=
  ⟨h.log, h.listening, h.stamped, h.next, h.plain⟩

theorem Aired.submitted (hrules : sc.rules = []) (h : Aired r) (hheld : r.held = true)
    (a : Action P) :
    Aired { r with inst := (r.inst.submit sc a).2 } := by
  obtain ⟨es, hes, -⟩ := (Game.respond_step sc r.inst.game (.submit a)).emits hrules
  have hnew : Game.newEvents r.inst.game (Game.respond sc r.inst.game (.submit a)).2 =
      Game.stamp r.inst.game.events.nextSeq es := Game.newEvents_append (by rw [hes]; rfl)
  have hstamped := Game.stamped_emitted h.next h.stamped es
  rw [← hes] at hstamped
  have hinst : (r.inst.submit sc a).2 =
      { r.inst with
        game := (Game.respond sc r.inst.game (.submit a)).2
        buffer := r.inst.buffer ++ Game.stamp r.inst.game.events.nextSeq es } := by
    simp only [GameInstance.submit, h.listening hheld, if_true, hnew]
  refine ⟨?_, fun _ => ?_, ?_, ?_, h.plain⟩
  · have hlog := h.log
    simp only [hinst, hes, Game.emitted, List.map_append] at hlog ⊢
    rw [← List.append_assoc, hlog]
  · rw [hinst]
    exact h.listening hheld
  · rw [hinst]
    exact hstamped
  · simp only [hinst, hes, Game.emitted, h.next, List.length_append, Game.stamp_length]
    exact Nat.add_right_comm _ _ _

/-- What a step of the replica adds to what is published. -/
theorem aired_step (hrules : sc.rules = []) (htypes : ∀ e : GameEvent E, '.' ∉ e.type.toList)
    (h : Aired r) (hstep : Replica.Step sc buildView r m r') :
    Aired r' ∧ r.published <+: r'.published := by
  obtain ⟨hturn⟩ := hstep
  rename_i i
  cases i with
  | command c =>
    rw [Replica.turn, Option.some.injEq] at hturn
    unfold Replica.handleCommand at hturn
    split at hturn
    · rename_i hheld
      have hsubmitted := h.submitted hrules hheld c.action
      simp only at hturn
      split at hturn
      · cases hturn
        exact ⟨hsubmitted.publish rfl (show '.' ∉ "error".toList by decide), List.prefix_append _ _⟩
      · cases hturn
        exact ⟨(hsubmitted.flushEvents htypes).waits _, List.prefix_append _ _⟩
      · cases hturn
        exact ⟨hsubmitted, List.prefix_rfl⟩
    · cases hturn
      exact ⟨h, List.prefix_rfl⟩
  | complete =>
    obtain ⟨store, -, hm⟩ := Option.map_eq_some_iff.mp hturn
    cases hm
    exact ⟨h.waits store, List.prefix_rfl⟩
  | resume =>
    obtain ⟨r₁, hr₁, hm⟩ := Option.map_eq_some_iff.mp hturn
    cases hm
    unfold Replica.resume at hr₁
    split at hr₁
    · cases hr₁
    · cases hr₁
      exact ⟨h.waits _, List.prefix_rfl⟩
    · cases hr₁
      exact ⟨h.waits _, List.prefix_rfl⟩
    · cases hr₁
      exact ⟨⟨h.log, fun hheld => absurd hheld Bool.false_ne_true, h.stamped, h.next, h.plain⟩,
        List.prefix_rfl⟩
    · cases hr₁
      exact ⟨((h.waits _).flushEvents htypes).waits _, List.prefix_append _ _⟩
    · cases hr₁
      exact ⟨(h.waits _).publish rfl (show '.' ∉ "game-started".toList by decide),
        List.prefix_append _ _⟩

end Air

/-! ## From the replica to the gateways -/

/-- `sent` is how many of the messages of the replica have come to the broker. -/
structure Broadcast (io : SocketIo) (X P : Type) {E V : Type}
    (mq : RabbitMq (GameMessage V E)) where
  replica : Replica X P E V
  sent : Nat := 0
  relay : Relay io mq := {}

inductive Beat (P V E : Type) where
  | engine (m : Moment P E)
  | arrived (event : GameBusEvent V E)
  | relay (o : Occurrence V E)

/-- What the broker and the gateways see of it. -/
def Beat.occurrences {P V E : Type} (gameId : GameId) : Beat P V E → List (Occurrence V E)
  | .engine _ => []
  | .arrived event => [.published ⟨gameId, event⟩]
  | .relay o => [o]

def occurrences {P V E : Type} (gameId : GameId) (ls : List (Beat P V E)) : List (Occurrence V E) :=
  ls.flatMap (Beat.occurrences gameId)

variable {X P E V : Type} {io : SocketIo} {mq : RabbitMq (GameMessage V E)}

namespace Broadcast

/-- The messages come to the broker in the order they are published in; nobody else publishes for
the game. -/
inductive Step [HasType P] [HasType E] (sc : Scenario X P E)
    (buildView : GameState X P E → List Player → Option VictoryResult → V) (gameId : GameId) :
    Broadcast io X P mq → Beat P V E → Broadcast io X P mq → Prop where
  | engine {b : Broadcast io X P mq} {m : Moment P E} {r : Replica X P E V} :
      Replica.Step sc buildView b.replica m r →
      Step sc buildView gameId b (.engine m) { b with replica := r }
  | arrived {b : Broadcast io X P mq} {event : GameBusEvent V E} :
      b.replica.published[b.sent]? = some event →
      Step sc buildView gameId b (.arrived event)
        { b with sent := b.sent + 1, relay := b.relay.publish ⟨gameId, event⟩ }
  | relay {b : Broadcast io X P mq} {o : Occurrence V E} {relay : Relay io mq} :
      Relay.Step b.relay o relay → (∀ m, o = .published m → m.gameId ≠ gameId) →
      Step sc buildView gameId b (.relay o) { b with relay }

/-- The messages of the game that are on their way to a gateway. -/
def underway (b : Broadcast io X P mq) (gameId : GameId) (uuid : Uuid) (gate : Gate io) :
    List (GameMessage V E) :=
  ((b.relay.queue uuid).drop gate.handed).filter fun m => m.gameId = gameId

/-- How many of the messages of the replica have gone past a gateway. -/
def past (b : Broadcast io X P mq) (gameId : GameId) (uuid : Uuid) (gate : Gate io) : Nat :=
  b.sent - (b.underway gameId uuid gate).length

end Broadcast

/-! ## The invariant -/

/-- What the queue of a gateway holds of the game came to the broker after the first `k`
messages. -/
structure Carried (gameId : GameId) (uuid : Uuid) (k : Nat) (b : Broadcast io X P mq) : Prop where
  le : k ≤ b.sent
  queue : ((b.relay.queue uuid).filter fun m => m.gameId = gameId).map GameMessage.event =
    (b.replica.published.take b.sent).drop k

variable [HasType P] [HasType E]

structure Airing (gameId : GameId) (ls : List (Beat P V E)) (b : Broadcast io X P mq) : Prop where
  linked : Linked (occurrences gameId ls) b.relay
  aired : Aired b.replica
  sent : b.sent ≤ b.replica.published.length
  carried : ∀ uuid gate, b.relay.gates.get? uuid = some gate → ∃ k, Carried gameId uuid k b

section Run

variable {sc : Scenario X P E}
  {buildView : GameState X P E → List Player → Option VictoryResult → V}
  {gameId : GameId} {ls : List (Beat P V E)} {l : Beat P V E} {b b' : Broadcast io X P mq}
    {uuid : Uuid} {gate gate' : Gate io} {k : Nat}

/-- A step, as the broker and the gateways see it. -/
theorem relay_step (h : Broadcast.Step sc buildView gameId b l b') :
    Trace Relay.Step b.relay (l.occurrences gameId) b'.relay := by
  cases h with
  | engine => exact .nil
  | arrived => exact .single .published
  | relay hstep => exact .single hstep

theorem relay_run (h : Trace (Broadcast.Step sc buildView gameId) b ls b') :
    Trace Relay.Step b.relay (occurrences gameId ls) b'.relay := by
  induction h with
  | nil => exact .nil
  | cons hstep _ ih => exact (relay_step hstep).append ih

/-- A gateway that is up before and after. -/
theorem Carried.step (hplain : '.' ∉ gameId.toList) (h : Airing gameId ls b)
    (hcarried : Carried gameId uuid k b) (hpublished : b.replica.published <+: b'.replica.published)
    (hstep : Broadcast.Step sc buildView gameId b l b') (hget : b.relay.gates.get? uuid = some gate)
    (hget' : b'.relay.gates.get? uuid = some gate') : Carried gameId uuid k b' := by
  cases hstep with
  | engine =>
    refine ⟨hcarried.le, ?_⟩
    obtain ⟨more, hmore⟩ := hpublished
    rw [hcarried.queue, ← hmore, List.take_append_of_le_length h.sent]
  | @arrived event hevent =>
    refine ⟨Nat.le_succ_of_le hcarried.le, ?_⟩
    have hrouted : Occurrence.routed (.published (⟨gameId, event⟩ : GameMessage V E)) =
        [⟨gameId, event⟩] :=
      if_pos ⟨hplain, h.aired.plain event (List.mem_of_getElem? hevent)⟩
    rw [h.linked.queue_step .published hget hget', hrouted, List.filter_append, List.map_append,
      hcarried.queue, slice_succ hcarried.le hevent]
    simp
  | @relay o relay hrelay hother =>
    refine ⟨hcarried.le, ?_⟩
    have hnone : o.routed.filter (fun m => m.gameId = gameId) = [] := by
      refine List.filter_eq_nil_iff.mpr fun m hm => ?_
      cases o with
      | published m' =>
        rw [Occurrence.routed] at hm
        split at hm
        · rw [List.mem_singleton.mp hm]
          simpa using hother m' rfl
        · exact absurd hm List.not_mem_nil
      | _ => exact absurd hm List.not_mem_nil
    rw [h.linked.queue_step hrelay hget hget', List.filter_append, hnone, List.append_nil]
    exact hcarried.queue

omit [HasType P] [HasType E] in
/-- A gateway that comes up finds its queue empty. -/
theorem Carried.opened {os : List (Occurrence V E)} {o : Occurrence V E} {relay : Relay io mq}
    (h : Linked os b.relay) (hrelay : Relay.Step b.relay o relay)
    (hget : b.relay.gates.get? uuid = none) (hget' : relay.gates.get? uuid = some gate') :
    Carried gameId uuid b.sent { b with relay } := by
  have hempty : relay.queue uuid = [] := by
    rw [queue_of_bus (linked_step h hrelay).bus, inbox_snoc, (h.up uuid).mp hget]
    obtain ⟨new, hfate, -⟩ := fate hrelay uuid
    rw [hget, hget'] at hfate
    cases hfate
    simp [fill]
  refine ⟨le_refl _, ?_⟩
  rw [hempty, List.drop_eq_nil_of_le (List.length_take_le _ _)]
  rfl

theorem airing_step (hrules : sc.rules = []) (htypes : ∀ e : GameEvent E, '.' ∉ e.type.toList)
    (hplain : '.' ∉ gameId.toList) (h : Airing gameId ls b)
    (hstep : Broadcast.Step sc buildView gameId b l b') :
    Airing gameId (ls ++ [l]) b' ∧ b.replica.published <+: b'.replica.published := by
  have hos : occurrences gameId (ls ++ [l]) = occurrences gameId ls ++ l.occurrences gameId := by
    simp [occurrences]
  have hlinked : Linked (occurrences gameId (ls ++ [l])) b'.relay := by
    rw [hos]
    exact (relay_step hstep).inv_labels (I := Linked)
      (fun _ _ _ _ hl hs => linked_step hl hs) _ h.linked
  have hreplica : Aired b'.replica ∧ b.replica.published <+: b'.replica.published := by
    cases hstep with
    | engine hturn => exact aired_step hrules htypes h.aired hturn
    | arrived => exact ⟨h.aired, List.prefix_rfl⟩
    | relay => exact ⟨h.aired, List.prefix_rfl⟩
  have hsent : b'.sent ≤ b'.replica.published.length := by
    cases hstep with
    | engine => exact h.sent.trans hreplica.2.length_le
    | arrived hevent => exact (List.getElem?_eq_some_iff.mp hevent).1
    | relay => exact h.sent
  refine ⟨⟨hlinked, hreplica.1, hsent, fun uuid gate' hget' => ?_⟩, hreplica.2⟩
  cases hget : b.relay.gates.get? uuid with
  | some gate =>
    obtain ⟨k, hcarried⟩ := h.carried uuid gate hget
    exact ⟨k, hcarried.step hplain h hreplica.2 hstep hget hget'⟩
  | none =>
    cases hstep with
    | engine => rw [hget] at hget'; cases hget'
    | arrived => rw [Relay.publish, hget] at hget'; cases hget'
    | relay hrelay => exact ⟨b.sent, .opened h.linked hrelay hget hget'⟩

omit [HasType P] in
/-- A game that has just been created, at a broker where nothing has happened. -/
theorem airing_start {opts : GameSetupOptions} {r₀ : Replica X P E V}
    (hr : Replica.openGame sc opts = .ok r₀) :
    Airing gameId [] ({ replica := r₀ } : Broadcast io X P mq) := by
  have haired : Aired r₀ := by
    cases hs : createGameState sc opts with
    | error e => simp [Replica.openGame, hs, Except.map] at hr
    | ok s =>
      simp only [Replica.openGame, hs, Except.map, Except.ok.injEq] at hr
      subst hr
      have hevents : (Game.new s).start.events = {} := (Game.start_journal (Game.new s)).2.1
      exact
        { log := by rw [hevents]; rfl
          listening := fun _ => rfl
          stamped := by rw [hevents]; rfl
          next := by rw [hevents]; rfl
          plain := fun _ hmsg => absurd hmsg List.not_mem_nil }
  exact ⟨linked_start, haired, Nat.zero_le _, fun _ _ hget => by cases hget⟩

theorem airing_run (hrules : sc.rules = []) (htypes : ∀ e : GameEvent E, '.' ∉ e.type.toList)
    (hplain : '.' ∉ gameId.toList) (h : Airing gameId ls b) {after : List (Beat P V E)}
    (hrun : Trace (Broadcast.Step sc buildView gameId) b after b') :
    Airing gameId (ls ++ after) b' :=
  hrun.inv_labels (I := Airing gameId) (fun _ _ _ _ h hs =>
    (airing_step hrules htypes hplain h hs).1) ls h

/-- Through a run that a gateway stays up in. -/
theorem Carried.run (hrules : sc.rules = []) (htypes : ∀ e : GameEvent E, '.' ∉ e.type.toList)
    (hplain : '.' ∉ gameId.toList) (h : Airing gameId ls b) (hcarried : Carried gameId uuid k b)
    {after : List (Beat P V E)} (hrun : Trace (Broadcast.Step sc buildView gameId) b after b')
    (hget : b.relay.gates.get? uuid = some gate) (hstay : .relay (.gatewayDown uuid) ∉ after) :
    Carried gameId uuid k b' := by
  have hgoes := (hrun.restrict fun l hl => ne_of_mem_of_not_mem hl hstay).inv_labels
    (I := fun after b' => Airing gameId (ls ++ after) b' ∧ Carried gameId uuid k b' ∧
      ∃ gate', b'.relay.gates.get? uuid = some gate')
    ?_ [] ⟨by rwa [List.append_nil], hcarried, gate, hget⟩
  · exact hgoes.2.1
  · rintro pre b₁ l b₂ ⟨hairing, hcarried, gate₁, hget₁⟩ ⟨hstep, hl⟩
    obtain ⟨hairing₂, hpublished⟩ := airing_step hrules htypes hplain hairing hstep
    have hup : ∃ gate₂, b₂.relay.gates.get? uuid = some gate₂ := by
      cases hstep with
      | engine => exact ⟨gate₁, hget₁⟩
      | arrived => exact ⟨gate₁, hget₁⟩
      | relay hrelay => exact (stays_up hrelay hget₁ fun heq => hl (by rw [heq])).2
    obtain ⟨gate₂, hget₂⟩ := hup
    refine ⟨?_, hcarried.step hplain hairing hpublished hstep hget₁ hget₂, gate₂, hget₂⟩
    rw [← List.append_assoc]
    exact hairing₂

/-! ## What a socket is sent -/

/-- What the replica has published that goes past a gateway between two moments. -/
def piece (gameId : GameId) (uuid : Uuid) (b b' : Broadcast io X P mq) (gate gate' : Gate io) :
    List (GameBusEvent V E) :=
  (b'.replica.published.take (b'.past gameId uuid gate')).drop (b.past gameId uuid gate)

omit [HasType P] [HasType E] in
theorem past_eq (hsent : b.sent ≤ b.replica.published.length) (h : Carried gameId uuid k b)
    (gate : Gate io) :
    b.past gameId uuid gate =
      k + (((b.relay.queue uuid).take gate.handed).filter fun m => m.gameId = gameId).length := by
  have hlen := congrArg List.length h.queue
  rw [List.length_map, List.length_drop, List.length_take, min_eq_left hsent] at hlen
  have hsplit := congrArg (fun q => (List.filter (fun m => decide (m.gameId = gameId)) q).length)
    (List.take_append_drop gate.handed (b.relay.queue uuid))
  simp only [List.filter_append, List.length_append] at hsplit
  have hle := h.le
  rw [Broadcast.past, Broadcast.underway]
  omega

/-- The middle of three lists, as it stands in a longer one. -/
theorem middle_eq {α : Type} {pub first second third : List α} {k s : Nat} (hk : k ≤ s)
    (hs : s ≤ pub.length) (h : first ++ second ++ third = (pub.take s).drop k) :
    second = (pub.take (k + first.length + second.length)).drop (k + first.length) := by
  have hlen := congrArg List.length h
  rw [List.length_append, List.length_append, List.length_drop, List.length_take,
    min_eq_left hs] at hlen
  have hfront : first ++ second = (pub.take (k + first.length + second.length)).drop k := by
    have htake := congrArg (List.take (first ++ second).length) h
    rw [List.take_left, List.take_drop, List.take_take, List.length_append] at htake
    rw [htake]
    congr 2
    omega
  rw [← List.drop_drop, ← hfront, List.drop_left]

/-- The message is for everyone, or for the user. -/
def forUser (user : UserId) (event : GameBusEvent V E) : Bool :=
  (Gateway.privateTo event).all (· = user)

/-- What a socket in a game hears of it between two moments. -/
structure Heard (gameId : GameId) (uuid : Uuid) (sid : SocketId) (user : UserId)
    (b b' : Broadcast io X P mq) (gate gate' : Gate io) : Prop where
  sent : b'.relay.sentTo uuid sid gameId =
    b.relay.sentTo uuid sid gameId ++ (piece gameId uuid b b' gate gate').filter (forUser user)
  /-- The events in it are consecutive ones of the log of the game. -/
  events : ∃ a n,
    ((piece gameId uuid b b' gate gate').filter (forUser user)).filter GameBusEvent.isEvent =
      ((b'.replica.inst.game.events.emitted.drop a).take n).map busEvent ∧
    (((piece gameId uuid b b' gate gate').filter (forUser user)).filter
      GameBusEvent.isEvent).map GameBusEvent.seq = List.range' (a + 1) n
  /-- If nothing is on its way at either moment, it is all that was published between them. -/
  settled : b.past gameId uuid gate = b.replica.published.length →
    b'.past gameId uuid gate' = b'.replica.published.length →
    piece gameId uuid b b' gate gate' = b'.replica.published.drop b.replica.published.length

omit [HasType P] in
theorem piece_events {r : Replica X P E V} (h : Aired r) {i j : Nat} (hij : i ≤ j) :
    ∃ a n, ((r.published.take j).drop i).filter GameBusEvent.isEvent =
        ((r.inst.game.events.emitted.drop a).take n).map busEvent ∧
      (((r.published.take j).drop i).filter GameBusEvent.isEvent).map GameBusEvent.seq =
        List.range' (a + 1) n := by
  have hlog := h.log
  rw [← take_slice_drop hij r.published] at hlog
  simp only [List.filter_append, List.append_assoc] at hlog
  set first := (r.published.take i).filter GameBusEvent.isEvent
  set second := ((r.published.take j).drop i).filter GameBusEvent.isEvent
  have hsecond :
      second = ((r.inst.game.events.emitted.drop first.length).take
        second.length).map busEvent := by
    rw [List.map_take, List.map_drop, ← hlog, List.drop_left, List.take_left]
  refine ⟨first.length, second.length, hsecond, ?_⟩
  have hseqs : (r.inst.game.events.emitted.map (busEvent (V := V))).map GameBusEvent.seq =
      List.range' 1 r.inst.game.events.emitted.length := by
    have hseq : GameBusEvent.seq ∘ (busEvent (E := E) (V := V)) = (·.getD 0) ∘ GameEvent.seq := rfl
    rw [List.map_map, hseq, ← List.map_map, h.stamped, List.map_map]
    exact List.map_id _
  have hlen := congrArg List.length hlog
  simp only [List.length_append, List.length_map] at hlen
  calc second.map GameBusEvent.seq
    _ = (((r.inst.game.events.emitted.map (busEvent (V := V))).map GameBusEvent.seq).drop
      first.length).take
          second.length := by
            rw [← List.map_drop, ← List.map_take, ← hlog, List.drop_left, List.take_left]
    _ = List.range' (first.length + 1) second.length := by
      rw [hseqs, List.drop_range', List.take_range'_of_length_ge (by omega), Nat.mul_one,
        Nat.add_comm]

omit [HasType P] in
/-- If no event of the log is private, every user is sent them all. -/
theorem events_forUser {r : Replica X P E V} (h : Aired r)
    (htold : ∀ e ∈ r.inst.game.events.emitted, e.privateTo = none) (user : UserId)
    {msgs : List (GameBusEvent V E)} (hmsgs : ∀ msg ∈ msgs, msg ∈ r.published) :
    (msgs.filter (forUser user)).filter GameBusEvent.isEvent =
      msgs.filter GameBusEvent.isEvent := by
  rw [List.filter_filter]
  refine List.filter_congr fun msg hmsg => ?_
  cases hevent : msg.isEvent with
  | false => rfl
  | true =>
    have hin : msg ∈ r.inst.game.events.emitted.map busEvent := by
      rw [← h.log]
      exact List.mem_append_left _ (List.mem_filter.mpr ⟨hmsgs msg hmsg, hevent⟩)
    obtain ⟨e, he, rfl⟩ := List.mem_map.mp hin
    simp [forUser, Gateway.privateTo, busEvent, htold e he]

theorem Airing.heard (hrules : sc.rules = []) (htypes : ∀ e : GameEvent E, '.' ∉ e.type.toList)
    (hplain : '.' ∉ gameId.toList) (h : Airing gameId ls b) {after : List (Beat P V E)}
    (hrun : Trace (Broadcast.Step sc buildView gameId) b after b')
    (hget : b.relay.gates.get? uuid = some gate) (hget' : b'.relay.gates.get? uuid = some gate')
    {sid : SocketId} {user : UserId}
    (hconn : ConnectedAs (socketEvents uuid (occurrences gameId ls)) sid user)
    (hsub : Subscribed (socketEvents uuid (occurrences gameId ls)) sid gameId)
    (hstay : ∀ o ∈ occurrences gameId after, ¬ Leaves uuid sid gameId o)
    (htold : ∀ e ∈ b'.replica.inst.game.events.emitted, e.privateTo = none) :
    Heard gameId uuid sid user b b' gate gate' := by
  have hgone : Occurrence.gatewayDown uuid ∉ occurrences gameId after :=
    fun hin => hstay _ hin .gone
  obtain ⟨-, -, gate₁, hstretch⟩ := stretch_of_trace h.linked hget (relay_run hrun) hgone
  obtain rfl : gate₁ = gate' := Option.some.inj (hstretch.up.symm.trans hget')
  obtain ⟨k, hcarried⟩ := h.carried uuid gate hget
  have hcarried' := hcarried.run hrules htypes hplain h hrun hget fun hin =>
    hgone (List.mem_flatMap.mpr ⟨_, hin, List.mem_singleton_self _⟩)
  have hairing' := airing_run hrules htypes hplain h hrun
  -- the queue of the gateway: what it had been handed, what it is handed now, and the rest
  obtain ⟨hfrom, hto⟩ := hstretch.order
  have hold := h.linked.handed uuid gate hget
  have htake : (b'.relay.queue uuid).take gate.handed = (b.relay.queue uuid).take gate.handed := by
    rw [hstretch.queue, List.take_append_of_le_length hold]
  have hqueue := hcarried'.queue
  rw [← take_slice_drop hfrom (b'.relay.queue uuid)] at hqueue
  simp only [List.filter_append, List.map_append] at hqueue
  have hmiddle := middle_eq hcarried'.le hairing'.sent hqueue
  have hpast := past_eq h.sent hcarried gate
  have hpast' := past_eq hairing'.sent hcarried' gate₁
  rw [← List.take_append_drop gate.handed ((b'.relay.queue uuid).take gate₁.handed), List.take_take,
    min_eq_left hfrom, htake, List.filter_append, List.length_append, ← Nat.add_assoc] at hpast'
  rw [htake, List.length_map, List.length_map, ← hpast', ← hpast] at hmiddle
  refine ⟨?_, ?_, fun hall hall' => ?_⟩
  · rw [hstretch.sent sid gameId user hconn hsub hstay, piece, ← hmiddle, List.filter_map,
      List.filter_filter]
    congr 2
    refine List.filter_congr fun m _ => ?_
    simp only [passes, forUser, Bool.decide_and, Bool.decide_eq_true, Function.comp_apply,
      Bool.and_comm]
  · rw [piece, events_forUser hairing'.aired htold user
      fun msg hmsg => List.mem_of_mem_take (List.mem_of_mem_drop hmsg)]
    refine piece_events hairing'.aired ?_
    rw [hpast', hpast]
    exact Nat.le_add_right _ _
  · rw [piece, hall, hall', List.take_length]

/-- A step of the replica is a call on its game, or leaves the game alone. -/
theorem game_step {r r' : Replica X P E V} {m : Moment P E} (h : Replica.Step sc buildView r m r') :
    r'.inst.game = r.inst.game ∨ ∃ c, Game.Step sc r.inst.game c r'.inst.game := by
  obtain ⟨hturn⟩ := h
  rename_i i
  cases i with
  | command c =>
    rw [Replica.turn, Option.some.injEq] at hturn
    by_cases hheld : r.held = true
    · have hgame := (handleCommand_held sc c hheld).2
      rw [hturn] at hgame
      rw [hgame]
      exact .inr ⟨_, Game.respond_step sc r.inst.game (.submit c.action)⟩
    · rw [handleCommand_absent sc c (Bool.eq_false_iff.mpr hheld)] at hturn
      cases hturn
      exact .inl rfl
  | complete =>
    obtain ⟨store, -, hm⟩ := Option.map_eq_some_iff.mp hturn
    cases hm
    exact .inl rfl
  | resume =>
    obtain ⟨r₁, hr₁, hm⟩ := Option.map_eq_some_iff.mp hturn
    cases hm
    exact .inl (resume_game hr₁)

theorem replica_game {opts : GameSetupOptions} {r₀ : Replica X P E V}
    (hr : Replica.openGame sc opts = .ok r₀)
    (h : Trace (Broadcast.Step sc buildView gameId)
      ({ replica := r₀ } : Broadcast io X P mq) ls b) :
    ∃ calls, Game.RunFrom sc opts calls b.replica.inst.game := by
  refine h.inv (I := fun b => ∃ calls, Game.RunFrom sc opts calls b.replica.inst.game) ?_ ?_
  · rintro b l b' ⟨calls, s, hs, hrun⟩ hstep
    cases hstep with
    | arrived => exact ⟨calls, s, hs, hrun⟩
    | relay => exact ⟨calls, s, hs, hrun⟩
    | @engine m r hturn =>
      rcases game_step hturn with heq | ⟨c, hcall⟩
      · exact ⟨calls, s, hs, heq ▸ hrun⟩
      · exact ⟨calls ++ [c], s, hs, hrun.snoc hcall⟩
  · cases hs : createGameState sc opts with
    | error e => simp [Replica.openGame, hs, Except.map] at hr
    | ok s =>
      simp only [Replica.openGame, hs, Except.map, Except.ok.injEq] at hr
      subst hr
      exact ⟨[.start], s, hs, .single .start⟩

end Run

/-- **What the players hear of a game.** In every run of a game of a registered scenario, of the
gateways and of their sockets, from the creation of the game on: between any two moments, a socket
that is in the game all the time is sent what goes past its gateway of what the replica has
published, without the refusals of others, and the events among it are consecutive ones of the log
of the game. -/
theorem heard_exactly {R : Type} [Strength R] (id : Registered) {gameId : GameId}
    {ps : List (PlayerId × String)} (hid : (ps.map Prod.fst).Nodup) (hplain : '.' ∉ gameId.toList)
    {r₀ : Replica id.Extras id.Payload (id.Event R) id.View}
    (hr : Replica.openGame (id.scenario R) (startingOptions gameId ps) = .ok r₀)
    {before after : List (Beat id.Payload id.View (id.Event R))}
    {mq : RabbitMq (GameMessage id.View (id.Event R))}
    {b b' : Broadcast io id.Extras id.Payload mq}
    (h : Trace (Broadcast.Step (id.scenario R) (id.buildView R) gameId) { replica := r₀ } before b)
    (h' : Trace (Broadcast.Step (id.scenario R) (id.buildView R) gameId) b after b')
    {uuid : Uuid} {gate gate' : Gate io} (hget : b.relay.gates.get? uuid = some gate)
    (hget' : b'.relay.gates.get? uuid = some gate') {sid : SocketId} {user : UserId}
    (hconn : ConnectedAs (socketEvents uuid (occurrences gameId before)) sid user)
    (hsub : Subscribed (socketEvents uuid (occurrences gameId before)) sid gameId)
    (hstay : ∀ o ∈ occurrences gameId after, ¬ Leaves uuid sid gameId o) :
    Heard gameId uuid sid user b b' gate gate' := by
  have hids : ((startingOptions gameId ps).players.map Player.id).Nodup :=
    (gamePlayers_ids ps).symm ▸ hid
  have hrules := (id.plays (R := R) hids (gamePlayers_seats ps)).rules
  have hairing : Airing gameId ([] ++ before) b :=
    airing_run hrules id.type_plain hplain (airing_start hr) h
  obtain ⟨_, hrun⟩ := replica_game hr (h.append h')
  exact hairing.heard hrules id.type_plain hplain h' hget hget' hconn hsub hstay
    (id.log_told hids (gamePlayers_seats ps) hrun)

/-- What the replica does on its own. -/
theorem engine_run {sc : Scenario X P E}
    {buildView : GameState X P E → List Player → Option VictoryResult → V}
    {gameId : GameId} {r r' : Replica X P E V} {ms : List (Moment P E)}
    (h : Trace (Replica.Step sc buildView) r ms r') (b : Broadcast io X P mq) :
    Trace (Broadcast.Step sc buildView gameId) { b with replica := r } (ms.map .engine)
      { b with replica := r' } := by
  induction h with
  | nil => exact .nil
  | cons hstep _ ih => exact .cons (.engine hstep) ih

/-- What goes on without it. -/
theorem relay_only {sc : Scenario X P E}
    {buildView : GameState X P E → List Player → Option VictoryResult → V}
    {gameId : GameId} {relay relay' : Relay io mq} {os : List (Occurrence V E)}
    (h : Trace Relay.Step relay os relay') (hos : ∀ o ∈ os, ∀ m, o = .published m →
      m.gameId ≠ gameId)
    (b : Broadcast io X P mq) :
    Trace (Broadcast.Step sc buildView gameId) { b with relay } (os.map .relay)
      { b with relay := relay' } := by
  induction h with
  | nil => exact .nil
  | cons hstep _ ih =>
    rw [List.forall_mem_cons] at hos
    exact .cons (.relay hstep hos.1) (ih hos.2)

/-! ## One claim -/

abbrev board : GameSetupOptions := startingOptions "s8" [("p1", "Ada"), ("p2", "Bo")]

/-- The broker of the example. -/
abbrev fBroker : RabbitMq (GameMessage Frontier.FrontierView Frontier.FrontierEvent) := .inMemory _

abbrev FBroadcast := Broadcast inMemory Frontier.FrontierExtras Frontier.FrontierPayload fBroker

abbrev BoardStep : FBroadcast →
    Beat Frontier.FrontierPayload Frontier.FrontierView Frontier.FrontierEvent →
    FBroadcast → Prop :=
  Broadcast.Step Frontier.frontierScenario Frontier.buildView "s8"

/-- `createGame` runs to its end, and then `p1` claims a tile. -/
def claiming : List (Input Frontier.FrontierPayload) :=
  [.complete, .resume, .complete, .resume, .command ⟨"p1", .claimTile "2,-1", none⟩]

/-- A page subscribes before the game is created. -/
def joining : List (Occurrence Frontier.FrontierView Frontier.FrontierEvent) :=
  [.gatewayUp "a", .socket "a" (.connect "s1" (some "p1")), .socket "a" (.subscribeGame "s1" "s8")]

theorem joining_run : ∃ j : Relay inMemory fBroker,
    Trace Relay.Step {} joining j ∧ ∃ gate, j.gates.get? "a" = some gate ∧ gate.handed = 0 :=
  ⟨_, .cons (.gatewayUp List.not_mem_nil) <| .cons
    (.socket rfl (.connect List.not_mem_nil (by decide))) <|
    .cons (.socket rfl (.subscribed rfl)) .nil, _, rfl, rfl⟩

/-- The first view and the claim come to the broker and the page's gateway, one after the other. -/
theorem claim_carried : ∃ r₀ after, ∃ b b' : FBroadcast, ∃ gate : Gate inMemory,
    Replica.openGame Frontier.frontierScenario board = .ok r₀ ∧
    Trace BoardStep { replica := r₀ } (joining.map .relay) b ∧ Trace BoardStep b after b' ∧
    b.relay.gates.get? "a" = some gate ∧ b'.relay.gates.get? "a" = some { gate with handed := 2 } ∧
    b'.sent = 2 ∧
    ∀ o ∈ occurrences "s8" after, ¬ Leaves "a" "s1" "s8" o := by
  have hobserved : (Replica.openGame Frontier.frontierScenario board).toOption.bind
      (fun r₀ : Replica _ _ _ Frontier.FrontierView =>
        (film (Replica.turn Frontier.frontierScenario Frontier.buildView) r₀ claiming).map
          fun m => m.2.published.length) = some 2 := by decide +kernel
  obtain ⟨r₀, rs, r, hr, hclaiming, hlen⟩ := film_observed Replica.Step.mk hobserved
  obtain ⟨e₀, e₁, hpublished⟩ := List.length_eq_two.mp hlen
  replace hpublished : r.published = [e₀, e₁] := hpublished
  obtain ⟨j, hjoining, gate, hget, hhanded⟩ := joining_run
  have hbefore : Trace BoardStep { replica := r₀ } (joining.map .relay)
    { replica := r₀, relay := j } :=
    relay_only hjoining (by simp [joining]) { replica := r₀ }
  have hplayed : Trace BoardStep { replica := r₀, relay := j } _ { replica := r, relay := j } :=
    engine_run (Recorded.trace hclaiming) { replica := r₀, relay := j }
  obtain ⟨b₂, harrived, hrelay, hsent⟩ : ∃ b₂ : FBroadcast, Trace BoardStep
      { replica := r₀, relay := j } _ b₂ ∧
      b₂.relay = (j.publish ⟨"s8", e₀⟩).publish ⟨"s8", e₁⟩ ∧ b₂.sent = 2 :=
    ⟨_, (hplayed.snoc (.arrived (by rw [hpublished]; rfl))).snoc
      (.arrived (by rw [hpublished]; rfl)), rfl, rfl⟩
  have hqueue : b₂.relay.queue "a" = [⟨"s8", e₀⟩, ⟨"s8", e₁⟩] := by
    have hplain : ∀ e ∈ [e₀, e₁], '.' ∉ e.type.toList := hpublished ▸
      (airing_run Frontier.no_rules (Registered.type_plain (R := ℚ) .frontier) (by decide)
        (airing_start hr)
        (hbefore.append hplayed)).aired.plain
    have hrouted : ∀ e ∈ [e₀, e₁], Occurrence.routed (.published (⟨"s8", e⟩ : GameMessage _ _)) =
        [⟨"s8", e⟩] :=
      fun e he => if_pos ⟨show '.' ∉ "s8".toList by decide, hplain e he⟩
    have hstart : inbox "a" joining = some [] := rfl
    rw [hrelay, queue_of_bus (linked_run ((hjoining.snoc .published).snoc .published)).bus,
      inbox_snoc, inbox_snoc, hstart]
    simp [fill, hrouted]
  have hget₂ : b₂.relay.gates.get? "a" = some gate := by rw [hrelay]; exact hget
  have hfirst :=
    harrived.snoc (.relay (.handed (m := ⟨"s8", e₀⟩) hget₂ (by rw [hqueue, hhanded]; rfl))
      (by simp))
  have hget₃ : (b₂.relay.dispatch "a" gate ⟨"s8", e₀⟩).gates.get? "a" =
      some { gate with handed := gate.handed + 1 } := by
    rw [get?_dispatch, if_pos rfl]
  have hqueue₃ : (b₂.relay.dispatch "a" gate ⟨"s8", e₀⟩).queue "a" = [⟨"s8", e₀⟩, ⟨"s8", e₁⟩] :=
    hqueue
  have hafter :=
    hfirst.snoc (.relay (.handed (m := ⟨"s8", e₁⟩) hget₃ (by rw [hqueue₃, hhanded]; rfl)) (by simp))
  have hget₄ : ((b₂.relay.dispatch "a" gate ⟨"s8", e₀⟩).dispatch "a"
      { gate with handed := gate.handed + 1 }
      ⟨"s8", e₁⟩).gates.get? "a" = some { gate with handed := 2 } := by
    rw [get?_dispatch, if_pos rfl, hhanded]
  refine ⟨r₀, _, _, _, gate, hr, hbefore, hafter, hget, hget₄, hsent, fun o ho => ?_⟩
  have hbeat : (∃ m, o = .published m) ∨ o = .handed "a" := by
    simp only [occurrences, List.flatMap_append, List.mem_append, List.flatMap_map,
      List.flatMap_singleton, Beat.occurrences, List.mem_flatMap, List.mem_singleton,
      List.not_mem_nil, and_false, exists_false,
      false_or] at ho
    rcases ho with ((ho | ho) | ho) | ho
    exacts [.inl ⟨_, ho⟩, .inl ⟨_, ho⟩, .inr ho, .inr ho]
  rcases hbeat with ⟨m, rfl⟩ | rfl <;> exact fun hleaves => by cases hleaves

/-- The page is sent the first view, and then the claim. -/
theorem heard_exactly_claim : ∃ r₀ after, ∃ b b' : FBroadcast, ∃ gate gate',
    Replica.openGame Frontier.frontierScenario board = .ok r₀ ∧
    Trace BoardStep { replica := r₀ } (joining.map .relay) b ∧ Trace BoardStep b after b' ∧
    b'.sent = 2 ∧ gate'.handed = 2 ∧ Heard "s8" "a" "s1" "p1" b b' gate gate' := by
  obtain ⟨r₀, after, b, b', gate, hr, hbefore, hafter, hget, hget', hsent, hstay⟩ := claim_carried
  have hlabels : socketEvents "a"
      (occurrences "s8" (joining.map (.relay (P := Frontier.FrontierPayload)))) =
      [.connect "s1" (some "p1"), .subscribeGame "s1" "s8"] := rfl
  refine ⟨r₀, after, b, b', gate, { gate with handed := 2 }, hr, hbefore, hafter, hsent, rfl, ?_⟩
  refine heard_exactly (R := ℚ) .frontier (by decide)
    (by decide) hr hbefore hafter hget hget' ?_ ?_ hstay
  · rw [hlabels]
    exact ⟨[], _, _, rfl, rfl, by simp⟩
  · rw [hlabels]
    exact ⟨[_], _, [], rfl, rfl, by simp⟩

end Realtime

end Boardgame
