import Boardgame.Engine.Concurrent
import Boardgame.Lib.Broker

/-!
# Engine.Fleet

Engine replicas on the shared queue `engine-commands` (`game-runner.service.ts`, `consumer.ts`): the
broker hands each message to one of them, which submits its command if it holds the game. Of the
broker all results here assume what `Lib.Broker` says.

* `submitted_iff`: a message that is gone was submitted, once, if and only if the replica it was
  handed to held its game.
* `command_lost`: a command of a held game, handed to another replica.
-/

namespace Boardgame.Engine

/-- A message of the queue; `payload` is what its payload is to the scenario of a game. -/
structure CommandMessage where
  number : Nat
  gameId : String
  userId : PlayerId
  payload : (id : Registered) → id.Payload
  clientSeq : Option Nat := none

def CommandMessage.command (msg : CommandMessage) (id : Registered) : Command id.Payload :=
  { userId := msg.userId, payload := msg.payload id, clientSeq := msg.clientSeq }

/-! ## The consumer -/

inductive Outcome where
  | returned
  | threw
  deriving DecidableEq

/-- `BusConsumer.subscribe`: a message whose handler throws is refused for good. -/
def settlement : Outcome → Settlement
  | .returned => .ack
  | .threw => .nack false

/-- How `handleCommand` ends, after a first stretch that was `m`. -/
def outcome {P E : Type} : Moment P E → Outcome
  | .called (.submit _ (.ok _)) => .returned
  | _ => .threw

/-! ## The fleet -/

variable (R : Type)

/-- A game on a replica. -/
structure Hosted where
  id : Registered
  replica : Replica id.Extras id.Payload (id.Event R) id.View

structure Fleet (I : Type) where
  /-- The games a replica has created, and of which it may still run handlers. -/
  games : I → String → Option (Hosted R) := fun _ _ => none
  commands : Broker CommandMessage := {}
  /-- The messages whose commands have been submitted to a game, and by whom. -/
  submitted : List (Nat × I) := []
  sent : Nat := 0

inductive FleetInput (I : Type) where
  | createGame (i : I) (id : Registered) (gameId : String) (players : List (PlayerId × String))
  | publish (gameId : String) (userId : PlayerId) (payload : (id : Registered) → id.Payload)
      (clientSeq : Option Nat)
  | deliver (i : I) (k : Nat)
  | settle (k : Nat)
  | complete (i : I) (gameId : String)
  | resume (i : I) (gameId : String)

inductive FleetMoment (I : Type) where
  | created
  | published (msg : CommandMessage)
  | handed (i : I) (msg : CommandMessage)
  | settled (msg : CommandMessage)
  | moved

variable {R} {I : Type} [DecidableEq I]

namespace Fleet

/-- The replica has the game in its `games` map. -/
def holds (f : Fleet R I) (i : I) (gameId : String) : Bool :=
  (f.games i gameId).any (·.replica.held)

def put (i : I) (gameId : String) (game : Hosted R) (f : Fleet R I) : Fleet R I :=
  { f with
    games := fun i' gameId' => if i' = i ∧ gameId' = gameId then some game else f.games i' gameId' }

variable [Strength R]

def createGame (i : I) (id : Registered) (gameId : String) (players : List (PlayerId × String))
    (f : Fleet R I) :
    Fleet R I :=
  match Replica.openGame (id.scenario R) (startingOptions gameId players) with
  | .error _ => f
  | .ok replica => f.put i gameId { id, replica }

/-- The handler of a message, to its first `await`; the end of the message is decided by then. -/
def handle (i : I) (msg : CommandMessage) (f : Fleet R I) : Outcome × Fleet R I :=
  match f.games i msg.gameId with
  | none => (.threw, f)
  | some game =>
    let (m, replica) := game.replica.handleCommand (game.id.scenario R) (msg.command game.id)
    let f := f.put i msg.gameId { id := game.id, replica }
    (outcome m,
      if m.call?.isSome then { f with submitted := f.submitted ++ [(msg.number, i)] } else f)

/-- Another stretch of a game of the replica, that is not a new command. -/
def move (i : I) (gameId : String)
    (stretch : (game : Hosted R) →
      Option (Replica game.id.Extras game.id.Payload (game.id.Event R) game.id.View))
    (f : Fleet R I) : Option (FleetMoment I × Fleet R I) :=
  (f.games i gameId).bind fun game =>
    (stretch game).map fun replica => (.moved, f.put i gameId { id := game.id, replica })

def turn (f : Fleet R I) : FleetInput I → Option (FleetMoment I × Fleet R I)
  | .createGame i id gameId players => some (.created, f.createGame i id gameId players)
  | .publish gameId userId payload clientSeq =>
    let msg := { number := f.sent, gameId, userId, payload, clientSeq }
    some (.published msg, { f with commands := f.commands.publish msg, sent := f.sent + 1 })
  | .deliver i k =>
    (f.commands.take k).map fun (msg, commands) =>
      let (result, f) := { f with commands }.handle i msg
      (.handed i msg, { f with commands := f.commands.hold msg (settlement result) })
  | .settle k => (f.commands.settle k).map fun (msg, commands) =>
      (.settled msg, { f with commands })
  | .complete i gameId =>
    f.move i gameId fun game =>
      (game.replica.turn (game.id.scenario R) (game.id.buildView R) .complete).map Prod.snd
  | .resume i gameId =>
    f.move i gameId fun game =>
      (game.replica.turn (game.id.scenario R) (game.id.buildView R) .resume).map Prod.snd

inductive Step (f : Fleet R I) (m : FleetMoment I) (f' : Fleet R I) : Prop where
  | mk {i : FleetInput I} : f.turn i = some (m, f') → Step f m f'

end Fleet

/-! ## What a step does to the messages -/

variable [Strength R]

theorem settlement_final (o : Outcome) : settlement o ≠ .nack true := by
  cases o <;> decide

theorem handleCommand_call {X P E V : Type} [HasType P] [HasType E] (sc : Scenario X P E)
    (c : Command P) (r : Replica X P E V) : (r.handleCommand sc c).1.call?.isSome = r.held := by
  unfold Replica.handleCommand
  split
  · rename_i h
    rw [h]
    rfl
  · rename_i h
    rw [Bool.not_eq_true] at h
    rw [h]
    rfl

/-- A replica submits the command of a message if it holds the game, and only then. -/
theorem handle_submits (i : I) (msg : CommandMessage) (f : Fleet R I) :
    (f.handle i msg).2.commands = f.commands ∧ (f.handle i msg).2.sent = f.sent ∧
      (f.handle i msg).2.submitted = f.submitted ++
        if f.holds i msg.gameId then [(msg.number, i)] else [] := by
  unfold Fleet.handle Fleet.holds
  cases f.games i msg.gameId with
  | none => simp
  | some game =>
    have hcall := handleCommand_call (game.id.scenario R) (msg.command game.id) game.replica
    dsimp only
    rw [hcall, Option.any_some]
    cases game.replica.held with
    | true => exact ⟨rfl, rfl, rfl⟩
    | false => exact ⟨rfl, rfl, (List.append_nil _).symm⟩

/-- A step, as far as the messages go. -/
inductive Shift (f : Fleet R I) : FleetMoment I → Fleet R I → Prop where
  | idle {m : FleetMoment I} {f' : Fleet R I} :
      (∀ i msg, m ≠ .handed i msg) → f'.commands = f.commands → f'.submitted = f.submitted →
      f'.sent = f.sent →
      Shift f m f'
  | published {msg : CommandMessage} :
      msg.number = f.sent →
      Shift f (.published msg) { f with commands := f.commands.publish msg, sent := f.sent + 1 }
  | handed {i : I} {k : Nat} {msg : CommandMessage} {commands : Broker CommandMessage}
      {s : Settlement}
      {f' : Fleet R I} :
      f.commands.take k = some (msg, commands) → s ≠ .nack true →
      f'.commands = commands.hold msg s →
      f'.submitted = (f.submitted ++ if f.holds i msg.gameId then [(msg.number, i)] else []) →
      f'.sent = f.sent →
      Shift f (.handed i msg) f'
  | settled {k : Nat} {msg : CommandMessage} {commands : Broker CommandMessage} :
      f.commands.settle k = some (msg, commands) → Shift f (.settled msg) { f with commands }

omit [Strength R] in
theorem move_shift {f f' : Fleet R I} {m : FleetMoment I} {i : I} {gameId : String}
    {stretch : (game : Hosted R) →
      Option (Replica game.id.Extras game.id.Payload (game.id.Event R) game.id.View)}
    (h : f.move i gameId stretch = some (m, f')) : Shift f m f' := by
  obtain ⟨game, -, h⟩ := Option.bind_eq_some_iff.mp h
  obtain ⟨replica, -, h⟩ := Option.map_eq_some_iff.mp h
  cases h
  exact .idle nofun rfl rfl rfl

theorem step_shift {f f' : Fleet R I} {m : FleetMoment I} (h : Fleet.Step f m f') :
    Shift f m f' := by
  obtain ⟨hturn⟩ := h
  rename_i input
  cases input with
  | createGame i id gameId players =>
    cases hturn
    unfold Fleet.createGame
    split
    · exact .idle nofun rfl rfl rfl
    · exact .idle nofun rfl rfl rfl
  | publish =>
    cases hturn
    exact .published rfl
  | deliver i k =>
    obtain ⟨⟨msg, commands⟩, htake, heq⟩ := Option.map_eq_some_iff.mp hturn
    cases heq
    obtain ⟨hcommands, hsent, hsubmitted⟩ := handle_submits i msg { f with commands }
    exact .handed htake (settlement_final _) (congrArg (Broker.hold msg _) hcommands)
      hsubmitted hsent
  | settle k =>
    obtain ⟨⟨msg, commands⟩, hsettle, heq⟩ := Option.map_eq_some_iff.mp hturn
    cases heq
    exact .settled hsettle
  | complete => exact move_shift hturn
  | resume => exact move_shift hturn

/-! ## Runs -/

/-- How often a message has been submitted. -/
def Fleet.submissions (f : Fleet R I) (n : Nat) : Nat := f.submitted.countP (·.1 = n)

/-- The record is that of handing over the message `n`. -/
def hands (n : Nat) (rec : Record (Fleet R I) (FleetMoment I)) : Bool :=
  match rec.label with
  | .handed _ msg => msg.number = n
  | _ => false

/-- A message that the record hands over goes to a replica that holds its game. -/
def reaches (rec : Record (Fleet R I) (FleetMoment I)) : Bool :=
  match rec.label with
  | .handed i msg => rec.before.holds i msg.gameId
  | _ => true

/-- The messages are told apart, each that is out has been handed over once, and what has been
submitted is what has reached its game. -/
structure Counted (rs : List (Record (Fleet R I) (FleetMoment I))) (f : Fleet R I) : Prop where
  fresh : ((f.commands.queue ++ f.commands.handed).map CommandMessage.number).Nodup
  bound : ∀ msg ∈ f.commands.queue ++ f.commands.handed, msg.number < f.sent
  final : f.commands.Final
  handed : ∀ n, rs.countP (hands n) = (f.commands.handed.map CommandMessage.number).count n
  submitted : ∀ n, f.submissions n = rs.countP fun rec => hands n rec && reaches rec

omit [Strength R] [DecidableEq I] in
theorem hands_idle {f f' : Fleet R I} {m : FleetMoment I} (h : ∀ i msg, m ≠ .handed i msg)
    (n : Nat) :
    hands n ⟨f, m, f'⟩ = false := by
  cases m with
  | handed i msg => exact absurd rfl (h i msg)
  | _ => rfl

omit [Strength R] [DecidableEq I] in
/-- A step that hands nothing over, and leaves what is out the same. -/
theorem Counted.unhanded {rs : List (Record (Fleet R I) (FleetMoment I))} {f f' : Fleet R I}
    {m : FleetMoment I} (h : Counted rs f) (hm : ∀ i msg, m ≠ .handed i msg)
    (hfresh : ((f'.commands.queue ++ f'.commands.handed).map CommandMessage.number).Nodup)
    (hbound : ∀ msg ∈ f'.commands.queue ++ f'.commands.handed, msg.number < f'.sent)
    (hfinal : f'.commands.Final) (hhanded : f'.commands.handed.Perm f.commands.handed)
    (hsubmitted : f'.submitted = f.submitted) :
    Counted (rs ++ [⟨f, m, f'⟩]) f' := by
  have hsame : ∀ {p : Record (Fleet R I) (FleetMoment I) → Bool}, p ⟨f, m, f'⟩ = false →
      (rs ++ [(⟨f, m, f'⟩ : Record (Fleet R I) (FleetMoment I))]).countP p = rs.countP p := by
    intro p hp
    simp [hp]
  refine ⟨hfresh, hbound, hfinal, fun n => ?_, fun n => ?_⟩
  · rw [hsame (hands_idle hm n), h.handed, (hhanded.map CommandMessage.number).count_eq]
  · have hnot : (hands n ⟨f, m, f'⟩ && reaches ⟨f, m, f'⟩) = false := by
      rw [hands_idle hm n, Bool.false_and]
    rw [hsame hnot, ← h.submitted, Fleet.submissions, hsubmitted]
    rfl

omit [Strength R] [DecidableEq I] in
theorem counted_step {rs : List (Record (Fleet R I) (FleetMoment I))} {f f' : Fleet R I}
    {m : FleetMoment I} (h : Counted rs f) (hshift : Shift f m f') :
    Counted (rs ++ [⟨f, m, f'⟩]) f' := by
  cases hshift with
  | idle hm hcommands hsubmitted hsent =>
    refine h.unhanded hm ?_ ?_ ?_ ?_ hsubmitted
    · rw [hcommands]
      exact h.fresh
    · rw [hcommands, hsent]
      exact h.bound
    · rw [hcommands]
      exact h.final
    · rw [hcommands]
  | @published msg hnumber =>
    have hcontents : (f.commands.publish msg).queue ++ (f.commands.publish msg).handed =
        f.commands.queue ++ msg :: f.commands.handed := List.append_assoc _ _ _
    have hperm : (f.commands.queue ++ msg :: f.commands.handed).Perm
        (msg :: (f.commands.queue ++ f.commands.handed)) :=
      List.perm_middle
    refine h.unhanded nofun ?_ ?_ h.final (.refl _) rfl
    · rw [hcontents, (hperm.map CommandMessage.number).nodup_iff, List.map_cons, List.nodup_cons]
      refine ⟨fun hin => ?_, h.fresh⟩
      obtain ⟨msg', hmsg', heq⟩ := List.mem_map.mp hin
      have hlt := h.bound msg' hmsg'
      omega
    · intro msg' hmsg'
      rw [hcontents, hperm.mem_iff, List.mem_cons] at hmsg'
      rcases hmsg' with rfl | hmsg'
      · exact hnumber ▸ Nat.lt_succ_self _
      · exact Nat.lt_succ_of_lt (h.bound msg' hmsg')
  | @settled k msg commands hsettle =>
    obtain ⟨hperm, hqueue, hfinal⟩ := Broker.settle_handed h.final hsettle
    have hcontents : (commands.queue ++ commands.handed).Perm
        (f.commands.queue ++ f.commands.handed) := by
      rw [hqueue]
      exact hperm.append_left _
    refine h.unhanded nofun ?_ (fun msg' hmsg' => h.bound msg' (hcontents.mem_iff.mp hmsg'))
      hfinal hperm rfl
    rw [(hcontents.map CommandMessage.number).nodup_iff]
    exact h.fresh
  | @handed i k msg commands s f' htake hs hcommands hsubmitted hsent =>
    obtain ⟨hqueue, hunacked, hremoved⟩ := Broker.take_queue htake
    have hout : commands.handed = f.commands.handed := by
      rw [Broker.handed, Broker.handed, hunacked, hremoved]
    have hhanded : f'.commands.handed.Perm (msg :: f.commands.handed) := by
      rw [hcommands, ← hout]
      exact Broker.handed_hold s
    have hcontents : (f'.commands.queue ++ f'.commands.handed).Perm
        (f.commands.queue ++ f.commands.handed) := by
      have hqueue' : f'.commands.queue = commands.queue := by rw [hcommands]; rfl
      rw [hqueue']
      calc commands.queue ++ f'.commands.handed
        _ |>.Perm (commands.queue ++ msg :: f.commands.handed) := hhanded.append_left _
        _ |>.Perm (msg :: (commands.queue ++ f.commands.handed)) := List.perm_middle
        _ |>.Perm (f.commands.queue ++ f.commands.handed) := (hqueue.append_right _).symm
    refine ⟨?_, ?_, ?_, fun n => ?_, fun n => ?_⟩
    · rw [(hcontents.map CommandMessage.number).nodup_iff]
      exact h.fresh
    · intro msg' hmsg'
      rw [hsent]
      exact h.bound msg' (hcontents.mem_iff.mp hmsg')
    · rw [hcommands]
      refine Broker.final_hold (fun held hheld => ?_) hs
      exact h.final held (hunacked ▸ hheld)
    · rw [List.countP_append, h.handed, (hhanded.map CommandMessage.number).count_eq, List.map_cons,
        List.count_cons]
      simp [hands]
    · rw [List.countP_append, ← h.submitted, Fleet.submissions, hsubmitted, List.countP_append,
        Fleet.submissions]
      refine congrArg (f.submitted.countP _ + ·) ?_
      by_cases hholds : f.holds i msg.gameId = true
      · simp [hands, reaches, hholds]
      · simp [hands, reaches, hholds]

/-- **What becomes of a command.** In every run of any number of replicas, however the broker hands
the messages out: no message is submitted twice, and one that is gone from the queue and from the
consumers has been submitted if and only if the replica it was handed to held its game at that
moment. -/
theorem submitted_iff {rs : List (Record (Fleet R I) (FleetMoment I))} {f : Fleet R I}
    (h : Trace (Recorded Fleet.Step) {} rs f) :
    (∀ n, f.submissions n ≤ 1) ∧
      ∀ msg ∈ f.commands.removed,
        (f.submissions msg.number = 1 ↔ ∀ rec ∈ rs, hands msg.number rec = true →
          reaches rec = true) := by
  have hcounted : Counted rs f := by
    refine h.inv_labels (I := Counted) (fun pre s rec t hI hrec => ?_) [] ?_
    · obtain ⟨rfl, rfl, hstep⟩ := Recorded.step_of hrec
      exact counted_step hI (step_shift hstep)
    · exact ⟨List.nodup_nil, by simp [Broker.handed], by simp [Broker.Final], fun n => rfl,
        fun n => rfl⟩
  have hle : ∀ n, rs.countP (fun rec => hands n rec && reaches rec) ≤ rs.countP (hands n) :=
    fun n =>
    List.countP_mono_left fun rec _ hrec => (Bool.and_eq_true_iff.mp hrec).1
  have hout : (f.commands.handed.map CommandMessage.number).Nodup := by
    refine List.Nodup.sublist ?_ hcounted.fresh
    rw [List.map_append]
    exact List.sublist_append_right _ _
  refine ⟨fun n => ?_, fun msg hmsg => ?_⟩
  · rw [hcounted.submitted]
    refine (hle n).trans ?_
    rw [hcounted.handed]
    exact List.nodup_iff_count_le_one.mp hout n
  · have hone : rs.countP (hands msg.number) = 1 := by
      rw [hcounted.handed]
      refine List.count_eq_one_of_mem hout (List.mem_map_of_mem ?_)
      exact List.mem_append_right _ hmsg
    have hreach : rs.countP (fun rec => hands msg.number rec && reaches rec) =
        (rs.filter (hands msg.number)).countP reaches := by
      rw [List.countP_filter]
      exact List.countP_congr fun rec _ => by rw [Bool.and_comm]
    rw [hcounted.submitted, ← hone, hreach, List.countP_eq_length_filter (p := hands msg.number),
      List.countP_eq_length]
    simp only [List.mem_filter, and_imp]

/-! ## Two replicas -/

def endTurn : (id : Registered) → id.Payload
  | .frontier => .endTurn
  | .kingdoms => .endTurn

/-- Replica `0` creates a game, and the first command for it is handed to replica `i`. -/
def firstCommand (i : Nat) : List (FleetInput Nat) :=
  [.createGame 0 .frontier "s8" [("p1", "Ada"), ("p2", "Bo")], .publish "s8" "p1" endTurn none,
    .deliver i 0, .settle 0]

/-- Handed to replica `0`, it is submitted. -/
theorem command_submitted : ∃ (rs : List (Record (Fleet ℚ Nat) (FleetMoment Nat))) (f : Fleet ℚ Nat)
    (msg : CommandMessage), Trace (Recorded Fleet.Step) {} rs f ∧ msg ∈ f.commands.removed ∧
      f.submissions msg.number = 1 := by
  have hobserved : (film Fleet.turn ({} : Fleet ℚ Nat) (firstCommand 0)).map (fun m =>
      (m.2.commands.removed.map CommandMessage.number, m.1.all reaches)) = some ([0], true) := by
        decide +kernel
  obtain ⟨⟨rs, f⟩, hfilm, hx⟩ := Option.map_eq_some_iff.mp hobserved
  obtain ⟨hremoved, hreach⟩ := Prod.mk.inj hx
  have htrace : Trace (Recorded Fleet.Step) {} rs f := film_trace (fun hturn => .mk hturn) hfilm
  obtain ⟨msg, hmsg, -⟩ := List.mem_map.mp (show 0 ∈ f.commands.removed.map CommandMessage.number by
    rw [hremoved]
    exact List.mem_singleton_self 0)
  exact ⟨rs, f, msg, htrace, hmsg,
    ((submitted_iff htrace).2 msg hmsg).mpr fun rec hrec _ => List.all_eq_true.mp hreach rec hrec⟩

/-- Handed to replica `1`, it is gone without having been submitted, while replica `0` holds the
game. -/
theorem command_lost : ∃ (rs : List (Record (Fleet ℚ Nat) (FleetMoment Nat))) (f : Fleet ℚ Nat)
    (msg : CommandMessage), Trace (Recorded Fleet.Step) {} rs f ∧ msg ∈ f.commands.removed ∧
      f.submissions msg.number = 0 ∧ f.holds 0 msg.gameId = true ∧
      ∀ rec ∈ rs.tail, rec.before.holds 0 msg.gameId = true := by
  have hobserved : (film Fleet.turn ({} : Fleet ℚ Nat) (firstCommand 1)).map (fun m =>
      (m.2.commands.removed.map (fun msg => (msg.number, msg.gameId)), m.2.submissions 0,
        m.2.holds 0 "s8",
        m.1.tail.all fun rec => rec.before.holds 0 "s8")) = some ([(0, "s8")], 0, true, true) := by
          decide +kernel
  obtain ⟨⟨rs, f⟩, hfilm, hx⟩ := Option.map_eq_some_iff.mp hobserved
  simp only [Prod.mk.injEq] at hx
  obtain ⟨hremoved, hnone, hholds, hall⟩ := hx
  have hin : (0, "s8") ∈ f.commands.removed.map fun msg => (msg.number, msg.gameId) := by
    rw [hremoved]
    exact List.mem_singleton_self _
  obtain ⟨msg, hmsg, heq⟩ := List.mem_map.mp hin
  obtain ⟨hnumber, hgame⟩ := Prod.mk.inj heq
  refine ⟨rs, f, msg, film_trace (fun hturn => .mk hturn) hfilm, hmsg, hnumber ▸ hnone,
    hgame ▸ hholds, ?_⟩
  rw [hgame]
  exact List.all_eq_true.mp hall

end Boardgame.Engine
