import Boardgame.Lib.Cascade
import Boardgame.Core.Game

/-!
# Core.Rules

What `RuleEngine.process` does with rules that always return. Its queue is an instance of
`Cascade.drain`, whose handler passes an event to every rule.

* `calls`: the calls that pass a list of events to every rule, in the order they are made.
* `RuleEngine.process_exact`: the closure of an event is returned if it has at most 1000 events;
  otherwise the first 1000 are handled and the call throws.
-/

namespace Boardgame.RuleEngine

variable {X P E : Type}

/-- `events`, one after the other, each to the rules in registration order. -/
def calls (rules : List (Rule X P E)) (events : List (GameEvent E)) :
    List (Rule X P E × GameEvent E) :=
  events.flatMap fun event => rules.map fun rule => (rule, event)

/-- Make the calls and gather what they return. -/
def makeCalls (cs : List (Rule X P E × GameEvent E)) : Exec X P E (List (GameEvent E)) :=
  Eff.collect (fun c => c.1.onEvent c.2) cs

/-- Rules that are functions of the state and the event. -/
def Returning (rules : List (Rule X P E)) : Prop :=
  ∀ rule ∈ rules, ∀ event s, ∃ follow s', (rule.onEvent event).run s = .ok follow s'

/-- `follow` is what `event` brings in all from `s`: passing `event` and then `follow` to the rules
returns exactly `follow`, and none of these is passed on before a call has returned it. -/
structure FollowUps (rules : List (Rule X P E)) (event : GameEvent E) (s : GameState X P E)
    (follow : List (GameEvent E)) (s' : GameState X P E) : Prop where
  returned : (makeCalls (calls rules (event :: follow))).run s = .ok follow s'
  caused : ∀ k < (event :: follow).length, ∃ got s₁,
    (makeCalls (calls rules ((event :: follow).take k))).run s = .ok got s₁ ∧ k ≤ got.length

section

variable {rules : List (Rule X P E)} {event : GameEvent E} {s s' : GameState X P E}
  {out : List (GameEvent E)}

theorem loop_eq (rules : List (Rule X P E)) : ∀ (safety : Nat) (queue out : List (GameEvent E)),
    loop rules safety queue out = Cascade.drain (handle rules)
      ⟨"Rule engine cycle limit exceeded"⟩ safety queue out := by
  intro safety
  induction safety with
  | zero => intro queue out; cases queue <;> rfl
  | succ safety ih =>
    intro queue out
    cases queue with
    | nil => rfl
    | cons next queue => simp only [loop, Cascade.drain, ih]

theorem handle_calls (rules : List (Rule X P E)) (event : GameEvent E) :
    handle rules event = makeCalls (rules.map fun rule => (rule, event)) := by
  induction rules with
  | nil => rfl
  | cons rule rules ih =>
    have hcons : handle (rule :: rules) event = (do
        let follow ← rule.onEvent event
        let rest ← handle rules event
        return follow ++ rest) := rfl
    rw [hcons, ih]
    rfl

theorem collect_handle (events : List (GameEvent E)) :
    (Eff.collect (handle rules) events).run s = .ok out s' ↔
    (makeCalls (calls rules events)).run s = .ok out s' := by
  induction events generalizing s out with
  | nil => exact Iff.rfl
  | cons event events ih =>
    have hcalls : calls rules (event :: events) = rules.map (fun rule => (rule, event)) ++
        calls rules events :=
      List.flatMap_cons
    rw [Eff.collect, hcalls, makeCalls, Eff.collect_append_ok, Eff.bind_eq_ok, handle_calls]
    refine exists_congr fun follow => exists_congr fun s₁ => ?_
    rw [Eff.bind_eq_ok]
    constructor
    · rintro ⟨hfollow, rest, s₂, hrest, hpure⟩
      cases hpure
      exact ⟨rest, hfollow, ih.mp hrest, rfl⟩
    · rintro ⟨rest, hfollow, hrest, rfl⟩
      exact ⟨hfollow, rest, s', ih.mpr hrest, rfl⟩

theorem handle_returns (hr : Returning rules) (event : GameEvent E) (s : GameState X P E) :
    ∃ follow s', (handle rules event).run s = .ok follow s' := by
  induction rules generalizing s with
  | nil => exact ⟨[], s, rfl⟩
  | cons rule rules ih =>
    obtain ⟨follow, s₁, hfollow⟩ := hr rule List.mem_cons_self event s
    obtain ⟨rest, s₂, hrest⟩ := ih (fun rule' h => hr rule' (List.mem_cons_of_mem _ h)) s₁
    refine ⟨follow ++ rest, s₂, ?_⟩
    have hrest' : (Eff.collect (fun rule => rule.onEvent event) rules).run s₁ = .ok rest s₂ := hrest
    rw [handle, Eff.collect, Eff.bind_ok hfollow, Eff.bind_ok hrest']
    rfl

theorem followUps_iff : FollowUps rules event s out s' ↔
    Cascade.Closure (handle rules) event s out s' := by
  constructor
  · rintro ⟨hreturned, hcaused⟩
    refine ⟨(collect_handle _).mpr hreturned, fun k hk => ?_⟩
    obtain ⟨got, s₁, hgot, hle⟩ := hcaused k hk
    exact ⟨got, s₁, (collect_handle _).mpr hgot, hle⟩
  · rintro ⟨hpassed, hcaused⟩
    refine ⟨(collect_handle _).mp hpassed, fun k hk => ?_⟩
    obtain ⟨got, s₁, hgot, hle⟩ := hcaused k hk
    exact ⟨got, s₁, (collect_handle _).mp hgot, hle⟩

/-- If every call adds its own entry to a log, the log shows the calls that were made. -/
theorem log_calls {A : Type} {note : Rule X P E → GameEvent E → A} {log : GameState X P E → List A}
    (hlog : ∀ rule ∈ rules, ∀ event s follow s', (rule.onEvent event).run s = .ok follow s' →
      log s' = log s ++ [note rule event])
    {cs : List (Rule X P E × GameEvent E)} (hcs : ∀ c ∈ cs, c.1 ∈ rules)
    (h : (makeCalls cs).run s = .ok out s') :
    log s' = log s ++ cs.map fun c => note c.1 c.2 := by
  induction cs generalizing s out with
  | nil =>
    cases h
    exact (List.append_nil _).symm
  | cons c cs ih =>
    rw [makeCalls, Eff.collect, Eff.bind_eq_ok] at h
    obtain ⟨follow, s₁, hfollow, h⟩ := h
    obtain ⟨rest, s₂, hrest, hpure⟩ := Eff.bind_eq_ok.mp h
    cases hpure
    rw [ih (fun c' h => hcs c' (List.mem_cons_of_mem _ h)) hrest,
      hlog c.1 (hcs c List.mem_cons_self) c.2 s _ s₁ hfollow, List.append_assoc]
    rfl

theorem mem_calls {events : List (GameEvent E)} {c : Rule X P E × GameEvent E}
    (h : c ∈ calls rules events) :
    c.1 ∈ rules := by
  obtain ⟨event, -, hc⟩ := List.mem_flatMap.mp h
  obtain ⟨rule, hrule, rfl⟩ := List.mem_map.mp hc
  exact hrule

/-- **Processing is exact and bounded.** With rules that always return, `process` returns the
follow-ups of the event if these and the event are at most 1000, having passed every one of them to
every rule once; it throws if they are more, having passed on the first 1000. -/
theorem process_exact (hr : Returning rules) (event : GameEvent E) (s : GameState X P E) :
    (∀ out s', (process rules event).run s = .ok out s' ↔
      FollowUps rules event s out s' ∧ (event :: out).length ≤ 1000) ∧
    ((∃ err s', (process rules event).run s = .error err s') ↔
      ∀ out s', FollowUps rules event s out s' → 1000 < (event :: out).length) ∧
    (∀ err s', (process rules event).run s = .error err s' →
      err = ⟨"Rule engine cycle limit exceeded"⟩ ∧
      ∃ events got queue, events.length = 1000 ∧ queue ≠ [] ∧ event :: got = events ++ queue ∧
        (makeCalls (calls rules events)).run s = .ok got s') ∧
    ∀ {A : Type} (note : Rule X P E → GameEvent E → A) (log : GameState X P E → List A),
      (∀ rule ∈ rules, ∀ event s follow s', (rule.onEvent event).run s = .ok follow s' →
        log s' = log s ++ [note rule event]) →
      (∀ out s', (process rules event).run s = .ok out s' →
        log s' = log s ++ (calls rules (event :: out)).map fun c => note c.1 c.2) ∧
      ∀ err s', (process rules event).run s = .error err s' → ∃ events, events.length = 1000 ∧
        log s' = log s ++ (calls rules events).map fun c => note c.1 c.2 := by
  have ht : ∀ event s, ∃ follow s', (handle rules event).run s = .ok follow s' := handle_returns hr
  have hreturns : ∀ out s', (process rules event).run s = .ok out s' ↔
      FollowUps rules event s out s' ∧ (event :: out).length ≤ 1000 := fun out s' => by
    rw [process, loop_eq, Cascade.drain_returns ht, followUps_iff]
  have hstopped : ∀ err s', (process rules event).run s = .error err s' →
      err = ⟨"Rule engine cycle limit exceeded"⟩ ∧ ∃ events got queue, events.length = 1000 ∧
        queue ≠ [] ∧
        event :: got = events ++ queue ∧ (makeCalls (calls rules events)).run s = .ok got s' :=
        fun err s' hrun => by
    rw [process, loop_eq] at hrun
    obtain ⟨herr, events, got, queue, hlen, hqueue, hreached⟩ := Cascade.drain_stopped ht hrun
    exact ⟨herr, events, got, queue, hlen, hqueue, hreached.pending,
      (collect_handle _).mp hreached.passed⟩
  refine ⟨hreturns, ?_, hstopped, fun {A} note log hlog =>
    ⟨fun out s' hrun => ?_, fun err s' hrun => ?_⟩⟩
  · rw [process, loop_eq, Cascade.drain_throws ht]
    exact forall_congr' fun out => forall_congr' fun s' => imp_congr followUps_iff.symm Iff.rfl
  · exact log_calls hlog (fun c => mem_calls) ((hreturns out s').mp hrun).1.returned
  · obtain ⟨-, events, got, queue, hlen, -, -, hcalls⟩ := hstopped err s' hrun
    exact ⟨events, hlen, log_calls hlog (fun c => mem_calls) hcalls⟩

end

/-- Repeats an event as often as the state says. -/
def echo : Rule Nat Unit Unit where
  id := "echo"
  onEvent event := modifyGet fun s =>
    (if s.extras = 0 then [] else [event], { s with extras := s.extras - 1 })

/-- A game without players in which an event is to be repeated `n` times. -/
def repeating (n : Nat) : GameState Nat Unit Unit where
  gameId := ""
  scenarioId := ""
  status := .playing
  map := ⟨∅⟩
  players := ⟨[]⟩
  inventories := ∅
  pieces := ∅
  rounds := ⟨1, ⟨1, "", "", ∅⟩, .clockwise, []⟩
  rng := ⟨1⟩
  history := []
  extras := n

theorem echo_run (event : GameEvent Unit) (n : Nat) : (echo.onEvent event).run (repeating n) =
    .ok (if n = 0 then [] else [event]) (repeating (n - 1)) := rfl

theorem handle_echo (event : GameEvent Unit) (n : Nat) : (handle [echo] event).run (repeating n) =
    .ok (if n = 0 then [] else [event]) (repeating (n - 1)) := by
  rw [handle, Eff.collect, Eff.bind_ok (echo_run event n)]
  exact congrArg (EStateM.Result.ok · _) (List.append_nil _)

/-- One repetition. -/
theorem process_exact_echo :
    let ping : GameEvent Unit := { body := .scenario () }
    FollowUps [echo] ping (repeating 1) [ping] (repeating 0) := by
  intro ping
  have hreturns : Returning [echo] := fun rule hrule event s => by
    rw [List.mem_singleton.mp hrule]
    exact ⟨_, _, rfl⟩
  have hrun : (process [echo] ping).run (repeating 1) = .ok [ping] (repeating 0) := by
    rw [process, loop, Eff.bind_ok (handle_echo ping 1)]
    exact Eff.bind_ok (handle_echo ping 0)
  exact (((process_exact hreturns ping (repeating 1)).1 _ _).mp hrun).1

end Boardgame.RuleEngine
