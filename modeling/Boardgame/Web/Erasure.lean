import Boardgame.Web.Session

/-!
# Web.Erasure

A session whose views carry more than its page sees. `mapView f` takes the rest off; nothing a
session does depends on it.

* `step_mapView`: a session makes the steps it makes with more in its views.
* `step_lifts`, `trace_lifts`: it makes no other steps.
-/

namespace Boardgame

variable {X P E V W : Type}

namespace Engine

def GameBusEvent.mapView (f : V → W) (msg : GameBusEvent V E) : GameBusEvent W E :=
  { seq := msg.seq
    type := msg.type
    payload :=
      match msg.payload with
      | .started view => .started (f view)
      | .event body => .event body
      | .error error => .error error
    playerId := msg.playerId
    privateTo := msg.privateTo }

def Write.mapView (f : V → W) : Write X P E V → Write X P E W
  | .save state => .save state
  | .saveView view => .saveView (f view)

def Await.mapView (f : V → W) : Await V → Await W
  | .save victory => .save victory
  | .saveView victory => .saveView victory
  | .create players => .create players
  | .start view => .start (f view)

def GameStore.mapView (f : V → W) (store : GameStore X P E V) : GameStore X P E W :=
  { state := store.state, view := store.view.map f }

def Replica.mapView (f : V → W) (r : Replica X P E V) : Replica X P E W :=
  { held := r.held
    inst := r.inst
    published := r.published.map (GameBusEvent.mapView f)
    store := r.store.map (GameStore.mapView f) (Write.mapView f) (Await.mapView f) }

variable {f : V → W}

theorem busEvent_mapView [HasType E] (events : List (GameEvent E)) :
    (events.map busEvent).map (GameBusEvent.mapView f) = events.map busEvent := by
  rw [List.map_map]
  rfl

theorem perform_mapView (store : GameStore X P E V) (w : Write X P E V) :
    (store.mapView f).perform (w.mapView f) = (store.perform w).mapView f := by
  cases w <;> rfl

theorem publish_mapView (msg : GameBusEvent V E) (r : Replica X P E V) :
    (r.publish msg).mapView f = (r.mapView f).publish (msg.mapView f) := by
  simp [Replica.publish, Replica.mapView]

theorem issue_mapView (w : Write X P E V) (k : Await V) (r : Replica X P E V) :
    (r.issue w k).mapView f = (r.mapView f).issue (w.mapView f) (k.mapView f) := by
  simp [Replica.issue, Replica.mapView, Outbox.issue_map]

theorem flushEvents_mapView [HasType E] (r : Replica X P E V) :
    r.flushEvents.mapView f = (r.mapView f).flushEvents := by
  simp only [Replica.flushEvents, Replica.mapView, List.map_append, busEvent_mapView]

theorem openGame_mapView (f : V → W) (sc : Scenario X P E) (opts : GameSetupOptions) :
    (Replica.openGame sc opts : Except JsError (Replica X P E V)).map (Replica.mapView f) =
      Replica.openGame sc opts := by
  unfold Replica.openGame
  cases createGameState sc opts <;> rfl

variable [HasType P] [HasType E] {sc : Scenario X P E}
  {buildV : GameState X P E → List Player → Option VictoryResult → V}
  {buildW : GameState X P E → List Player → Option VictoryResult → W}

theorem handleCommand_mapView (r : Replica X P E V) (c : Command P) :
    (r.mapView f).handleCommand sc c = Prod.map id (Replica.mapView f) (r.handleCommand sc c) := by
  obtain ⟨held, inst, published, store⟩ := r
  unfold Replica.handleCommand
  cases held with
  | false => rfl
  | true =>
    simp only [Replica.mapView, if_true]
    generalize GameInstance.submit sc c.action inst = next
    obtain ⟨call, inst'⟩ := next
    match call with
    | .start => rfl
    | .submit _ (.error _) => rfl
    | .submit _ (.ok (.error error)) =>
      simp only [Prod.map, publish_mapView]
      rfl
    | .submit _ (.ok (.ok events)) =>
      simp only [Prod.map, issue_mapView, flushEvents_mapView]
      rfl

omit [HasType P] in
theorem resume_mapView (hbuild : ∀ s players victory, buildW s players victory =
    f (buildV s players victory))
    (r : Replica X P E V) : (r.mapView f).resume buildW =
      (r.resume buildV).map (Replica.mapView f) := by
  have hnext : (r.mapView f).store.next = r.store.next.map (Prod.map (Await.mapView f)
      (Outbox.map (GameStore.mapView f) (Write.mapView f) (Await.mapView f))) := Outbox.next_map
  unfold Replica.resume
  rw [hnext]
  match r.store.next with
  | none => rfl
  | some (.save victory, store) =>
    simp only [Option.map_some, Prod.map, Await.mapView, issue_mapView, Write.mapView, ← hbuild]
    rfl
  | some (.saveView none, store) => rfl
  | some (.saveView (some _), store) => rfl
  | some (.create players, store) =>
    simp only [Option.map_some, Prod.map, Await.mapView, issue_mapView, flushEvents_mapView,
      Write.mapView, ← hbuild]
    rfl
  | some (.start view, store) =>
    simp only [Option.map_some, Prod.map, Await.mapView, publish_mapView]
    rfl

theorem turn_mapView (hbuild : ∀ s players victory, buildW s players victory =
    f (buildV s players victory))
    (r : Replica X P E V) (i : Input P) :
    (r.mapView f).turn sc buildW i =
      (r.turn sc buildV i).map (Prod.map id (Replica.mapView f)) := by
  cases i with
  | command c => rw [Replica.turn, handleCommand_mapView]; rfl
  | complete =>
    have hcomplete : (r.mapView f).store.complete GameStore.perform =
        (r.store.complete GameStore.perform).map
        (Outbox.map (GameStore.mapView f) (Write.mapView f) (Await.mapView f)) :=
      Outbox.complete_map perform_mapView
    rw [Replica.turn, Replica.turn, hcomplete, Option.map_map, Option.map_map]
    rfl
  | resume =>
    rw [Replica.turn, Replica.turn, resume_mapView hbuild, Option.map_map, Option.map_map]
    rfl

end Engine

namespace Web

open Engine

def Fetch.mapView (f : V → W) : Fetch V → Fetch W
  | .sent => .sent
  | .read snapshot => .read (snapshot.map f)

def Session.mapView (f : V → W) (s : Session X P E V) : Session X P E W :=
  { replica := s.replica.mapView f
    subscribed := s.subscribed
    inbox := s.inbox.map (GameBusEvent.mapView f)
    fetches := s.fetches.map (Fetch.mapView f)
    view := s.view.map f }

/-- A page that does not look at the rest. -/
structure Page.Sees (pageV : Page V E) (pageW : Page W E) (f : V → W) : Prop where
  onGameEvent : ∀ view msg, pageW.onGameEvent (view.map f) (msg.mapView f) =
    ((pageV.onGameEvent view msg).1.map f, (pageV.onGameEvent view msg).2)
  fetchInit : ∀ view snapshot, pageW.fetchInit (view.map f) (f snapshot) =
    (pageV.fetchInit view snapshot).map f

namespace Session

variable {f : V → W} {pageV : Page V E} {pageW : Page W E} {user : PlayerId}

theorem follow_mapView (s : Session X P E V) (r : Replica X P E V) :
    (s.follow user r).mapView f = (s.mapView f).follow user (r.mapView f) := by
  have haddressed : (addressed user ∘ GameBusEvent.mapView f : GameBusEvent V E → Bool) =
      addressed user := rfl
  obtain ⟨replica, subscribed, inbox, fetches, view⟩ := s
  cases subscribed with
  | false => rfl
  | true =>
    simp only [follow, mapView, Replica.mapView, if_true, Session.mk.injEq, true_and, and_true]
    rw [List.length_map, ← List.map_drop, List.filter_map, haddressed, List.map_append]

theorem receive_mapView (hpage : pageV.Sees pageW f) (s : Session X P E V)
    (msg : GameBusEvent V E) :
    (s.receive pageV msg).mapView f = (s.mapView f).receive pageW (msg.mapView f) := by
  have hevent := hpage.onGameEvent s.view msg
  simp only [receive, mapView, hevent, Session.mk.injEq, true_and, and_true]
  split
  · rw [List.map_append]
    rfl
  · rfl

theorem answer_mapView (hpage : pageV.Sees pageW f) (s : Session X P E V) (snapshot : Option V) :
    (s.answer pageV snapshot).mapView f = (s.mapView f).answer pageW (snapshot.map f) := by
  cases snapshot with
  | none => rfl
  | some w => simp only [answer, mapView, Option.map_some, hpage.fetchInit]

variable [HasType P] [HasType E] {sc : Scenario X P E}
  {buildV : GameState X P E → List Player → Option VictoryResult → V}
  {buildW : GameState X P E → List Player → Option VictoryResult → W}

theorem turn_mapView (hbuild : ∀ s players victory, buildW s players victory =
    f (buildV s players victory))
    (hpage : pageV.Sees pageW f) (s : Session X P E V) (c : Cue P) :
    (s.mapView f).turn sc buildW pageW user c =
      (s.turn sc buildV pageV user c).map (Prod.map id (Session.mapView f)) := by
  cases c with
  | engine i =>
    have hturn : (s.replica.mapView f).turn sc buildW i = _ :=
      Engine.turn_mapView hbuild s.replica i
    have hreplica : (s.mapView f).replica = s.replica.mapView f := rfl
    rw [turn, turn, hreplica, hturn, Option.map_map, Option.map_map]
    refine congrArg (Option.map · _) (funext fun next => ?_)
    exact congrArg (Prod.mk _) (follow_mapView s next.2).symm
  | subscribe => rfl
  | deliver =>
    obtain ⟨replica, subscribed, inbox, fetches, view⟩ := s
    cases inbox with
    | nil => rfl
    | cons msg inbox =>
      refine congrArg some (congrArg (Prod.mk _) ?_)
      exact (receive_mapView hpage { replica, subscribed, inbox, fetches, view } msg).symm
  | read i =>
    have hi : (s.mapView f).fetches[i]? = s.fetches[i]?.map (Fetch.mapView f) :=
      List.getElem?_map ..
    rw [turn, turn, hi]
    rcases s.fetches[i]? with _ | _ | snapshot
    · rfl
    · simp [mapView, Replica.mapView, Outbox.map, GameStore.mapView, Fetch.mapView, List.map_set]
    · rfl
  | answer i =>
    have hi : (s.mapView f).fetches[i]? = s.fetches[i]?.map (Fetch.mapView f) :=
      List.getElem?_map ..
    rw [turn, turn, hi]
    rcases s.fetches[i]? with _ | _ | snapshot
    · rfl
    · rfl
    · simp only [Option.map_some, Fetch.mapView, Prod.map, answer_mapView hpage]
      simp [mapView, List.eraseIdx_map]

/-- **What a session does with more in its views, it does.** -/
theorem step_mapView (hbuild : ∀ s players victory, buildW s players victory =
    f (buildV s players victory))
    (hpage : pageV.Sees pageW f) {s s' : Session X P E V} {l : Happening P E}
    (h : Step sc buildV pageV user s l s') :
    Step sc buildW pageW user (s.mapView f) l (s'.mapView f) := by
  obtain ⟨c, hc⟩ := h.cue
  exact turn_step (by rw [turn_mapView hbuild hpage, hc]; rfl)

/-- **It does nothing else.** -/
theorem step_lifts (hbuild : ∀ s players victory, buildW s players victory =
    f (buildV s players victory))
    (hpage : pageV.Sees pageW f) {s : Session X P E V} {t : Session X P E W} {l : Happening P E}
    (h : Step sc buildW pageW user (s.mapView f) l t) : ∃ s', Step sc buildV pageV user s l s' ∧
    s'.mapView f = t := by
  obtain ⟨c, hc⟩ := h.cue
  rw [turn_mapView hbuild hpage] at hc
  obtain ⟨⟨l', s'⟩, hs', heq⟩ := Option.map_eq_some_iff.mp hc
  cases heq
  exact ⟨s', turn_step hs', rfl⟩

theorem trace_mapView (hbuild : ∀ s players victory, buildW s players victory =
    f (buildV s players victory))
    (hpage : pageV.Sees pageW f) {s t : Session X P E V} {ls : List (Happening P E)}
    (h : Trace (Step sc buildV pageV user) s ls t) :
    Trace (Step sc buildW pageW user) (s.mapView f) ls (t.mapView f) := by
  induction h with
  | nil => exact .nil
  | cons hstep _ ih => exact .cons (step_mapView hbuild hpage hstep) ih

theorem trace_lifts (hbuild : ∀ s players victory, buildW s players victory =
    f (buildV s players victory))
    (hpage : pageV.Sees pageW f) {s : Session X P E V} {s₁ t : Session X P E W}
    {ls : List (Happening P E)} (h : Trace (Step sc buildW pageW user) s₁ ls t)
    (hs : s.mapView f = s₁) :
    ∃ s', Trace (Step sc buildV pageV user) s ls s' ∧ s'.mapView f = t := by
  induction h generalizing s with
  | nil => exact ⟨s, .nil, hs⟩
  | cons hstep _ ih =>
    subst hs
    obtain ⟨s', hstep', hs'⟩ := step_lifts hbuild hpage hstep
    obtain ⟨s'', htrace, hs''⟩ := ih hs'
    exact ⟨s'', .cons hstep' htrace, hs''⟩

end Session

end Web

end Boardgame
