import Boardgame.Lib.Trace
import Boardgame.Engine.Snapshot
import Boardgame.Realtime.Gateway

/-!
# Web.Session

One page next to the replica of its game. The gateway sends the page, in order, the messages that
are published once it is subscribed; the page fetches the saved view (`GamesController.init`), and a
fetch reads the store at one moment and is answered at a later one.

* `Session.Step`: a step of the replica, or something that happens to the page.
* `noticed_step`: what a page can notice of a step of the replica.
-/

namespace Boardgame.Web

open Engine

variable {X P E V : Type}

/-- What a page makes of what it receives: of a message, the view and whether to fetch. -/
structure Page (V E : Type) where
  onGameEvent : Option V → GameBusEvent V E → Option V × Bool
  fetchInit : Option V → V → Option V

/-- A fetch that is not answered; one that finds no view is answered by a 404. -/
inductive Fetch (V : Type) where
  | sent
  | read (snapshot : Option V)
  deriving DecidableEq

deriving instance DecidableEq for Await

/-- A page that has just connected has sent its first fetch. -/
structure Session (X P E V : Type) where
  replica : Replica X P E V
  subscribed : Bool := false
  inbox : List (GameBusEvent V E) := []
  fetches : List (Fetch V) := [.sent]
  view : Option V := none

inductive Cue (P : Type) where
  | engine (i : Engine.Input P)
  | subscribe
  | deliver
  | read (i : Nat)
  | answer (i : Nat)

inductive Happening (P E : Type) where
  | engine (m : Moment P E)
  | subscribed
  | delivered
  | read (i : Nat)
  | answered (i : Nat)

namespace Session

/-- The gateway sends the message to the user. -/
def addressed (user : PlayerId) (msg : GameBusEvent V E) : Bool :=
  (Realtime.Gateway.privateTo msg).all (· = user)

/-- The replica has gone on, and its new messages are sent. -/
def follow (user : PlayerId) (s : Session X P E V) (r : Replica X P E V) : Session X P E V :=
  { s with
    replica := r
    inbox :=
      if s.subscribed then
        s.inbox ++ (r.published.drop s.replica.published.length).filter (addressed user)
      else s.inbox }

def receive (page : Page V E) (s : Session X P E V) (msg : GameBusEvent V E) : Session X P E V :=
  let (view, fetch) := page.onGameEvent s.view msg
  { s with view, fetches := if fetch then s.fetches ++ [.sent] else s.fetches }

def answer (page : Page V E) (s : Session X P E V) : Option V → Session X P E V
  | none => s
  | some snapshot => { s with view := page.fetchInit s.view snapshot }

variable [HasType P] [HasType E] (sc : Scenario X P E)
  (buildView : GameState X P E → List Player → Option VictoryResult → V) (page : Page V E)
    (user : PlayerId)

def turn (s : Session X P E V) : Cue P → Option (Happening P E × Session X P E V)
  | .engine i => (s.replica.turn sc buildView i).map fun next =>
      (.engine next.1, s.follow user next.2)
  | .subscribe => some (.subscribed, { s with subscribed := true })
  | .deliver =>
    match s.inbox with
    | [] => none
    | msg :: inbox => some (.delivered, { s with inbox }.receive page msg)
  | .read i =>
    match s.fetches[i]? with
    | some .sent =>
      some (.read i, { s with fetches := s.fetches.set i (.read s.replica.store.memory.view) })
    | _ => none
  | .answer i =>
    match s.fetches[i]? with
    | some (.read snapshot) =>
      some (.answered i, { s with fetches := s.fetches.eraseIdx i }.answer page snapshot)
    | _ => none

inductive Step : Session X P E V → Happening P E → Session X P E V → Prop where
  | engine {s : Session X P E V} {m : Moment P E} {r : Replica X P E V} :
      Replica.Step sc buildView s.replica m r → Step s (.engine m) (s.follow user r)
  | subscribed {s : Session X P E V} : Step s .subscribed { s with subscribed := true }
  | delivered {s : Session X P E V} {msg : GameBusEvent V E} {inbox : List (GameBusEvent V E)} :
      s.inbox = msg :: inbox → Step s .delivered ({ s with inbox }.receive page msg)
  | read {s : Session X P E V} {i : Nat} : s.fetches[i]? = some .sent →
      Step s (.read i) { s with fetches := s.fetches.set i (.read s.replica.store.memory.view) }
  | answered {s : Session X P E V} {i : Nat} {snapshot : Option V} :
      s.fetches[i]? = some (.read snapshot) →
      Step s (.answered i) ({ s with fetches := s.fetches.eraseIdx i }.answer page snapshot)

/-- Nothing is in flight. -/
structure Quiet (s : Session X P E V) : Prop where
  idle : s.replica.Idle
  inbox : s.inbox = []
  fetches : s.fetches = []

variable {sc buildView page user}

omit [HasType P] [HasType E] in
theorem follow_inbox {s : Session X P E V} {r : Replica X P E V} :
    ∀ msg ∈ s.inbox, msg ∈ (s.follow user r).inbox := by
  intro msg hmsg
  unfold follow
  split
  · exact List.mem_append_left _ hmsg
  · exact hmsg

omit [HasType P] [HasType E] in
theorem follow_unchanged {s : Session X P E V} {r : Replica X P E V}
    (h : s.subscribed = false ∨ r.published = s.replica.published) :
    (s.follow user r).inbox = s.inbox := by
  unfold follow
  rcases h with h | h <;> simp [h]

theorem turn_step {s s' : Session X P E V} {c : Cue P} {l : Happening P E}
    (h : s.turn sc buildView page user c = some (l, s')) : Step sc buildView page user s l s' := by
  cases c with
  | engine i =>
    obtain ⟨⟨m, r⟩, hturn, hl⟩ := Option.map_eq_some_iff.mp h
    cases hl
    exact .engine (.mk hturn)
  | subscribe =>
    cases h
    exact .subscribed
  | deliver =>
    rw [turn] at h
    split at h
    · cases h
    · rename_i hinbox
      cases h
      exact .delivered hinbox
  | read i =>
    rw [turn] at h
    split at h
    · rename_i hi
      cases h
      exact .read hi
    · cases h
  | answer i =>
    rw [turn] at h
    split at h
    · rename_i hi
      cases h
      exact .answered hi
    · cases h

theorem Step.cue {s s' : Session X P E V} {l : Happening P E}
    (h : Step sc buildView page user s l s') :
    ∃ c, s.turn sc buildView page user c = some (l, s') := by
  cases h with
  | engine hstep =>
    obtain ⟨hturn⟩ := hstep
    rename_i i
    exact ⟨.engine i, by rw [turn, hturn]; rfl⟩
  | subscribed => exact ⟨.subscribe, rfl⟩
  | delivered hinbox => exact ⟨.deliver, by rw [turn, hinbox]⟩
  | @read i hi => exact ⟨.read i, by rw [turn, hi]⟩
  | @answered i snapshot hi => exact ⟨.answer i, by rw [turn, hi]⟩

end Session

/-- What the answer to a fetch leaves in flight. -/
theorem mem_eraseIdx_of_ne {α : Type} {xs : List α} {i : Nat} {x y : α} (hi : xs[i]? = some x)
    (hy : y ∈ xs) (hne : y ≠ x) :
    y ∈ xs.eraseIdx i := by
  obtain ⟨j, hj⟩ := List.mem_iff_getElem?.mp hy
  rw [List.mem_eraseIdx_iff_getElem?]
  refine ⟨j, fun heq => hne ?_, hj⟩
  rw [heq, hi] at hj
  exact (Option.some.inj hj).symm

/-! ## The replica, as far as a page can tell -/

/-- The view of a `game-started` message. -/
def snapshot? (msg : GameBusEvent V E) : Option V :=
  match msg.payload with
  | .started view => some view
  | _ => none

/-- What a step of the replica can publish, and do to the writes. -/
inductive Noticed (r : Replica X P E V) : Moment P E → Replica X P E V → Prop where
  | called {m : Moment P E} {inst : GameInstance X P E} {new : List (GameBusEvent V E)} :
      m ≠ .completed → m ≠ .resumed → (∀ msg ∈ new, snapshot? msg = none) →
      Noticed r m { r with inst, published := r.published ++ new }
  | played {m : Moment P E} {inst : GameInstance X P E} {new : List (GameBusEvent V E)}
      {state : GameState X P E}
      {victory : Option VictoryResult} :
      m ≠ .completed → m ≠ .resumed → (∀ msg ∈ new, snapshot? msg = none) →
      Noticed r m
        { r with
          inst
          published := r.published ++ new
          store := r.store.issue (.save state) (.save victory) }
  | completed {store : Channel X P E V} :
      r.store.complete GameStore.perform = some store → Noticed r .completed { r with store }
  | saved {victory : Option VictoryResult} {store : Channel X P E V} {view : V} :
      r.store.next = some (.save victory, store) →
      Noticed r .resumed { r with store := store.issue (.saveView view) (.saveView victory) }
  | viewed {victory : Option VictoryResult} {store : Channel X P E V} {held : Bool}
      {inst : GameInstance X P E} :
      r.store.next = some (.saveView victory, store) →
      Noticed r .resumed { r with held, inst, store }
  | created {players : List Player} {store : Channel X P E V} {inst : GameInstance X P E}
      {new : List (GameBusEvent V E)} {view : V} :
      r.store.next = some (.create players, store) → (∀ msg ∈ new, snapshot? msg = none) →
      Noticed r .resumed
        { r with
          inst
          published := r.published ++ new
          store := store.issue (.saveView view) (.start view) }
  | started {view : V} {store : Channel X P E V} :
      r.store.next = some (.start view, store) →
      Noticed r .resumed ({ r with store }.publish
        { seq := 0, type := "game-started", payload := .started view })

section

variable [HasType P] [HasType E] {sc : Scenario X P E}
  {buildView : GameState X P E → List Player → Option VictoryResult → V} {r r' : Replica X P E V}

omit [HasType P] in
theorem busEvent_plain (events : List (GameEvent E)) :
    ∀ msg ∈ events.map (busEvent (V := V)), snapshot? msg = none := by
  intro msg hmsg
  obtain ⟨e, -, rfl⟩ := List.mem_map.mp hmsg
  rfl

omit [HasType P] [HasType E] in
theorem Noticed.silent {m : Moment P E} {inst : GameInstance X P E} (hc : m ≠ .completed)
    (hr : m ≠ .resumed) :
    Noticed r m { r with inst } := by
  have h : Noticed r m { r with inst, published := r.published ++ [] } := .called hc hr nofun
  rwa [List.append_nil] at h

theorem noticed_step {m : Moment P E} (h : Replica.Step sc buildView r m r') : Noticed r m r' := by
  obtain ⟨hturn⟩ := h
  rename_i i
  cases i with
  | command c =>
    rw [Replica.turn, Option.some.injEq] at hturn
    unfold Replica.handleCommand at hturn
    split at hturn
    · simp only at hturn
      split at hturn
      · cases hturn
        exact .called (by rintro ⟨⟩) (by rintro ⟨⟩) fun msg hmsg => by
          rw [List.mem_singleton.mp hmsg]
          rfl
      · cases hturn
        exact .played (by rintro ⟨⟩) (by rintro ⟨⟩) (busEvent_plain _)
      · cases hturn
        exact .silent (by rintro ⟨⟩) (by rintro ⟨⟩)
    · cases hturn
      exact .silent (by rintro ⟨⟩) (by rintro ⟨⟩)
  | complete =>
    obtain ⟨store, hstore, hm⟩ := Option.map_eq_some_iff.mp hturn
    cases hm
    exact .completed hstore
  | resume =>
    obtain ⟨r₁, hr₁, hm⟩ := Option.map_eq_some_iff.mp hturn
    cases hm
    unfold Replica.resume at hr₁
    split at hr₁
    · cases hr₁
    · rename_i hn
      cases hr₁
      exact .saved hn
    · rename_i hn
      cases hr₁
      exact .viewed hn
    · rename_i hn
      cases hr₁
      exact .viewed hn
    · rename_i hn
      cases hr₁
      exact .created hn (busEvent_plain _)
    · rename_i hn
      cases hr₁
      exact .started hn

end

/-! ## The first view -/

/-- `createGame` has yet to publish its view. -/
def Launching (r : Replica X P E V) : Prop :=
  (∃ players, .create players ∈ r.store.waiting) ∨ ∃ view, .start view ∈ r.store.waiting

/-- A view is written by a command or by `createGame`, which publishes it once it is saved. -/
structure Paired (o : Channel X P E V) : Prop where
  writers : ∀ w k, (.saveView w, k) ∈ o.writes → k = .start w ∨ ∃ victory, k = .saveView victory
  starter : ∀ x w, (x, .start w) ∈ o.writes → x = .saveView w
  written : ∀ w, .start w ∈ o.ready → o.memory.view ≠ none

/-- No view is saved only as long as `createGame` has yet to publish its own. -/
structure Opening (r : Replica X P E V) : Prop where
  paired : Paired r.store
  launching : r.store.memory.view = none → Launching r

theorem opening_opened {sc : Scenario X P E} {opts : GameSetupOptions} {r : Replica X P E V}
    (hr : Replica.openGame sc opts = .ok r) : Opening r ∧ r.store.memory.view = none := by
  cases hs : createGameState sc opts with
  | error e => simp [Replica.openGame, hs, Except.map] at hr
  | ok s =>
    simp only [Replica.openGame, hs, Except.map, Except.ok.injEq] at hr
    subst hr
    refine ⟨⟨⟨fun w k hin => ?_, fun x w hin => ?_, fun w hnone => ?_⟩, fun _ =>
      .inl ⟨opts.players, List.mem_cons_self⟩⟩, rfl⟩
    · cases List.mem_singleton.mp hin
    · cases List.mem_singleton.mp hin
    · cases hnone

theorem Opening.saved {r : Replica X P E V} (h : Opening r) (hidle : r.Idle) :
    ∃ w, r.store.memory.view = some w := by
  have hwaiting : r.store.waiting = [] := hidle
  refine Option.isSome_iff_exists.mp (Option.isSome_iff_ne_none.mpr fun hnone => ?_)
  rcases h.launching hnone with ⟨_, hin⟩ | ⟨_, hin⟩
  · rw [hwaiting] at hin
    cases hin
  · rw [hwaiting] at hin
    cases hin

/-- What waits goes on waiting, but for the handler that goes on. -/
theorem Launching.mono {r r' : Replica X P E V} (h : Launching r)
    (hwaiting : ∀ k, (∃ players, k = .create players) ∨ (∃ view, k = .start view) →
      k ∈ r.store.waiting →
      k ∈ r'.store.waiting) : Launching r' :=
  h.imp (fun ⟨players, hin⟩ => ⟨players, hwaiting _ (.inl ⟨players, rfl⟩) hin⟩)
    fun ⟨view, hin⟩ => ⟨view, hwaiting _ (.inr ⟨view, rfl⟩) hin⟩

/-- It is launching until it publishes its view. -/
theorem Launching.noticed {r r' : Replica X P E V} {m : Moment P E} (h : Launching r)
    (hstep : Noticed r m r') :
    Launching r' ∨ ∃ view store, m = .resumed ∧ r.store.next = some (.start view, store) ∧
      r' = { r with store }.publish
        { seq := 0, type := "game-started", payload := .started view } := by
  have hrest : ∀ {k k' : Await V} {store : Channel X P E V}, r.store.next = some (k', store) →
      k ∈ r.store.waiting → k ≠ k' → k ∈ store.waiting := by
    intro k k' store hn hin hne
    rw [Outbox.next_waiting hn] at hin
    exact (List.mem_cons.mp hin).resolve_left hne
  cases hstep with
  | called => exact .inl h
  | played =>
    refine .inl (h.mono fun k _ hin => ?_)
    rw [Outbox.waiting_issue]
    exact List.mem_append_left _ hin
  | completed hc =>
    refine .inl (h.mono fun k _ hin => ?_)
    rwa [(Outbox.complete_same hc).1]
  | saved hn =>
    refine .inl (h.mono fun k hk hin => ?_)
    rw [Outbox.waiting_issue]
    refine List.mem_append_left _ (hrest hn hin ?_)
    rcases hk with ⟨_, rfl⟩ | ⟨_, rfl⟩ <;> exact nofun
  | viewed hn =>
    refine .inl (h.mono fun k hk hin => hrest hn hin ?_)
    rcases hk with ⟨_, rfl⟩ | ⟨_, rfl⟩ <;> exact nofun
  | @created _ _ _ _ view =>
    refine .inl (.inr ⟨view, ?_⟩)
    rw [Outbox.waiting_issue]
    exact List.mem_append_right _ List.mem_cons_self
  | @started view store hn => exact .inr ⟨view, store, rfl, hn, rfl⟩

namespace Paired

variable {o o' : Channel X P E V}

theorem next (h : Paired o) {k : Await V} (hn : o.next = some (k, o')) : Paired o' := by
  obtain ⟨hready, hwrites, hmemory⟩ := Outbox.next_cases hn
  refine ⟨by rw [hwrites]; exact h.writers, by rw [hwrites]; exact h.starter, fun w hw => ?_⟩
  rw [hmemory]
  exact h.written w (hready ▸ List.mem_cons_of_mem _ hw)

theorem issue (h : Paired o) {w : Write X P E V} {k : Await V}
    (hw : ∀ v, w = .saveView v → k = .start v ∨ ∃ victory, k = .saveView victory)
    (hk : ∀ v, k = .start v → w = .saveView v) : Paired (o.issue w k) := by
  refine ⟨fun v k' hin => ?_, fun x v hin => ?_, h.written⟩
  · rcases List.mem_append.mp hin with hin | hin
    · exact h.writers v k' hin
    · cases List.mem_singleton.mp hin
      exact hw v rfl
  · rcases List.mem_append.mp hin with hin | hin
    · exact h.starter x v hin
    · cases List.mem_singleton.mp hin
      exact hk v rfl

theorem complete (h : Paired o) (hc : o.complete GameStore.perform = some o') :
    Paired o' ∧ (o'.memory.view = none → o.memory.view = none) := by
  obtain ⟨w, k, hwrites, hmemory, hready⟩ := Outbox.complete_cases hc
  have hold : o'.memory.view = none → o.memory.view = none := by
    rw [hmemory]
    cases w with
    | save state => exact id
    | saveView view => exact nofun
  refine ⟨⟨fun v k' hin => ?_, fun x v hin => ?_, fun v hv hnone => ?_⟩, hold⟩
  · exact h.writers v k' (hwrites ▸ List.mem_cons_of_mem _ hin)
  · exact h.starter x v (hwrites ▸ List.mem_cons_of_mem _ hin)
  · rw [hready] at hv
    rcases List.mem_append.mp hv with hv | hv
    · exact h.written v hv (hold hnone)
    · obtain rfl : w = .saveView v :=
        h.starter w v (by rw [hwrites, List.mem_singleton.mp hv]; exact List.mem_cons_self)
      rw [hmemory] at hnone
      cases hnone

end Paired

theorem Opening.noticed {r r' : Replica X P E V} {m : Moment P E} (h : Opening r)
    (hstep : Noticed r m r') :
    Opening r' := by
  have hpaired : Paired r'.store ∧ (r'.store.memory.view = none → r.store.memory.view = none) := by
    cases hstep with
    | called => exact ⟨h.paired, id⟩
    | played => exact ⟨h.paired.issue nofun nofun, id⟩
    | completed hc => exact h.paired.complete hc
    | saved hn =>
      refine ⟨(h.paired.next hn).issue (fun v hv => .inr ⟨_, rfl⟩) nofun, fun hnone => ?_⟩
      rwa [← (Outbox.next_cases hn).2.2]
    | viewed hn => exact ⟨h.paired.next hn, fun hnone => by rwa [← (Outbox.next_cases hn).2.2]⟩
    | created hn =>
      refine ⟨(h.paired.next hn).issue (fun v hv => ?_) (fun v hv => ?_), fun hnone => ?_⟩
      · cases hv
        exact .inl rfl
      · cases hv
        rfl
      · rwa [← (Outbox.next_cases hn).2.2]
    | started hn => exact ⟨h.paired.next hn, fun hnone => by rwa [← (Outbox.next_cases hn).2.2]⟩
  refine ⟨hpaired.1, fun hnone => ?_⟩
  rcases (h.launching (hpaired.2 hnone)).noticed hstep with hlaunching | ⟨view, store, -, hn, -⟩
  · exact hlaunching
  · refine absurd (hpaired.2 hnone) (h.paired.written view ?_)
    rw [(Outbox.next_cases hn).1]
    exact List.mem_cons_self

end Boardgame.Web
