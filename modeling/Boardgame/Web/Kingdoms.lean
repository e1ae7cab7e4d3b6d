import Boardgame.Kingdoms.Consistent
import Boardgame.Kingdoms.View
import Boardgame.Web.Session

/-!
# Web.Kingdoms

The Kingdoms page next to the engine (`games/kingdoms/store/kingdoms-game.ts`): every message but
`game-started` makes the page fetch the saved view, and every answer becomes the page's view.

* `current_step`: a timely step leaves the page the saved view, or something on its way.
* `view_settles`: after timely steps, a page with nothing in flight shows the saved view.
* `stranded`: without anything on its way, a page that shows another view keeps to it.
-/

namespace Boardgame.Web

open Kingdoms Engine

variable {R : Type}

def useKingdomsGame : Page KingdomsView (KingdomsEvent R) where
  onGameEvent view event :=
    match event.payload with
    | .started view => (some view, false)
    | _ => (view, true)
  fetchInit _ snapshot := some snapshot

abbrev KSession (R : Type) := Session KingdomsExtras KingdomsPayload (KingdomsEvent R) KingdomsView

abbrev KReplica (R : Type) := Replica KingdomsExtras KingdomsPayload (KingdomsEvent R) KingdomsView

abbrev KHappening (R : Type) := Happening KingdomsPayload (KingdomsEvent R)

/-! ## What is on its way -/

/-- The view the engine saved last. -/
def saved (s : KSession R) : Option KingdomsView := s.replica.store.memory.view

/-- The view `w` may still reach the page: a fetch has not read, or has read `w`; a message will
make the page fetch, or carries `w`; or `createGame` is about to publish `w`. -/
def Due (s : KSession R) (w : KingdomsView) : Prop :=
  .sent ∈ s.fetches ∨ .read (some w) ∈ s.fetches ∨
    (∃ msg ∈ s.inbox, snapshot? msg = none ∨ snapshot? msg = some w) ∨
    .start w ∈ s.replica.store.ready

/-- `v` is the saved view, or that may still reach the page. -/
def Current (s : KSession R) (v : Option KingdomsView) : Prop := ∀ w ∈ saved s, v = some w ∨ Due s w

/-- A view that is saved by a command, answers a fetch or comes with a `game-started` message, is
current when what has brought it is gone. -/
def Timely (s : KSession R) : KHappening R → Prop
  | .engine .completed =>
    match s.replica.store.writes with
    | (.saveView w, .saveView _) :: _ => s.view = some w ∨ Due s w
    | _ => True
  | .engine .resumed =>
    match s.replica.store.next with
    | some (.start _, store) =>
      s.subscribed = true ∨ Current { s with replica := { s.replica with store } } s.view
    | _ => True
  | .delivered =>
    match s.inbox with
    | msg :: inbox => ∀ v ∈ snapshot? msg, Current { s with inbox } (some v)
    | [] => True
  | .answered i =>
    match s.fetches[i]? with
    | some (.read (some v)) => Current { s with fetches := s.fetches.eraseIdx i } (some v)
    | _ => True
  | _ => True

instance (s : KSession R) (w : KingdomsView) : Decidable (Due s w) := by
  unfold Due
  infer_instance

instance (s : KSession R) (v : Option KingdomsView) : Decidable (Current s v) := by
  unfold Current
  infer_instance

instance (s : KSession R) (l : KHappening R) : Decidable (Timely s l) := by
  unfold Timely
  split
  · split <;> infer_instance
  · split <;> infer_instance
  · split <;> infer_instance
  · split <;> infer_instance
  · infer_instance

/-! ## The steps of the page -/

theorem Due.mono {s s' : KSession R} {w : KingdomsView} (h : Due s w)
    (hfetches : ∀ f ∈ s.fetches, f ∈ s'.fetches) (hinbox : ∀ msg ∈ s.inbox, msg ∈ s'.inbox)
    (hready : .start w ∈ s.replica.store.ready → .start w ∈ s'.replica.store.ready) : Due s' w := by
  rcases h with h | h | ⟨msg, hmsg, h⟩ | h
  · exact .inl (hfetches _ h)
  · exact .inr (.inl (hfetches _ h))
  · exact .inr (.inr (.inl ⟨msg, hinbox _ hmsg, h⟩))
  · exact .inr (.inr (.inr (hready h)))

/-- The replica goes on without saving a view, or publishing one. -/
theorem Current.follow {user : PlayerId} {s : KSession R} {r : KReplica R} {v : Option KingdomsView}
    (h : Current s v) (hmemory : r.store.memory.view = s.replica.store.memory.view)
    (hready : ∀ w, .start w ∈ s.replica.store.ready → .start w ∈ r.store.ready) :
    Current (s.follow user r) v :=
  fun w hw => (h w (hmemory.symm.trans hw)).imp id fun hdue =>
    hdue.mono (fun _ hf => hf) Session.follow_inbox (hready w)

/-- The same, where a handler goes on. -/
theorem Current.resumed {user : PlayerId} {s : KSession R} {r : KReplica R}
    {v : Option KingdomsView} {k : Await KingdomsView}
    {store : Channel KingdomsExtras KingdomsPayload (KingdomsEvent R) KingdomsView}
    (h : Current s v) (hn : s.replica.store.next = some (k, store)) (hk : ∀ w, k ≠ .start w)
    (hmemory : r.store.memory = store.memory) (hready : r.store.ready = store.ready) :
    Current (s.follow user r) v := by
  obtain ⟨hfirst, -, hsame⟩ := Outbox.next_cases hn
  refine h.follow (by rw [hmemory, hsame]) fun w hin => ?_
  rw [hfirst] at hin
  rw [hready]
  exact (List.mem_cons.mp hin).resolve_left (hk w).symm

/-- `createGame` publishes its view. -/
theorem current_started {user : PlayerId} {s : KSession R} {view : KingdomsView}
    {store : Channel KingdomsExtras KingdomsPayload (KingdomsEvent R) KingdomsView}
    (h : Current s s.view) (hn : s.replica.store.next = some (.start view, store))
    (ht : Timely s (.engine .resumed)) :
    Current (s.follow user
      ({ s.replica with store }.publish
        { seq := 0, type := "game-started", payload := .started view })) s.view := by
  obtain ⟨hready, -, hmemory⟩ := Outbox.next_cases hn
  simp only [Timely, hn] at ht
  rcases ht with hsubscribed | hcurrent
  · intro w hw
    have hsaved : store.memory.view = some w := hw
    refine (h w ?_).imp id fun hdue => ?_
    · rw [hmemory] at hsaved
      exact hsaved
    · by_cases heq : view = w
      · subst heq
        refine .inr
          (.inr (.inl ⟨{ seq := 0, type := "game-started", payload := .started view },
            ?_, .inr rfl⟩))
        simp [Session.follow, hsubscribed, Replica.publish, Session.addressed,
          Realtime.Gateway.privateTo]
      · refine hdue.mono (fun _ hf => hf) Session.follow_inbox fun hin => ?_
        rw [hready] at hin
        refine (List.mem_cons.mp hin).resolve_left fun hk => heq ?_
        cases hk
        rfl
  · exact fun w hw => (hcurrent w hw).imp id fun hdue =>
      hdue.mono (fun _ hf => hf) Session.follow_inbox fun hin => hin

/-- **A step of the engine**. -/
theorem current_engine {user : PlayerId} {s : KSession R} {r : KReplica R}
    {m : Moment KingdomsPayload (KingdomsEvent R)} (hopening : Opening s.replica)
    (h : Current s s.view) (hstep : Noticed s.replica m r) (ht : Timely s (.engine m)) :
    Current (s.follow user r) s.view := by
  cases hstep with
  | called => exact h.follow rfl fun _ hin => hin
  | played => exact h.follow rfl fun _ hin => hin
  | @completed store hc =>
    obtain ⟨w, k, hwrites, hmemory, hready⟩ := Outbox.complete_cases hc
    have hin : ∀ w', .start w' ∈ s.replica.store.ready → .start w' ∈ store.ready := by
      intro w' hw'
      rw [hready]
      exact List.mem_append_left _ hw'
    cases w with
    | save state => exact h.follow (by rw [hmemory]; rfl) hin
    | saveView view =>
      intro w hw
      have hsaved : saved (s.follow user { s.replica with store }) = some view := by
        show store.memory.view = some view
        rw [hmemory]
        rfl
      obtain rfl : view = w := Option.some.inj (hsaved.symm.trans hw)
      rcases hopening.paired.writers view k
        (by rw [hwrites]; exact List.mem_cons_self) with rfl | ⟨victory, rfl⟩
      · right
        refine .inr (.inr (.inr ?_))
        show .start view ∈ store.ready
        rw [hready]
        exact List.mem_append_right _ List.mem_cons_self
      · simp only [Timely, hwrites] at ht
        exact ht.imp id fun hdue => hdue.mono (fun _ hf => hf) Session.follow_inbox (hin view)
  | saved hn => exact h.resumed hn (by simp) rfl rfl
  | viewed hn => exact h.resumed hn (by simp) rfl rfl
  | created hn => exact h.resumed hn (by simp) rfl rfl
  | started hn => exact current_started h hn ht

theorem receive_plain {s : KSession R} {msg : GameBusEvent KingdomsView (KingdomsEvent R)}
    (h : snapshot? msg = none) :
    s.receive useKingdomsGame msg = { s with fetches := s.fetches ++ [.sent] } := by
  have hevent : useKingdomsGame.onGameEvent s.view msg = (s.view, true) := by
    revert h
    simp only [snapshot?, useKingdomsGame]
    split <;> simp
  simp only [Session.receive, hevent, if_true]

theorem receive_snapshot {s : KSession R} {msg : GameBusEvent KingdomsView (KingdomsEvent R)}
    {v : KingdomsView} (h : snapshot? msg = some v) :
    s.receive useKingdomsGame msg = { s with view := some v } := by
  unfold snapshot? at h
  split at h
  · rename_i hpayload
    cases h
    simp [Session.receive, useKingdomsGame, hpayload]
  · cases h

/-- **A timely step leaves the page the saved view, or something on its way.** -/
theorem current_step [Strength R] {user : PlayerId} {s s' : KSession R} {l : KHappening R}
    (hopening : Opening s.replica) (h : Current s s.view)
    (hstep : Session.Step (kingdomsScenario R) buildKingdomsView useKingdomsGame user s l s')
    (ht : Timely s l) : Opening s'.replica ∧ Current s' s'.view := by
  cases hstep with
  | engine hturn =>
    have hnoticed := noticed_step hturn
    exact ⟨hopening.noticed hnoticed, current_engine hopening h hnoticed ht⟩
  | subscribed => exact ⟨hopening, h⟩
  | @delivered msg inbox hinbox =>
    refine ⟨hopening, ?_⟩
    simp only [Timely, hinbox] at ht
    cases hsnapshot : snapshot? msg with
    | none =>
      rw [receive_plain hsnapshot]
      exact fun w _ => .inr (.inl (List.mem_append_right _ List.mem_cons_self))
    | some v =>
      rw [receive_snapshot hsnapshot]
      exact ht v hsnapshot
  | @read i hi =>
    refine ⟨hopening, fun w hw => .inr (.inr (.inl ?_))⟩
    have hsaved : s.replica.store.memory.view = some w := hw
    show Fetch.read (some w) ∈ s.fetches.set i (.read s.replica.store.memory.view)
    rw [hsaved]
    exact List.mem_set (List.getElem?_eq_some_iff.mp hi).1 _
  | @answered i snapshot hi =>
    cases snapshot with
    | none =>
      refine ⟨hopening, fun w hw => (h w hw).imp id fun hdue => ?_⟩
      rcases hdue with hdue | hdue | hdue
      · exact .inl (mem_eraseIdx_of_ne hi hdue nofun)
      · exact .inr (.inl (mem_eraseIdx_of_ne hi hdue (by simp)))
      · exact .inr (.inr hdue)
    | some v =>
      simp only [Timely, hi] at ht
      exact ⟨hopening, ht⟩

/-! ## Untimely steps -/

/-- **An untimely step leaves the page another view, and nothing on its way.** -/
theorem untimely_step [Strength R] {user : PlayerId} {s s' : KSession R} {l : KHappening R}
    (hstep : Session.Step (kingdomsScenario R) buildKingdomsView useKingdomsGame user s l s')
    (ht : ¬ Timely s l) : ¬ Current s' s'.view := by
  cases hstep with
  | @engine m r hturn =>
    cases noticed_step hturn with
    | called hc hr =>
      cases m <;> first | exact absurd rfl hc | exact absurd rfl hr | exact absurd trivial ht
    | played hc hr =>
      cases m <;> first | exact absurd rfl hc | exact absurd rfl hr | exact absurd trivial ht
    | @completed store hc =>
      obtain ⟨w, k, hwrites, hmemory, hready⟩ := Outbox.complete_cases hc
      simp only [Timely, hwrites] at ht
      match w, k, ht with
      | .saveView view, .saveView victory, ht =>
        intro hcurrent
        refine ht ((hcurrent view ?_).imp id fun hdue => hdue.mono (fun _ hf => hf) ?_ ?_)
        · show store.memory.view = some view
          rw [hmemory]
          rfl
        · have hinbox : (s.follow user { s.replica with store }).inbox = s.inbox :=
            Session.follow_unchanged (.inr rfl)
          rw [hinbox]
          exact fun _ hmsg => hmsg
        · intro hin
          have hin' : .start view ∈ store.ready := hin
          rw [hready] at hin'
          exact (List.mem_append.mp hin').resolve_right (by simp)
      | .save _, _, ht => exact absurd trivial ht
      | .saveView _, .save _, ht => exact absurd trivial ht
      | .saveView _, .create _, ht => exact absurd trivial ht
      | .saveView _, .start _, ht => exact absurd trivial ht
    | saved hn => simp [Timely, hn] at ht
    | viewed hn => simp [Timely, hn] at ht
    | created hn => simp [Timely, hn] at ht
    | @started view store hn =>
      simp only [Timely, hn, not_or, Bool.not_eq_true] at ht
      refine fun hcurrent => ht.2 fun w hw => (hcurrent w hw).imp id fun hdue =>
        hdue.mono (fun _ hf => hf) ?_ id
      rw [Session.follow_unchanged (.inl ht.1)]
      exact fun _ hmsg => hmsg
  | subscribed => exact absurd trivial ht
  | @delivered msg inbox hinbox =>
    simp only [Timely, hinbox, not_forall] at ht
    obtain ⟨v, hv, ht⟩ := ht
    rwa [receive_snapshot hv]
  | read => exact absurd trivial ht
  | @answered i snapshot hi =>
    cases snapshot with
    | none => simp [Timely, hi] at ht
    | some v =>
      simp only [Timely, hi] at ht
      exact ht

/-- The replica publishes nothing, and saves nothing. -/
def Idling (rec : Record (KSession R) (KHappening R)) : Prop :=
  match rec.label with
  | .engine .resumed => rec.after.replica.published = rec.before.replica.published
  | .engine _ => False
  | _ => True

theorem Current.back {user : PlayerId} {s : KSession R} {r : KReplica R} {v : Option KingdomsView}
    {k : Await KingdomsView}
    {store : Channel KingdomsExtras KingdomsPayload (KingdomsEvent R) KingdomsView}
    (h : Current (s.follow user r) v) (hpublished : r.published = s.replica.published)
    (hn : s.replica.store.next = some (k, store)) (hmemory : r.store.memory = store.memory)
    (hready : r.store.ready = store.ready) : Current s v := by
  obtain ⟨hfirst, -, hsame⟩ := Outbox.next_cases hn
  have hinbox : (s.follow user r).inbox = s.inbox := Session.follow_unchanged (.inr hpublished)
  refine fun w hw => (h w ?_).imp id fun hdue => hdue.mono (fun _ hf => hf) ?_ ?_
  · show r.store.memory.view = some w
    rw [hmemory, hsame]
    exact hw
  · rw [hinbox]
    exact fun _ hmsg => hmsg
  · intro hin
    have hin' : .start w ∈ r.store.ready := hin
    rw [hready] at hin'
    rw [hfirst]
    exact List.mem_cons_of_mem _ hin'

theorem current_idling [Strength R] {user : PlayerId} {rec : Record (KSession R) (KHappening R)}
    (hstep : Session.Step (kingdomsScenario R) buildKingdomsView useKingdomsGame user rec.before
      rec.label rec.after)
    (hidling : Idling rec) (h : Current rec.after rec.after.view) :
    Current rec.before rec.before.view := by
  obtain ⟨s, l, s'⟩ := rec
  simp only at hstep h ⊢
  cases hstep with
  | @engine m r hturn =>
    cases noticed_step hturn with
    | called hc hr =>
      cases m <;> first | exact absurd rfl hc | exact absurd rfl hr | exact hidling.elim
    | played hc hr =>
      cases m <;> first | exact absurd rfl hc | exact absurd rfl hr | exact hidling.elim
    | completed => exact hidling.elim
    | saved hn => exact h.back hidling hn rfl rfl
    | viewed hn => exact h.back hidling hn rfl rfl
    | created hn => exact h.back hidling hn rfl rfl
    | started hn => exact h.back hidling hn rfl rfl
  | subscribed => exact h
  | @delivered msg inbox hinbox =>
    have hmem : ∀ msg' ∈ inbox, msg' ∈ s.inbox :=
      fun msg' hin => hinbox ▸ List.mem_cons_of_mem _ hin
    have hmsg : msg ∈ s.inbox := hinbox ▸ List.mem_cons_self
    cases hsnapshot : snapshot? msg with
    | none => exact fun w hw => .inr (.inr (.inr (.inl ⟨msg, hmsg, .inl hsnapshot⟩)))
    | some v =>
      rw [receive_snapshot hsnapshot] at h
      intro w hw
      rcases h w hw with hv | hdue
      · exact .inr (.inr (.inr (.inl ⟨msg, hmsg, .inr (hsnapshot.trans hv)⟩)))
      · exact .inr (hdue.mono (fun _ hf => hf) hmem id)
  | read hi => exact fun w hw => .inr (.inl (List.mem_of_getElem? hi))
  | @answered i snapshot hi =>
    cases snapshot with
    | none =>
      exact fun w hw => (h w hw).imp id fun hdue =>
        hdue.mono (fun _ => List.mem_of_mem_eraseIdx) (fun _ hf => hf) id
    | some v =>
      intro w hw
      rcases h w hw with hv | hdue
      · exact .inr (.inr (.inl (hv ▸ List.mem_of_getElem? hi)))
      · exact .inr (hdue.mono (fun _ => List.mem_of_mem_eraseIdx) (fun _ hf => hf) id)

/-- **Without anything on its way, a page that shows another view keeps to it.** -/
theorem stranded [Strength R] {user : PlayerId} {s t : KSession R}
    {rs : List (Record (KSession R) (KHappening R))}
    (h : Trace (Recorded (Session.Step (kingdomsScenario R) buildKingdomsView useKingdomsGame user))
      s rs t)
    (hs : ¬ Current s s.view) (hrs : ∀ rec ∈ rs, Idling rec) : t.view ≠ saved t := by
  have hrun : ¬ Current t t.view := by
    refine (h.restrict hrs).inv (I := fun s => ¬ Current s s.view) ?_ hs
    intro s rec t hI hrec hcurrent
    obtain ⟨rfl, rfl, hstep⟩ := Recorded.step_of hrec.1
    exact hI (current_idling hstep hrec.2 hcurrent)
  intro heq
  exact hrun fun w hw => .inl (heq.trans hw)

/-! ## Runs -/

theorem not_due {s : KSession R} (hquiet : s.Quiet) {w : KingdomsView} : ¬ Due s w := by
  have hready : s.replica.store.ready = [] := (List.append_eq_nil_iff.mp hquiet.idle).1
  simp [Due, hquiet.inbox, hquiet.fetches, hready]

/-- **The page settles on the saved view.** Over every run of a game and a page, from the creation
of the game and however their steps are interleaved: if every step is timely, then once nothing is
in flight the page shows the view the engine has saved last. -/
theorem view_settles [Strength R] {opts : GameSetupOptions} {r₀ : KReplica R} {user : PlayerId}
    (hr : Replica.openGame (kingdomsScenario R) opts = .ok r₀)
    {rs : List (Record (KSession R) (KHappening R))} {s : KSession R}
    (h : Trace (Recorded (Session.Step (kingdomsScenario R) buildKingdomsView useKingdomsGame user))
      { replica := r₀ } rs s)
    (hrs : ∀ rec ∈ rs, Timely rec.before rec.label) (hquiet : s.Quiet) :
    ∃ w, s.replica.store.memory.view = some w ∧ s.view = some w := by
  obtain ⟨hopening, hnone⟩ := opening_opened hr
  have hrun : Opening s.replica ∧ Current s s.view := by
    refine (h.restrict hrs).inv (I := fun s => Opening s.replica ∧ Current s s.view) ?_
      ⟨hopening, ?_⟩
    · intro s rec t hI hrec
      obtain ⟨rfl, rfl, hstep⟩ := Recorded.step_of hrec.1
      exact current_step hI.1 hI.2 hstep hrec.2
    · intro w hw
      have hsaved : r₀.store.memory.view = some w := hw
      rw [hnone] at hsaved
      cases hsaved
  obtain ⟨w, hw⟩ := hrun.1.saved hquiet.idle
  exact ⟨w, hw, (hrun.2 w hw).resolve_right (not_due hquiet)⟩

/-! ## One command -/

/-- The page subscribes, its first fetch finds nothing, and the game is created. -/
def joining : List (Cue KingdomsPayload) :=
  [.subscribe, .read 0, .answer 0, .engine .complete, .engine .resume, .engine .complete,
    .engine .resume, .deliver]

/-- `p1` develops the capital; the message comes while the state is saved. -/
def developing : List (Cue KingdomsPayload) :=
  [.engine (.command ⟨"p1", .developTile "4,-4", none⟩), .engine .complete,
    .engine .resume, .deliver]

def fetching : List (Cue KingdomsPayload) := [.read 0, .answer 0]

def writingBack : List (Cue KingdomsPayload) := [.engine .complete, .engine .resume]

/-- The view is saved before the page fetches. -/
theorem view_settles_development : ∃ r₀ rs s, Replica.openGame (kingdomsScenario ℚ) duel = .ok r₀ ∧
    Trace (Recorded (Session.Step (kingdomsScenario ℚ) buildKingdomsView useKingdomsGame "p1"))
      { replica := r₀ } rs s ∧
    rs.length = 16 ∧ ∃ w, s.replica.store.memory.view = some w ∧ s.view = some w := by
  have hobserved : (Replica.openGame (kingdomsScenario ℚ) duel).toOption.bind (fun r₀ =>
      (film (Session.turn (kingdomsScenario ℚ) buildKingdomsView useKingdomsGame "p1")
        { replica := r₀ }
          (joining ++ developing ++ writingBack ++ fetching)).map fun m =>
        (decide (∀ rec ∈ m.1, Timely rec.before rec.label), m.1.length,
          m.2.replica.store.waiting.length,
          m.2.inbox.length, m.2.fetches.length)) = some (true, 16, 0, 0, 0) := by decide +kernel
  obtain ⟨r₀, rs, s, hr, htrace, hx⟩ := film_observed Session.turn_step hobserved
  simp only [Prod.mk.injEq, decide_eq_true_eq, List.length_eq_zero_iff] at hx
  obtain ⟨htimely, hlen, hidle, hinbox, hfetches⟩ := hx
  exact ⟨r₀, rs, s, hr, htrace, hlen, view_settles hr htrace htimely ⟨hidle, hinbox, hfetches⟩⟩

/-- The page fetches before the view is saved, and is never told that it is. -/
theorem view_missed : ∃ r₀ rs s, Replica.openGame (kingdomsScenario ℚ) duel = .ok r₀ ∧
    Trace (Recorded (Session.Step (kingdomsScenario ℚ) buildKingdomsView useKingdomsGame "p1"))
      { replica := r₀ } rs s ∧
    s.Quiet ∧ s.view ≠ s.replica.store.memory.view := by
  have hobserved : (Replica.openGame (kingdomsScenario ℚ) duel).toOption.bind (fun r₀ =>
      (film (Session.turn (kingdomsScenario ℚ) buildKingdomsView useKingdomsGame "p1")
        { replica := r₀ }
          (joining ++ developing ++ fetching ++ writingBack)).map fun m =>
        (m.2.replica.store.waiting.length, m.2.inbox.length, m.2.fetches.length,
          decide (m.2.view = m.2.replica.store.memory.view))) = some (0, 0, 0, false) := by
            decide +kernel
  obtain ⟨r₀, rs, s, hr, htrace, hx⟩ := film_observed Session.turn_step hobserved
  simp only [Prod.mk.injEq, decide_eq_false_iff_not, List.length_eq_zero_iff] at hx
  obtain ⟨hidle, hinbox, hfetches, hview⟩ := hx
  exact ⟨r₀, rs, s, hr, htrace, ⟨hidle, hinbox, hfetches⟩, hview⟩

end Boardgame.Web
