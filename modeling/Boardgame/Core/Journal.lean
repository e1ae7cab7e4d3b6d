import Boardgame.Core.Moves

/-!
# Core.Journal

The journal of a game (`action-history.ts`) against what its calls did. A `Steady` scenario is one
whose accepted actions run to their end; then a call either leaves no trace or writes one entry.

* `journal_exact`: numbers, events and status in every reachable game.
* `replay_since`: the entries written since some moment, submitted again on the game of that moment,
  lead to the game they were written in.
* `play_history`: the whole journal, submitted to a fresh game, rebuilds the game.
-/

namespace Boardgame.Game

variable {X P E : Type}

/-- `ActionHistory.since`. -/
def since (s : GameState X P E) (seq : Nat) : List (ActionHistoryEntry P E) :=
  s.history.filter (seq < ·.seq)

/-- The actions of journal entries, to be submitted again. -/
def requests (entries : List (ActionHistoryEntry P E)) : List (Request P) :=
  entries.map fun entry => .submit entry.action

/-- The events of the journal. -/
def journal (g : Game X P E) : List (GameEvent E) := g.state.history.flatMap (·.events)

/-- What was emitted is what the journal holds, but for the one event that reports the end. -/
def Told (g : Game X P E) : Prop :=
  (g.machine ≠ .ended ∧ g.events.emitted = journal g) ∨
    (g.machine = .ended ∧ ∃ pre post ended victory, g.events.emitted = pre ++ ended :: post ∧
      ended.body = .gameEnded victory ∧ journal g = pre ++ post)

/-- The journal, the emitter and the status machine agree. -/
structure Kept (g : Game X P E) : Prop where
  numbered : g.state.history.map ActionHistoryEntry.seq = List.range' 1 g.state.history.length
  stamped : g.events.emitted.map GameEvent.seq = (List.range' 1 g.events.emitted.length).map some
  next : g.events.nextSeq = g.events.emitted.length + 1
  status : g.machine = g.state.status
  told : Told g

variable [HasType P]

/-- A scenario without rules, on states `I` that its setup and its executors stay in: there an
accepted action runs to its end, and leaves the status and the journal to the game. -/
structure Steady (sc : Scenario X P E) (opts : GameSetupOptions) (I : GameState X P E → Prop) :
    Prop where
  rules : sc.rules = []
  opens : ∀ s, createGameState sc opts = .ok s → s.status = .setup ∧ s.history = [] ∧ I s
  frame : ∀ s status history, I s → I { s with status, history }
  acts : ∀ s a, I s → sc.validate s a = .ok () → ∃ evs s', (sc.execute a).run s = .ok evs s' ∧
    s'.status = s.status ∧ s'.history = s.history ∧ I s'

variable {sc : Scenario X P E} {opts : GameSetupOptions} {I : GameState X P E → Prop}
  {g g' : Game X P E} {c : Call P E}

/-- What a call on a steady scenario writes: nothing, or one entry with its action and the events it
emitted, which may be followed by the event that ends the game. -/
inductive Writes (g : Game X P E) : Call P E → Game X P E → Prop where
  | started : Writes g .start g.start
  | idle {c : Call P E} : Writes g c g
  | entry {a : Action P} {r : Except JsError (ActionResult E)} {g' : Game X P E}
      (primary tail : List (GameEvent E)) :
      g'.state.history =
        g.state.history ++ [⟨g.state.history.length + 1, a, stamp g.events.nextSeq primary⟩] →
      g'.events = (emitted g (primary ++ tail)).events → g'.machine = g'.state.status →
      (tail = [] ∧ g'.machine = g.machine ∨
        (∃ victory, tail = [{ body := .gameEnded victory }]) ∧ g.machine ≠ .ended ∧
        g'.machine = .ended) →
      Writes g (.submit a r) g'

theorem Steady.writes (hsc : Steady sc opts I) (hI : I g.state) (hst : g.machine = g.state.status)
    (h : Step sc g c g') : Writes g c g' ∧ I g'.state := by
  have hacts : ∀ {a : Action P} {evs s'}, sc.validate g.state a = .ok () →
      (sc.execute a).run g.state = .ok evs s' →
      s'.status = g.state.status ∧ s'.history = g.state.history ∧ I s' := by
    intro a evs s' hv hx
    obtain ⟨_, _, hx', hkeep⟩ := hsc.acts g.state a hI hv
    rw [hx] at hx'
    cases hx'
    exact hkeep
  cases h.outcome hsc.rules with
  | started =>
    refine ⟨.started, ?_⟩
    unfold Game.start
    split
    · exact hsc.frame g.state .playing g.state.history hI
    · exact hI
  | rejected => exact ⟨.idle, hI⟩
  | refused => exact ⟨.idle, hI⟩
  | crashed hv hx =>
    obtain ⟨_, _, hx', -⟩ := hsc.acts _ _ hI hv
    rw [hx] at hx'
    cases hx'
  | @played a primary s hv hx =>
    obtain ⟨hstatus, hhist, hs⟩ := hacts hv hx
    refine ⟨.entry primary [] ?_ ?_ ?_ (.inl ⟨rfl, rfl⟩), hsc.frame s s.status _ hs⟩
    · simp [executed, record, hhist]
    · simp [executed]
    · simpa [executed, record, emitted, hstatus] using hst
  | @won a primary s victory hv hx _ hm =>
    obtain ⟨hstatus, hhist, hs⟩ := hacts hv hx
    refine ⟨.entry primary [{ body := .gameEnded victory }] ?_ ?_ rfl
      (.inr ⟨⟨victory, rfl⟩, hm, rfl⟩), hsc.frame s .ended _ hs⟩
    · simp [executed, record, hhist]
    · simp [executed, emitted, stamp_append, stamp, Nat.add_assoc]
  | @stuck a primary s victory e hv hx =>
    obtain ⟨hstatus, hhist, hs⟩ := hacts hv hx
    refine ⟨.entry primary [] ?_ ?_ ?_ (.inl ⟨rfl, rfl⟩), hsc.frame s s.status _ hs⟩
    · simp [executed, record, hhist]
    · simp [executed]
    · simpa [executed, record, emitted, hstatus] using hst

/-! ## Numbers, events, status -/

omit [HasType P] in
theorem start_journal (g : Game X P E) :
    g.start.state.history = g.state.history ∧ g.start.events = g.events ∧
      (g.start.machine = .ended ↔ g.machine = .ended) := by
  unfold Game.start
  split
  · rename_i hm
    exact ⟨rfl, rfl, by simp [hm]⟩
  · exact ⟨rfl, rfl, Iff.rfl⟩

omit [HasType P] in
theorem stamped_emitted (hnext : g.events.nextSeq = g.events.emitted.length + 1)
    (h : g.events.emitted.map GameEvent.seq = (List.range' 1 g.events.emitted.length).map some)
    (es : List (GameEvent E)) :
    (emitted g es).events.emitted.map GameEvent.seq =
      (List.range' 1 (emitted g es).events.emitted.length).map some := by
  have hlen : (emitted g es).events.emitted.length = g.events.emitted.length + es.length := by
    simp [emitted, stamp_length]
  rw [hlen, ← List.range'_append_1, List.map_append, ← h, Nat.add_comm 1]
  simp only [emitted, List.map_append, stamp_seqs, hnext]

omit [HasType P] in
/-- What was told stays told when a further entry's events are emitted and written down. -/
theorem Told.entry {entry : ActionHistoryEntry P E} (tail : List (GameEvent E)) (h : Told g)
    (hhist : g'.state.history = g.state.history ++ [entry])
    (hev : g'.events.emitted = g.events.emitted ++ (entry.events ++ tail))
    (hend : tail = [] ∧ g'.machine = g.machine ∨
      (∃ e victory, tail = [e] ∧ e.body = .gameEnded victory) ∧ g.machine ≠ .ended ∧
      g'.machine = .ended) :
    Told g' := by
  have hj : journal g' = journal g ++ entry.events := by simp [journal, hhist]
  rcases hend with ⟨rfl, hm⟩ | ⟨⟨e, victory, rfl, hb⟩, hne, hm⟩
  · rw [List.append_nil] at hev
    rcases h with ⟨hne, htold⟩ | ⟨he, pre, post, ended, victory, htold, hb, hpre⟩
    · exact .inl ⟨hm ▸ hne, by rw [hev, hj, htold]⟩
    · refine .inr ⟨hm.trans he, pre, post ++ entry.events, ended, victory, ?_, hb, ?_⟩
      · rw [hev, htold, List.append_assoc, List.cons_append]
      · rw [hj, hpre, List.append_assoc]
  · rcases h with ⟨-, htold⟩ | ⟨he, -⟩
    · refine .inr ⟨hm, journal g', [], e, victory, ?_, hb, (List.append_nil _).symm⟩
      rw [hev, hj, htold, List.append_assoc]
    · exact absurd he hne

omit [HasType P] in
theorem Writes.kept (h : Writes g c g') (hk : Kept g) : Kept g' := by
  cases h with
  | idle => exact hk
  | started =>
    obtain ⟨hh, he, hm⟩ := start_journal g
    refine ⟨by rw [hh]; exact hk.numbered, by rw [he]; exact hk.stamped, by rw [he]; exact hk.next,
      ?_, ?_⟩
    · unfold Game.start
      split
      · rfl
      · exact hk.status
    · have htold := hk.told
      simp only [Told, journal, hh, he, ne_eq, hm] at htold ⊢
      exact htold
  | @entry a r g' primary tail hhist hev hstatus hend =>
    refine ⟨?_, ?_, ?_, hstatus, ?_⟩
    · simp only [hhist, List.map_append, hk.numbered, List.length_append, List.map_cons,
        List.map_nil,
        List.length_cons, List.length_nil, List.range'_concat, Nat.one_mul, Nat.add_comm 1]
    · rw [hev]
      exact stamped_emitted hk.next hk.stamped _
    · rw [hev]
      simp only [emitted, List.length_append, stamp_length, hk.next]
      omega
    · refine hk.told.entry (stamp (g.events.nextSeq + primary.length) tail) hhist ?_ ?_
      · rw [hev]
        simp only [emitted, stamp_append]
      · rcases hend with ⟨rfl, hm⟩ | ⟨⟨victory, rfl⟩, hne, hm⟩
        · exact .inl ⟨rfl, hm⟩
        · exact .inr ⟨⟨_, victory, rfl, rfl⟩, hne, hm⟩

theorem Steady.step (hsc : Steady sc opts I) (h : Step sc g c g') (hI : I g.state ∧ Kept g) :
    I g'.state ∧ Kept g' := by
  obtain ⟨hw, hI'⟩ := hsc.writes hI.1 hI.2.status h
  exact ⟨hI', hw.kept hI.2⟩

theorem Steady.run (hsc : Steady sc opts I) {calls : List (Call P E)}
    (h : Trace (Step sc) g calls g') (hI : I g.state ∧ Kept g) : I g'.state ∧ Kept g' :=
  h.inv (I := fun g => I g.state ∧ Kept g) (fun _ _ _ hI hs => hsc.step hs hI) hI

theorem Steady.new (hsc : Steady sc opts I) {s : GameState X P E}
    (h : createGameState sc opts = .ok s) :
    I (new s).state ∧ Kept (new s) := by
  obtain ⟨hstatus, hhist, hI⟩ := hsc.opens s h
  have hj : s.history.flatMap (·.events) = [] := by rw [hhist]; rfl
  refine ⟨hI, by simp [Game.new, hhist], rfl, rfl, rfl, .inl ⟨?_, hj.symm⟩⟩
  simp [Game.new, hstatus]

/-- In every game a steady scenario reaches, journal entries and events are numbered from 1 without
a gap, the status machine shows the status, and every event that was emitted stands in the journal
once, in the order of emission, but for the one that reports the end: that one was emitted exactly
when the game has ended. -/
theorem journal_exact (hsc : Steady sc opts I) {calls : List (Call P E)}
    (h : RunFrom sc opts calls g) :
    Kept g := by
  obtain ⟨s, hs, htr⟩ := h
  exact (hsc.run htr (hsc.new hs)).2

/-! ## Submitting the journal again -/

omit [HasType P] in
/-- The entries since the end of a journal's beginning are the rest of it. -/
theorem since_eq (hk : Kept g') {pre post : List (ActionHistoryEntry P E)}
    (h : g'.state.history = pre ++ post) : since g'.state pre.length = post := by
  have hnum := hk.numbered
  rw [h, List.length_append, ← List.range'_append_1, List.map_append] at hnum
  obtain ⟨hpre, hpost⟩ := List.append_inj hnum (by simp)
  have hold : pre.filter (pre.length < ·.seq) = [] := by
    refine List.filter_eq_nil_iff.mpr fun e he => ?_
    have hmem := List.mem_map_of_mem (f := ActionHistoryEntry.seq) he
    rw [hpre, List.mem_range'_1] at hmem
    simp only [decide_eq_true_eq]
    omega
  have hnew : post.filter (pre.length < ·.seq) = post := by
    refine List.filter_eq_self.mpr fun e he => ?_
    have hmem := List.mem_map_of_mem (f := ActionHistoryEntry.seq) he
    rw [hpost, List.mem_range'_1] at hmem
    simp only [decide_eq_true_eq]
    omega
  rw [since, h, List.filter_append, hold, hnew, List.nil_append]

omit [HasType P] in
theorem started_of_writes (h : Writes g c g') (hm : g.machine ≠ .setup) : g'.machine ≠ .setup := by
  cases h with
  | idle => exact hm
  | started =>
    unfold Game.start
    rwa [if_neg hm]
  | entry _ _ _ _ _ hend =>
    rcases hend with ⟨-, hsame⟩ | ⟨-, -, hended⟩
    · rwa [hsame]
    · rw [hended]
      decide

/-- On a game that has started, the calls that led on are made good by the entries they have
written. -/
theorem replay_written (hsc : Steady sc opts I) {calls : List (Call P E)}
    (h : Trace (Step sc) g calls g') (hI : I g.state ∧ Kept g) (hm : g.machine ≠ .setup) :
    ∃ entries, g'.state.history = g.state.history ++ entries ∧
      (replay sc g (requests entries)).2 = g' := by
  induction h with
  | nil => exact ⟨[], (List.append_nil _).symm, rfl⟩
  | @cons g g₁ g' c cs hstep _ ih =>
    have hw := (hsc.writes hI.1 hI.2.status hstep).1
    obtain ⟨entries, hhist, hreplay⟩ := ih (hsc.step hstep hI) (started_of_writes hw hm)
    have hrespond : ∀ a r, c = .submit a r → (respond sc g (.submit a)).2 = g₁ := by
      rintro a r rfl
      cases hstep with
      | returned h => simp only [respond, h]
      | threw h => simp only [respond, h]
    cases hw with
    | idle => exact ⟨entries, hhist, hreplay⟩
    | started =>
      unfold Game.start at hhist hreplay
      rw [if_neg hm] at hhist hreplay
      exact ⟨entries, hhist, hreplay⟩
    | @entry a r _ primary tail hwrote _ _ _ =>
      refine ⟨⟨g.state.history.length + 1, a, stamp g.events.nextSeq primary⟩ :: entries, ?_, ?_⟩
      · rw [hhist, hwrote, List.append_assoc]
        rfl
      · simp only [requests, List.map_cons, replay]
        rw [hrespond a r rfl]
        exact hreplay

/-- The tail of the journal, on the game it was written after. -/
theorem replay_since (hsc : Steady sc opts I) {calls : List (Call P E)}
    (h : Trace (Step sc) g calls g') (hI : I g.state ∧ Kept g) (hm : g.machine ≠ .setup) :
    (replay sc g (requests (since g'.state g.state.history.length))).2 = g' := by
  obtain ⟨entries, hhist, hreplay⟩ := replay_written hsc h hI hm
  rw [since_eq (hsc.run h hI).2 hhist]
  exact hreplay

theorem started_run (hsc : Steady sc opts I) {calls : List (Call P E)}
    (h : Trace (Step sc) g calls g') (hI : I g.state ∧ Kept g) (hm : g.machine ≠ .setup) :
    g'.machine ≠ .setup :=
  (h.inv (I := fun g => (I g.state ∧ Kept g) ∧ g.machine ≠ .setup)
    (fun _ _ _ hI hs => ⟨hsc.step hs hI.1,
      started_of_writes (hsc.writes hI.1.1 hI.1.2.status hs).1 hI.2⟩)
    ⟨hI, hm⟩).2

/-- A game that was started first: what it was when it started, and what led on from there. -/
theorem run_started (hsc : Steady sc opts I) {calls : List (Call P E)}
    (h : RunFrom sc opts (.start :: calls) g) :
    ∃ s, createGameState sc opts = .ok s ∧ Trace (Step sc) (Game.new s).start calls g ∧
      (Game.new s).start.state.history = [] ∧ (Game.new s).start.machine ≠ .setup ∧
      (I (Game.new s).start.state ∧ Kept (Game.new s).start) := by
  obtain ⟨s, hs, htr⟩ := h
  obtain ⟨g₁, hstart, hrest⟩ := Trace.cons_iff.mp htr
  cases hstart
  obtain ⟨hstatus, hhist, -⟩ := hsc.opens s hs
  refine ⟨s, hs, hrest, ?_, ?_, hsc.step .start (hsc.new hs)⟩
  · rw [(start_journal _).1, Game.new, hhist]
  · simp [Game.start, Game.new, hstatus]

/-- The whole journal of a game that was started first, on a fresh game of the same options. -/
theorem play_history (hsc : Steady sc opts I) {calls : List (Call P E)}
    (h : RunFrom sc opts (.start :: calls) g) :
    (play sc opts (.start :: requests g.state.history)).map Prod.snd = .ok g := by
  obtain ⟨s, hs, htr, hempty, hm, hI⟩ := run_started hsc h
  obtain ⟨entries, hh, hreplay⟩ := replay_written hsc htr hI hm
  rw [hempty, List.nil_append] at hh
  simp only [play, hs, Except.map, replay, respond, hh, hreplay]

/-- The journal as far as `g'`: all of it rebuilds the game from its setup, and what was written
since `g` carries `g` on. -/
def Replays (sc : Scenario X P E) (opts : GameSetupOptions) (g g' : Game X P E) : Prop :=
  (play sc opts (.start :: requests g'.state.history)).map Prod.snd = .ok g' ∧
    (replay sc g (requests (since g'.state g.state.history.length))).2 = g'

theorem Steady.replays (hsc : Steady sc opts I) {calls later : List (Call P E)}
    (h : RunFrom sc opts (.start :: calls) g) (hlater : Trace (Step sc) g later g') :
    Replays sc opts g g' := by
  obtain ⟨s, hs, htr, -, hm, hI⟩ := run_started hsc h
  exact ⟨play_history hsc (h.append hlater),
    replay_since hsc hlater (hsc.run htr hI) (started_run hsc htr hI hm)⟩

/-! ## Whose actions it holds -/

def Call.action? : Call P E → Option (Action P)
  | .start => none
  | .submit a _ => some a

/-- Only what the validator lets pass is written down. -/
theorem validated_of_written (hr : sc.rules = []) {a : Action P}
    {r : Except JsError (ActionResult E)} (h : Step sc g (.submit a r) g')
    (hwrote : g'.state.history ≠ g.state.history) :
    sc.validate g.state a = .ok () := by
  cases h.outcome hr with
  | rejected => exact absurd rfl hwrote
  | refused => exact absurd rfl hwrote
  | crashed hv => exact hv
  | played hv => exact hv
  | won hv => exact hv
  | stuck hv => exact hv

/-- The entries written along a run are of submitted actions, in their order, and each was valid in
a state of the scenario. -/
theorem Steady.recorded (hsc : Steady sc opts I) {Q : Action P → Prop}
    (hQ : ∀ s a, I s → sc.validate s a = .ok () → Q a) {calls : List (Call P E)}
    (h : Trace (Step sc) g calls g') (hI : I g.state ∧ Kept g) :
    ∃ entries, g'.state.history = g.state.history ++ entries ∧
      (entries.map ActionHistoryEntry.action).Sublist (calls.filterMap Call.action?) ∧
      ∀ e ∈ entries, Q e.action := by
  induction h with
  | nil => exact ⟨[], (List.append_nil _).symm, .slnil, by simp⟩
  | @cons g g₁ g' c cs hstep _ ih =>
    obtain ⟨entries, hhist, hsub, hall⟩ := ih (hsc.step hstep hI)
    have hskip : (entries.map ActionHistoryEntry.action).Sublist
        ((c :: cs).filterMap Call.action?) :=
      hsub.trans ((List.sublist_cons_self c cs).filterMap _)
    cases (hsc.writes hI.1 hI.2.status hstep).1 with
    | idle => exact ⟨entries, hhist, hskip, hall⟩
    | started => exact ⟨entries, (start_journal g).1 ▸ hhist, hskip, hall⟩
    | @entry a r _ primary tail hwrote =>
      have hv : sc.validate g.state a = .ok () :=
        validated_of_written hsc.rules hstep (by rw [hwrote]; simp)
      refine ⟨⟨g.state.history.length + 1, a, stamp g.events.nextSeq primary⟩ :: entries,
        ?_, ?_, ?_⟩
      · rw [hhist, hwrote, List.append_assoc]
        rfl
      · exact hsub.cons_cons a
      · exact List.forall_mem_cons.mpr ⟨hQ g.state a hI.1 hv, hall⟩

/-- The journal of a game, against all that was submitted to it. -/
theorem Steady.journal_calls (hsc : Steady sc opts I) {Q : Action P → Prop}
    (hQ : ∀ s a, I s → sc.validate s a = .ok () → Q a) {calls : List (Call P E)}
    (h : RunFrom sc opts calls g) :
    (g.state.history.map ActionHistoryEntry.action).Sublist (calls.filterMap Call.action?) ∧
      ∀ e ∈ g.state.history, Q e.action := by
  obtain ⟨s, hs, htr⟩ := h
  obtain ⟨entries, hhist, hsub, hall⟩ := hsc.recorded hQ htr (hsc.new hs)
  have hempty : (Game.new s).state.history = [] := (hsc.opens s hs).2.1
  rw [hempty, List.nil_append] at hhist
  rw [hhist]
  exact ⟨hsub, hall⟩

/-! ## Games played -/

/-- A game played from its setup, started first, with what is observed of it. -/
theorem play_started {α : Type} {rs : List (Request P)}
    {f : List (Call P E) × Game X P E → α} {x : α}
    (h : (play sc opts (.start :: rs)).toOption.map f = some x) :
    ∃ calls g, play sc opts (.start :: rs) = .ok (.start :: calls, g) ∧
      RunFrom sc opts (.start :: calls) g ∧
      f (.start :: calls, g) = x := by
  cases hs : createGameState sc opts with
  | error e =>
    rw [play, hs] at h
    cases h
  | ok s =>
    have hplay : play sc opts (.start :: rs) =
        .ok (.start :: (replay sc (Game.new s).start rs).1,
          (replay sc (Game.new s).start rs).2) := by
      simp only [play, hs, Except.map, replay, respond]
    rw [hplay] at h
    exact ⟨_, _, hplay, ⟨s, hs, .cons .start (replay_trace rs _)⟩, Option.some.inj h⟩

end Boardgame.Game
