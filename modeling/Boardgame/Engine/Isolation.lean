import Boardgame.Engine.Fleet

/-!
# Engine.Isolation

A fleet seen from one game of one replica. The replicas share a queue, and each keeps all its games
in one map; nothing of that shows in a game.

* `fate_of_step`: what a step of the fleet does to the game.
* `hosted_alone`: the game is a run of its own scenario, on the commands it was handed.
-/

namespace Boardgame

variable {X P E V : Type}

theorem Game.play_snoc [HasType P] {sc : Scenario X P E} {opts : GameSetupOptions}
    {rs : List (Game.Request P)} {calls : List (Game.Call P E)} {g : Game X P E}
    (h : Game.play sc opts rs = .ok (calls, g)) (r : Game.Request P) :
    Game.play sc opts (rs ++ [r]) =
      .ok (calls ++ [(Game.respond sc g r).1], (Game.respond sc g r).2) := by
  cases hs : createGameState sc opts with
  | error e =>
    rw [Game.play, hs] at h
    cases h
  | ok s =>
    simp only [Game.play, hs, Except.map, Except.ok.injEq] at h ⊢
    rw [Game.replay_append, h]
    rfl

namespace Engine

/-! ## The stretches of a handler -/

/-- What `openGame` holds is the game as it starts. -/
theorem openGame_play [HasType P] {sc : Scenario X P E} {opts : GameSetupOptions}
    {r₀ : Replica X P E V} (h : Replica.openGame sc opts = .ok r₀) :
    Game.play sc opts [.start] = .ok ([.start], r₀.inst.game) := by
  cases hs : createGameState sc opts with
  | error e =>
    rw [Replica.openGame, hs] at h
    cases h
  | ok s =>
    rw [Replica.openGame, hs] at h
    cases h
    rw [Game.play, hs]
    rfl

section Stretch

variable [HasType P] [HasType E] (sc : Scenario X P E)
  {buildView : GameState X P E → List Player → Option VictoryResult → V} {r r' : Replica X P E V}

/-- A replica that holds the game submits the command to it. -/
theorem handleCommand_held (c : Command P) (h : r.held = true) :
    (r.handleCommand sc c).1 = .called (Game.respond sc r.inst.game (.submit c.action)).1 ∧
      (r.handleCommand sc c).2.inst.game = (Game.respond sc r.inst.game (.submit c.action)).2 := by
  rw [Replica.handleCommand, if_pos h]
  refine ⟨rfl, ?_⟩
  dsimp only
  split <;> rfl

/-- One that does not, does nothing. -/
theorem handleCommand_absent (c : Command P) (h : r.held = false) :
    r.handleCommand sc c = (.absent, r) := by
  simp [Replica.handleCommand, h]

omit [HasType P] in
theorem resume_game (h : r.resume buildView = some r') : r'.inst.game = r.inst.game := by
  unfold Replica.resume at h
  split at h <;> cases h <;> rfl

end Stretch

/-! ## A step -/

variable {R : Type} [Strength R] {I : Type} [DecidableEq I]

/-- A step of the fleet with what it was let do. -/
def Fleet.Turn (f : Fleet R I) (l : FleetInput I × FleetMoment I) (f' : Fleet R I) : Prop :=
  f.turn l.1 = some (l.2, f')

/-- What a step of the fleet does to a game of a replica. -/
inductive Fate (f : Fleet R I) (i : I) (gameId : String) :
    FleetInput I × FleetMoment I → Option (Hosted R) → Prop where
  | untouched {l : FleetInput I × FleetMoment I} :
      (∀ msg, l.2 = .handed i msg → msg.gameId = gameId → f.games i gameId = none) →
      Fate f i gameId l (f.games i gameId)
  | opened {id : Registered} {players : List (PlayerId × String)}
      {r₀ : Replica id.Extras id.Payload (id.Event R) id.View} :
      Replica.openGame (id.scenario R) (startingOptions gameId players) = .ok r₀ →
      Fate f i gameId (.createGame i id gameId players, .created) (some ⟨id, r₀⟩)
  | commanded {input : FleetInput I} {msg : CommandMessage} {game : Hosted R} :
      msg.gameId = gameId → f.games i gameId = some game →
      Fate f i gameId (input, .handed i msg)
        (some ⟨game.id, (game.replica.handleCommand (game.id.scenario R) (msg.command game.id)).2⟩)
  | moved {input : FleetInput I} {game : Hosted R} {m : Moment game.id.Payload (game.id.Event R)}
      {replica : Replica game.id.Extras game.id.Payload (game.id.Event R) game.id.View} :
      f.games i gameId = some game →
      Replica.Step (game.id.scenario R) (game.id.buildView R) game.replica m replica →
      m.call? = none →
      replica.inst.game = game.replica.inst.game →
      Fate f i gameId (input, .moved) (some ⟨game.id, replica⟩)

omit [Strength R] in
@[simp] theorem put_games {f : Fleet R I} {i i' : I} {gameId gameId' : String} {game : Hosted R} :
    (f.put i' gameId' game).games i gameId =
      if i = i' ∧ gameId = gameId' then some game else f.games i gameId := rfl

omit [DecidableEq I] in
/-- Only the games of the fleet matter. -/
theorem Fate.of_games {f₀ f : Fleet R I} {i : I} {gameId : String}
    {l : FleetInput I × FleetMoment I} {after : Option (Hosted R)} (h : Fate f i gameId l after)
    (hgames : f.games = f₀.games) :
    Fate f₀ i gameId l after := by
  cases h with
  | untouched hnone =>
    rw [hgames] at hnone ⊢
    exact .untouched hnone
  | opened hopen => exact .opened hopen
  | commanded hid hgame => exact .commanded hid (hgames ▸ hgame)
  | moved hgame hstep hm hsame => exact .moved (hgames ▸ hgame) hstep hm hsame

theorem fate_handle {f : Fleet R I} {i i' : I} {gameId : String} {input : FleetInput I}
    {msg : CommandMessage} :
    Fate f i gameId (input, .handed i' msg) ((f.handle i' msg).2.games i gameId) := by
  cases hgame : f.games i' msg.gameId with
  | none =>
    simp only [Fleet.handle, hgame]
    refine .untouched fun msg' hm hid => ?_
    cases hm
    exact hid ▸ hgame
  | some game =>
    have hgames : (f.handle i' msg).2.games i gameId = if i = i' ∧ gameId = msg.gameId then
        some ⟨game.id, (game.replica.handleCommand (game.id.scenario R) (msg.command game.id)).2⟩
      else f.games i gameId := by
      simp only [Fleet.handle, hgame]
      split <;> rfl
    rw [hgames]
    split
    · rename_i heq
      obtain ⟨rfl, rfl⟩ := heq
      exact .commanded rfl hgame
    · rename_i hne
      refine .untouched fun msg' hm hid => ?_
      cases hm
      exact absurd ⟨rfl, hid.symm⟩ hne

theorem fate_move {f f' : Fleet R I} {input : FleetInput I} {m : FleetMoment I} {i i' : I}
    {gameId gameId' : String} {stretch : (game : Hosted R) →
      Option (Replica game.id.Extras game.id.Payload (game.id.Event R) game.id.View)}
    (hstretch : ∀ game replica, stretch game = some replica →
      ∃ m, Replica.Step (game.id.scenario R) (game.id.buildView R) game.replica m replica ∧
        m.call? = none ∧
        replica.inst.game = game.replica.inst.game)
    (h : f.move i' gameId' stretch = some (m, f')) :
    Fate f i gameId (input, m) (f'.games i gameId) := by
  obtain ⟨game, hgame, h⟩ := Option.bind_eq_some_iff.mp h
  obtain ⟨replica, hreplica, h⟩ := Option.map_eq_some_iff.mp h
  cases h
  rw [put_games]
  split
  · rename_i heq
    obtain ⟨rfl, rfl⟩ := heq
    obtain ⟨m, hstep, hm, hsame⟩ := hstretch game replica hreplica
    exact .moved hgame hstep hm hsame
  · exact .untouched (by simp)

theorem fate_of_turn {f f' : Fleet R I} {l : FleetInput I × FleetMoment I} (h : f.Turn l f') (i : I)
    (gameId : String) :
    Fate f i gameId l (f'.games i gameId) := by
  obtain ⟨input, m⟩ := l
  cases input with
  | createGame i' id gameId' players =>
    cases h
    unfold Fleet.createGame
    split
    · exact .untouched (by simp)
    · rename_i r₀ hopen
      rw [put_games]
      split
      · rename_i heq
        obtain ⟨rfl, rfl⟩ := heq
        exact .opened hopen
      · exact .untouched (by simp)
  | publish =>
    cases h
    exact .untouched (by simp)
  | deliver i' k =>
    obtain ⟨⟨msg, commands⟩, -, heq⟩ := Option.map_eq_some_iff.mp h
    cases heq
    exact fate_handle.of_games rfl
  | settle k =>
    obtain ⟨⟨msg, commands⟩, -, heq⟩ := Option.map_eq_some_iff.mp h
    cases heq
    exact .untouched (by simp)
  | complete i' gameId' =>
    refine fate_move (fun game replica hreplica => ?_) h
    obtain ⟨⟨m, replica'⟩, hm, rfl⟩ := Option.map_eq_some_iff.mp hreplica
    obtain ⟨store, -, heq⟩ := Option.map_eq_some_iff.mp hm
    cases heq
    exact ⟨_, .mk hm, rfl, rfl⟩
  | resume i' gameId' =>
    refine fate_move (fun game replica hreplica => ?_) h
    obtain ⟨⟨m, replica'⟩, hm, rfl⟩ := Option.map_eq_some_iff.mp hreplica
    obtain ⟨_, hresume, heq⟩ := Option.map_eq_some_iff.mp hm
    cases heq
    exact ⟨_, .mk hm, rfl, resume_game hresume⟩

/-! ## Runs -/

/-- A step of a fleet, with its two ends. -/
abbrev FleetRecord (R I : Type) := Record (Fleet R I) (FleetInput I × FleetMoment I)

abbrev FleetRun (rs : List (FleetRecord R I)) (f : Fleet R I) : Prop :=
  Trace (Recorded Fleet.Turn) {} rs f

/-- The message the record hands to the replica for the game, if the replica holds it. -/
def served? (i : I) (gameId : String) (rec : FleetRecord R I) : Option CommandMessage :=
  match rec.label.2 with
  | .handed i' msg =>
    if i' = i ∧ msg.gameId = gameId ∧ rec.before.holds i gameId then some msg else none
  | _ => none

/-- The messages handed to the replica for the game while it held it, in that order. -/
def served (i : I) (gameId : String) (rs : List (FleetRecord R I)) : List CommandMessage :=
  rs.filterMap (served? i gameId)

/-- What the messages ask of a game. -/
def asked (id : Registered) (msgs : List CommandMessage) : List (Game.Request id.Payload) :=
  msgs.map fun msg => .submit (msg.command id).action

/-- The game began at a record of the run and has gone on by itself: its replica has taken its own
stretches `ms` only, and it is where its scenario comes to when it is started with these players and
submitted, one after the other, the commands that the replica was handed for it since. -/
def Alone (i : I) (gameId : String) (rs : List (FleetRecord R I)) (game : Hosted R) : Prop :=
  ∃ pre rec post players r₀ ms, rs = pre ++ rec :: post ∧
    rec.label.1 = .createGame i game.id gameId players ∧
    Replica.openGame (game.id.scenario R) (startingOptions gameId players) = .ok r₀ ∧
    Trace (Replica.Step (game.id.scenario R) (game.id.buildView R)) r₀ ms game.replica ∧
    Game.play (game.id.scenario R) (startingOptions gameId players)
    (.start :: asked game.id (served i gameId post)) =
      .ok (.start :: calls ms, game.replica.inst.game)

variable {rs : List (FleetRecord R I)} {rec : FleetRecord R I} {f f' : Fleet R I} {i : I}
  {gameId : String}

omit [Strength R] in
theorem served_snoc : served i gameId (rs ++ [rec]) = served i gameId rs ++
    (served? i gameId rec).toList := by
  cases h : served? i gameId rec <;> simp [served, h]

omit [Strength R] in
theorem served_none
    (h : ∀ msg, rec.label.2 = .handed i msg → msg.gameId = gameId →
      rec.before.holds i gameId = false) :
    served? i gameId rec = none := by
  unfold served?
  split
  · rename_i i' msg hm
    refine if_neg ?_
    rintro ⟨rfl, hid, hholds⟩
    rw [h msg hm hid] at hholds
    cases hholds
  · rfl

section Alone

variable {game : Hosted R} {mo : Moment game.id.Payload (game.id.Event R)}
  {replica : Replica game.id.Extras game.id.Payload (game.id.Event R) game.id.View}

theorem Alone.idle (h : Alone i gameId rs game) (hnone : served? i gameId rec = none) :
    Alone i gameId (rs ++ [rec]) game := by
  obtain ⟨pre, first, post, players, r₀, ms, rfl, hfirst, hopen, htrace, hplay⟩ := h
  refine ⟨pre, first, post ++ [rec], players, r₀, ms, by simp, hfirst, hopen, htrace, ?_⟩
  rw [served_snoc, hnone, Option.toList_none, List.append_nil]
  exact hplay

/-- A stretch of the game that submits nothing. -/
theorem Alone.moved (h : Alone i gameId rs game) (hnone : served? i gameId rec = none)
    (hstep : Replica.Step (game.id.scenario R) (game.id.buildView R) game.replica mo replica)
    (hcall : mo.call? = none) (hsame : replica.inst.game = game.replica.inst.game) :
    Alone i gameId (rs ++ [rec]) ⟨game.id, replica⟩ := by
  obtain ⟨pre, first, post, players, r₀, ms, rfl, hfirst, hopen, htrace, hplay⟩ := h
  refine ⟨pre, first, post ++ [rec], players, r₀, ms ++ [mo], by simp, hfirst, hopen,
    htrace.snoc hstep, ?_⟩
  have hcalls : calls (ms ++ [mo]) = calls ms := by simp [calls, hcall]
  rw [served_snoc, hnone, Option.toList_none, List.append_nil, hcalls]
  exact hsame ▸ hplay

/-- A stretch that submits the command of a message. -/
theorem Alone.commanded (h : Alone i gameId rs game) {msg : CommandMessage}
    (hone : served? i gameId rec = some msg)
    (hstep : Replica.Step (game.id.scenario R) (game.id.buildView R) game.replica mo replica)
    (hcall : mo.call? =
      some (Game.respond (game.id.scenario R) game.replica.inst.game
        (.submit (msg.command game.id).action)).1)
    (hnext : replica.inst.game =
      (Game.respond (game.id.scenario R) game.replica.inst.game
        (.submit (msg.command game.id).action)).2) :
    Alone i gameId (rs ++ [rec]) ⟨game.id, replica⟩ := by
  obtain ⟨pre, first, post, players, r₀, ms, rfl, hfirst, hopen, htrace, hplay⟩ := h
  refine ⟨pre, first, post ++ [rec], players, r₀, ms ++ [mo], by simp, hfirst, hopen,
    htrace.snoc hstep, ?_⟩
  have hcalls : calls (ms ++ [mo]) = calls ms ++
      [(Game.respond (game.id.scenario R) game.replica.inst.game
        (.submit (msg.command game.id).action)).1] := by
    simp [calls, hcall]
  have hasked : asked game.id (served i gameId post ++ [msg]) =
      asked game.id (served i gameId post) ++ [.submit (msg.command game.id).action] :=
      List.map_append
  rw [served_snoc, hone, Option.toList_some, hcalls, hasked, hnext]
  exact Game.play_snoc hplay _

end Alone

/-- One more step of the fleet. -/
theorem alone_step {l : FleetInput I × FleetMoment I} {game : Hosted R}
    (hI : ∀ game, f.games i gameId = some game → Alone i gameId rs game) (h : f.Turn l f')
    (hgame : f'.games i gameId = some game) : Alone i gameId (rs ++ [⟨f, l, f'⟩]) game := by
  have hfate := fate_of_turn h i gameId
  rw [hgame] at hfate
  generalize hafter : some game = after at hfate
  cases hfate with
  | untouched hnone =>
    refine (hI game hafter.symm).idle (served_none fun msg hm hid => ?_)
    rw [hnone msg hm hid] at hafter
    cases hafter
  | @opened id players r₀ hopen =>
    cases hafter
    exact ⟨rs, _, [], players, r₀, [], rfl, rfl, hopen, .nil, openGame_play hopen⟩
  | @commanded input msg game₀ hid hgame₀ =>
    cases hafter
    have hholds : f.holds i gameId = game₀.replica.held := by simp [Fleet.holds, hgame₀]
    cases hheld : game₀.replica.held with
    | true =>
      obtain ⟨hcall, hnext⟩ := handleCommand_held (game₀.id.scenario R) (msg.command game₀.id) hheld
      have hstep : Replica.Step (game₀.id.scenario R) (game₀.id.buildView R) game₀.replica
          (game₀.replica.handleCommand (game₀.id.scenario R) (msg.command game₀.id)).1
          (game₀.replica.handleCommand (game₀.id.scenario R) (msg.command game₀.id)).2 :=
        .mk (i := .command (msg.command game₀.id)) rfl
      refine (hI game₀ hgame₀).commanded ?_ hstep ?_ hnext
      · simp [served?, hid, hholds, hheld]
      · rw [hcall]
        rfl
    | false =>
      rw [handleCommand_absent _ _ hheld]
      exact (hI game₀ hgame₀).idle (served_none fun _ _ _ => hholds.trans hheld)
  | moved hgame₀ hstep hcall hsame =>
    cases hafter
    exact (hI _ hgame₀).moved (served_none (by simp)) hstep hcall hsame

theorem alone_run (h : FleetRun rs f) {game : Hosted R} (hgame : f.games i gameId = some game) :
    Alone i gameId rs game := by
  have hrun := h.inv_labels
    (I := fun rs (f : Fleet R I) => ∀ game, f.games i gameId = some game → Alone i gameId rs game)
    (fun pre s rec t hI hrec => ?_) [] (by simp)
  · exact hrun game hgame
  · obtain ⟨rfl, rfl, hturn⟩ := Recorded.step_of hrec
    exact fun game hgame => alone_step hI hturn hgame

/-! ## Where the commands come from -/

def FleetMoment.published? : FleetMoment I → Option CommandMessage
  | .published msg => some msg
  | _ => none

def FleetMoment.handed? : FleetMoment I → Option CommandMessage
  | .handed _ msg => some msg
  | _ => none

/-- The messages published, and those handed out, in that order. -/
def sent (rs : List (FleetRecord R I)) : List CommandMessage := rs.filterMap (·.label.2.published?)

def handedOut (rs : List (FleetRecord R I)) : List CommandMessage :=
  rs.filterMap (·.label.2.handed?)

/-- What was published waits or has been handed out, and nothing comes back. -/
structure Couriered (rs : List (FleetRecord R I)) (f : Fleet R I) : Prop where
  final : f.commands.Final
  sent : (f.commands.queue ++ f.commands.handed).Perm (sent rs)
  handed : f.commands.handed.Perm (handedOut rs)

omit [Strength R] [DecidableEq I] in
theorem Couriered.idle {l : FleetInput I × FleetMoment I} (h : Couriered rs f)
    (hsame : f'.commands = f.commands) (hpublished : l.2.published? = none)
    (hhanded : l.2.handed? = none) : Couriered (rs ++ [⟨f, l, f'⟩]) f' where
  final := hsame ▸ h.final
  sent := by simpa [Engine.sent, hpublished, hsame] using h.sent
  handed := by simpa [handedOut, hhanded, hsame] using h.handed

omit [Strength R] [DecidableEq I] in
/-- A message of the queue is handed out. -/
theorem Couriered.deliver {l : FleetInput I × FleetMoment I} {k : Nat} {msg : CommandMessage}
    {commands : Broker CommandMessage} {s : Settlement} (h : Couriered rs f)
    (htake : f.commands.take k = some (msg, commands)) (hl : l.2 = .handed i msg)
    (hs : s ≠ .nack true) (hcommands : f'.commands = commands.hold msg s) :
    Couriered (rs ++ [⟨f, l, f'⟩]) f' := by
  refine ⟨hcommands ▸ Broker.deliver_final h.final htake hs, ?_, ?_⟩
  · have hsent : Engine.sent (rs ++ [(⟨f, l, f'⟩ : FleetRecord R I)]) = Engine.sent rs := by
      simp [Engine.sent, hl, FleetMoment.published?]
    rw [hsent, hcommands]
    exact (Broker.deliver_contents htake s).trans h.sent
  · have hhanded : handedOut (rs ++ [(⟨f, l, f'⟩ : FleetRecord R I)]) = handedOut rs ++ [msg] := by
      simp [handedOut, hl, FleetMoment.handed?]
    rw [hhanded, hcommands]
    exact (Broker.deliver_handed htake s).trans
      ((h.handed.cons msg).trans (List.perm_append_singleton _ _).symm)

theorem couriered_step {l : FleetInput I × FleetMoment I} (h : Couriered rs f)
    (hturn : f.Turn l f') :
    Couriered (rs ++ [⟨f, l, f'⟩]) f' := by
  obtain ⟨input, m⟩ := l
  have hmove : ∀ {i : I} {gameId : String} {stretch : (game : Hosted R) →
      Option (Replica game.id.Extras game.id.Payload (game.id.Event R) game.id.View)},
      f.move i gameId stretch = some (m, f') → Couriered (rs ++ [⟨f, (input, m), f'⟩]) f' := by
    intro i gameId stretch hmove
    obtain ⟨game, -, hmove⟩ := Option.bind_eq_some_iff.mp hmove
    obtain ⟨replica, -, hmove⟩ := Option.map_eq_some_iff.mp hmove
    cases hmove
    exact h.idle rfl rfl rfl
  cases input with
  | createGame i id gameId players =>
    cases hturn
    refine h.idle ?_ rfl rfl
    unfold Fleet.createGame
    split <;> rfl
  | publish gameId userId payload clientSeq =>
    cases hturn
    refine ⟨h.final, ?_, ?_⟩
    · simp only [Broker.publish, Broker.handed, List.append_assoc, Engine.sent,
        List.filterMap_append,
        List.filterMap_cons, List.filterMap_nil, FleetMoment.published?]
      refine List.Perm.trans (List.perm_middle) ?_
      exact ((h.sent.cons _).trans (List.perm_append_singleton _ _).symm)
    · simpa [handedOut, FleetMoment.handed?, Broker.publish, Broker.handed] using h.handed
  | deliver i k =>
    obtain ⟨⟨msg, commands⟩, htake, heq⟩ := Option.map_eq_some_iff.mp hturn
    cases heq
    obtain ⟨hcommands, -, -⟩ := handle_submits i msg { f with commands }
    exact h.deliver htake rfl (settlement_final _) (congrArg (Broker.hold msg _) hcommands)
  | settle k =>
    obtain ⟨⟨msg, commands⟩, hsettle, heq⟩ := Option.map_eq_some_iff.mp hturn
    cases heq
    obtain ⟨hperm, hqueue, hfinal⟩ := Broker.settle_handed h.final hsettle
    refine ⟨hfinal, ?_, ?_⟩
    · have hsent := h.sent
      simp only [Engine.sent, List.filterMap_append, List.filterMap_cons, List.filterMap_nil,
        FleetMoment.published?, List.append_nil]
      rw [hqueue]
      exact (hperm.append_left _).trans hsent
    · have hhanded := h.handed
      simp only [handedOut, List.filterMap_append, List.filterMap_cons, List.filterMap_nil,
        FleetMoment.handed?, List.append_nil]
      exact hperm.trans hhanded
  | complete => exact hmove hturn
  | resume => exact hmove hturn

omit [Strength R] in
theorem served_handedOut : (served i gameId rs).Sublist (handedOut rs) := by
  induction rs with
  | nil => exact .slnil
  | cons rec rs ih =>
    have hserved : ∀ msg, served? i gameId rec = some msg → rec.label.2.handed? = some msg := by
      intro msg h
      unfold served? at h
      split at h
      · rename_i hm
        rw [hm]
        split at h
        · exact h
        · cases h
      · cases h
    cases h : served? i gameId rec with
    | none =>
      rw [served, List.filterMap_cons_none h]
      exact ih.trans ((List.sublist_cons_self rec rs).filterMap _)
    | some msg =>
      have hhanded : handedOut (rec :: rs) = msg :: handedOut rs := by
        simp [handedOut, hserved msg h]
      rw [served, List.filterMap_cons_some h, hhanded]
      exact ih.cons_cons msg

omit [Strength R] in
theorem served_gameId {msg : CommandMessage} (h : msg ∈ served i gameId rs) :
    msg.gameId = gameId := by
  obtain ⟨rec, -, hserved⟩ := List.mem_filterMap.mp h
  unfold served? at hserved
  split at hserved
  · split at hserved
    · rename_i hcond
      cases hserved
      exact hcond.2.1
    · cases hserved
  · cases hserved

/-- What a replica is handed was published, and nothing that was published is handed out twice. -/
theorem handedOut_subperm (h : FleetRun rs f) : (handedOut rs).Subperm (sent rs) := by
  have hrun := h.inv_labels (I := fun rs (f : Fleet R I) => Couriered rs f)
    (fun pre s rec t hI hrec => ?_) []
    ⟨by simp [Broker.Final], .refl _, .refl _⟩
  · rw [List.nil_append] at hrun
    have hout : (handedOut rs).Subperm (f.commands.queue ++ f.commands.handed) :=
      hrun.handed.symm.subperm.trans (List.sublist_append_right _ _).subperm
    exact hout.trans hrun.sent.subperm
  · obtain ⟨rfl, rfl, hturn⟩ := Recorded.step_of hrec
    exact couriered_step hI hturn

theorem served_subperm (h : FleetRun rs f) {post : List (FleetRecord R I)}
    (hpost : post.Sublist rs) :
    (served i gameId post).Subperm (sent rs) :=
  (served_handedOut.trans (hpost.filterMap _)).subperm.trans (handedOut_subperm h)

/-- **A game in a fleet is alone.** In every run of any number of replicas, with any number of games
on each and their handlers interleaved in any way, every game is where its own scenario comes to by
itself: from its setup, started, on the commands its replica was handed for it while it held it, in
that order. Nothing else that the fleet does has touched it, and no command that was published has
come to it twice. -/
theorem hosted_alone (h : FleetRun rs f) {game : Hosted R} (hgame : f.games i gameId = some game) :
    Alone i gameId rs game ∧ (served i gameId rs).Subperm (sent rs) :=
  ⟨alone_run h hgame, served_subperm h (.refl rs)⟩

/-! ## Two games at once -/

/-- A turn, with its input in the label. -/
def Fleet.shoot (f : Fleet R I) (input : FleetInput I) :
    Option ((FleetInput I × FleetMoment I) × Fleet R I) :=
  (f.turn input).map fun m => ((input, m.1), m.2)

theorem shoot_turn {f f' : Fleet R I} {input : FleetInput I} {l : FleetInput I × FleetMoment I}
    (h : f.shoot input = some (l, f')) : f.Turn l f' := by
  obtain ⟨⟨m, f₁⟩, hturn, heq⟩ := Option.map_eq_some_iff.mp h
  cases heq
  exact hturn

/-- Two games on one replica, and three commands, one of them handed to a replica that has no
game. -/
def twoGames : List (FleetInput Nat) :=
  [.createGame 0 .frontier "s8" [("p1", "Ada"), ("p2", "Bo")],
    .createGame 0 .frontier "s9" [("p1", "Ada"), ("p3", "Cy")],
    .publish "s8" "p1" endTurn none, .publish "s9" "p1" endTurn none,
    .publish "s8" "p2" endTurn none,
    .deliver 0 1, .complete 0 "s8", .deliver 0 0, .resume 0 "s8", .deliver 1 0]

theorem twoGames_alone : ∃ (rs : List (FleetRecord ℚ Nat)) (f : Fleet ℚ Nat) (game : Hosted ℚ),
    FleetRun rs f ∧ f.games 0 "s8" = some game ∧
      (served 0 "s8" rs).map CommandMessage.number = [0] ∧
      game.replica.inst.game.state.history.length = 1 ∧
      Alone 0 "s8" rs game ∧ (served 0 "s8" rs).Subperm (sent rs) := by
  have hobserved : (film Fleet.shoot ({} : Fleet ℚ Nat) twoGames).bind (fun m =>
      (m.2.games 0 "s8").map fun game =>
        ((served 0 "s8" m.1).map CommandMessage.number,
          game.replica.inst.game.state.history.length)) =
      some ([0], 1) := by decide +kernel
  obtain ⟨⟨rs, f⟩, hfilm, hobserved⟩ := Option.bind_eq_some_iff.mp hobserved
  obtain ⟨game, hgame, hx⟩ := Option.map_eq_some_iff.mp hobserved
  obtain ⟨hserved, hhistory⟩ := Prod.mk.inj hx
  have hrun : FleetRun rs f := film_trace shoot_turn hfilm
  exact ⟨rs, f, game, hrun, hgame, hserved, hhistory, hosted_alone hrun hgame⟩

end Engine

end Boardgame
