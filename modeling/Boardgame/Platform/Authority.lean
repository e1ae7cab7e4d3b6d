import Boardgame.Platform.System

/-!
# Platform.Authority

Who is behind a move. What the services know of each other goes through tokens and queues; along a
run it all leads back to the account the token was issued to.

* `change_of_step`: what one step does, said once.
* `authorized`: every move of every game is a command of one of its players, sent on a socket that
  shows this player's token; and the players have themselves asked to be in the game.
* `single_owner`: no game is ever on two replicas.
-/

namespace Boardgame.Platform

open Engine (Fleet Registered CommandMessage FleetRun Hosted)

open Realtime (SocketId GameId SocketIo)

variable {bc : Auth.Bcrypt} {jwt : Auth.Jwt} {io : SocketIo} {R G I : Type}

/-! ## What is sent and shown -/

/-- The message a command of a socket is published as. -/
def command? (p : Services bc jwt io R G I) : Input bc jwt G I → Option CommandMessage
  | .gameCommand g socketId gameId payload clientSeq =>
    ((p.gateways g).users.get? socketId).map fun userId =>
    { number := p.fleet.sent, gameId, userId, payload, clientSeq }
  | _ => none

/-- The commands that sockets have sent, in that order. -/
def commands (rs : List (PRecord bc jwt io R G I)) : List CommandMessage :=
  rs.filterMap fun rec => command? rec.before rec.label

/-- The socket has connected with a token of the user, and has not disconnected since. -/
def SpeaksFor (rs : List (PRecord bc jwt io R G I)) (g : G) (socketId : SocketId) (user : String) :
    Prop :=
  ∃ token payload, jwt.verify token = some payload ∧ payload.sub = user ∧
    Since (fun rec : PRecord bc jwt io R G I => rec.label = .connect g socketId (some token))
      (fun rec => rec.label = .disconnect g socketId) rs

/-- The user has asked the lobby for this, with a token of his. -/
def Asks (rs : List (PRecord bc jwt io R G I)) (user : String) (request : LobbyRequest) : Prop :=
  ∃ rec ∈ rs, ∃ token payload, rec.label = .lobby token request ∧ jwt.verify token = some payload ∧
    payload.sub = user

variable [DecidableEq G] [DecidableEq I] [Strength R] {p p' : Services bc jwt io R G I}
  {i : Input bc jwt G I} {rs : List (PRecord bc jwt io R G I)}

/-! ## What a step does -/

/-- Whose operation of the lobby an input is. -/
inductive Calls : Input bc jwt G I → Lobby.Op → Prop where
  | user {token : jwt.Token} {payload : Auth.JwtPayload} {request : LobbyRequest} :
      jwt.verify token = some payload → Calls (.lobby token request) (request.op payload)
  | service {now : Int} : Calls (.purge now) (.purge now)

/-- The users a gateway knows after an event of a socket. -/
def Recognizes (p : Services bc jwt io R G I) (i : Input bc jwt G I) (g : G)
    (gateway : Realtime.Gateway io) : Prop :=
  ∀ socketId user, gateway.users.get? socketId = some user →
    (p.gateways g).users.get? socketId = some user ∧ i ≠ .disconnect g socketId ∨
      ∃ token payload, i = .connect g socketId (some token) ∧ jwt.verify token = some payload ∧
        payload.sub = user

inductive Change (p : Services bc jwt io R G I) : Input bc jwt G I →
    Services bc jwt io R G I → Prop where
  | auth {i : Auth.Input bc} {auth : Auth.AuthService bc jwt} :
      p.auth.turn i = some auth → Change p (.auth i) { p with auth }
  | unauthorized {token : jwt.Token} {request : LobbyRequest} :
      jwt.verify token = none → Change p (.lobby token request) p
  | lobby {i : Input bc jwt G I} {op : Lobby.Op} : Calls i op → op.Fresh p.lobby →
      Change p i (p.runLobby op)
  | gateway {i : Input bc jwt G I} {g : G} {gateway : Realtime.Gateway io} :
      command? p i = none → Recognizes p i g gateway →
      (∀ g' socketId, i = .disconnect g' socketId → g' = g) →
      Change p i (p.setGateway g gateway)
  | engine {i : Input bc jwt G I} {input : Engine.FleetInput I} {m : Engine.FleetMoment I}
      {fleet : Fleet R I} :
      p.fleet.turn input = some (m, fleet) →
      (∀ r id gameId ps, input ≠ .createGame r id gameId ps) →
      m.published? = command? p i → (∀ g socketId, i ≠ .disconnect g socketId) →
      Change p i { p with fleet }
  | started {r : I} {k : Nat} {msg : GameStarting} {starting : Broker GameStarting} :
      p.starting.take k = some (msg, starting) →
      Change p (.start r k)
        { p with
          fleet := (handleStarting r msg p.fleet).2
          starting := starting.hold msg (Engine.settlement (handleStarting r msg p.fleet).1) }
  | settled {k : Nat} {msg : GameStarting} {starting : Broker GameStarting} :
      p.starting.settle k = some (msg, starting) → Change p (.settleStart k) { p with starting }

omit [DecidableEq G] [DecidableEq I] [Strength R] in
theorem recognizes_connect {g : G} {socketId : SocketId} {token : Option jwt.Token} :
    Recognizes p (.connect g socketId token) g
      ((p.gateways g).handleConnection socketId (token.bind Services.user)) := by
  intro socketId' user h
  cases huser : token.bind Services.user with
  | none =>
    rw [huser] at h
    simp only [Realtime.Gateway.handleConnection, Realtime.Gateway.handleDisconnect,
      OrderedMap.get?_erase] at h
    split at h
    · cases h
    · exact .inl ⟨h, by simp⟩
  | some userId =>
    rw [huser] at h
    simp only [Realtime.Gateway.handleConnection, OrderedMap.get?_set] at h
    split at h
    · rename_i heq
      cases h
      obtain ⟨token, rfl, hverify⟩ := Option.bind_eq_some_iff.mp huser
      obtain ⟨payload, hpayload, hsub⟩ := Option.map_eq_some_iff.mp hverify
      exact .inr ⟨token, payload, by rw [heq], hpayload, hsub⟩
    · exact .inl ⟨h, by simp⟩

theorem change_of_step (h : Services.Step p i p') : Change p i p' := by
  obtain ⟨⟨-, hfresh⟩, hturn⟩ := h
  have hengine : ∀ {input : Engine.FleetInput I}, p.runFleet input = some p' →
      (∀ r id gameId ps, input ≠ .createGame r id gameId ps) →
      (∀ m fleet, p.fleet.turn input = some (m, fleet) → m.published? = command? p i) →
      (∀ g socketId, i ≠ .disconnect g socketId) → Change p i p' := by
    intro input hrun hcreate hpublished hdisconnect
    obtain ⟨⟨m, fleet⟩, hfleet, rfl⟩ := Option.map_eq_some_iff.mp hrun
    exact .engine hfleet hcreate (hpublished m fleet hfleet) hdisconnect
  cases i with
  | auth i =>
    obtain ⟨auth, hauth, rfl⟩ := Option.map_eq_some_iff.mp hturn
    exact .auth hauth
  | lobby token request =>
    simp only [Services.turn] at hturn
    split at hturn
    · rename_i hverify
      cases hturn
      exact .unauthorized hverify
    · rename_i payload hverify
      cases hturn
      exact .lobby (.user hverify) (hfresh payload hverify)
  | purge now =>
    cases hturn
    exact .lobby .service trivial
  | connect g socketId token =>
    simp only [Services.turn] at hturn
    split at hturn
    · cases hturn
    · cases hturn
      exact .gateway rfl recognizes_connect (by simp)
  | subscribeGame g socketId gameId =>
    obtain ⟨userId, -, rfl⟩ := Option.map_eq_some_iff.mp hturn
    exact .gateway rfl (fun _ _ h => .inl ⟨h, by simp⟩) (by simp)
  | unsubscribeGame g socketId gameId =>
    obtain ⟨userId, -, rfl⟩ := Option.map_eq_some_iff.mp hturn
    exact .gateway rfl (fun _ _ h => .inl ⟨h, by simp⟩) (by simp)
  | disconnect g socketId =>
    obtain ⟨userId, -, rfl⟩ := Option.map_eq_some_iff.mp hturn
    refine .gateway rfl (fun socketId' user h => ?_) (by simp)
    simp only [Realtime.Gateway.handleDisconnect, OrderedMap.get?_erase] at h
    split at h
    · cases h
    · rename_i hne
      refine .inl ⟨h, fun heq => ?_⟩
      cases heq
      exact hne rfl
  | gameCommand g socketId gameId payload clientSeq =>
    obtain ⟨userId, huser, hrun⟩ := Option.bind_eq_some_iff.mp hturn
    refine hengine hrun (by simp) (fun m fleet hfleet => ?_) (by simp)
    cases hfleet
    simp [command?, huser, Engine.FleetMoment.published?]
  | start r k =>
    obtain ⟨⟨msg, starting⟩, htake, rfl⟩ := Option.map_eq_some_iff.mp hturn
    exact .started htake
  | settleStart k =>
    obtain ⟨⟨msg, starting⟩, hsettle, rfl⟩ := Option.map_eq_some_iff.mp hturn
    exact .settled hsettle
  | deliver r k =>
    refine hengine hturn (by simp) (fun m fleet hfleet => ?_) (by simp)
    obtain ⟨_, -, heq⟩ := Option.map_eq_some_iff.mp hfleet
    cases heq
    rfl
  | settle k =>
    refine hengine hturn (by simp) (fun m fleet hfleet => ?_) (by simp)
    obtain ⟨_, -, heq⟩ := Option.map_eq_some_iff.mp hfleet
    cases heq
    rfl
  | complete r gameId =>
    refine hengine hturn (by simp) (fun m fleet hfleet => ?_) (by simp)
    obtain ⟨_, -, hfleet⟩ := Option.bind_eq_some_iff.mp hfleet
    obtain ⟨_, -, heq⟩ := Option.map_eq_some_iff.mp hfleet
    cases heq
    rfl
  | resume r gameId =>
    refine hengine hturn (by simp) (fun m fleet hfleet => ?_) (by simp)
    obtain ⟨_, -, hfleet⟩ := Option.bind_eq_some_iff.mp hfleet
    obtain ⟨_, -, heq⟩ := Option.map_eq_some_iff.mp hfleet
    cases heq
    rfl

/-! ## Accounts and sockets -/

omit [DecidableEq G] [DecidableEq I] [Strength R] in
theorem turn_users {s s' : Auth.AuthService bc jwt} {i : Auth.Input bc} (h : s.turn i = some s') :
    ∀ row ∈ s.users, row ∈ s'.users := by
  intro row hrow
  cases Auth.effect_of_step (.mk h) with
  | registered => exact List.mem_append_left _ hrow
  | _ => exact hrow

/-- A token that is verified was issued to an account. -/
def Accounts (rs : List (PRecord bc jwt io R G I)) (p : Services bc jwt io R G I) : Prop :=
  ∀ rec ∈ rs, ∀ token payload, rec.label.token? = some token → jwt.verify token = some payload →
    ∃ row ∈ p.auth.users, row.id = payload.sub ∧ row.username = payload.username

theorem kept_step (hk : Auth.Kept p.auth) (h : Change p i p') : Auth.Kept p'.auth := by
  cases h with
  | auth hturn => exact (Auth.effect_of_step (.mk hturn)).kept hk
  | _ => exact hk

theorem users_step (h : Change p i p') : ∀ row ∈ p.auth.users, row ∈ p'.auth.users := by
  cases h with
  | auth hturn => exact turn_users hturn
  | _ => exact fun _ hrow => hrow

omit [DecidableEq G] [DecidableEq I] [Strength R] in
theorem issued_answer {token : jwt.Token} (h : token ∈ p.auth.answers.filterMap issued?) :
    ∃ a ∈ p.auth.answers, ∃ auth, a.response = .ok auth ∧ auth.accessToken = token := by
  obtain ⟨a, ha, hissued⟩ := List.mem_filterMap.mp h
  unfold issued? at hissued
  split at hissued
  · rename_i auth hok
    exact ⟨a, ha, auth, hok, Option.some.inj hissued⟩
  · cases hissued

theorem accounts_step (hk : Auth.Kept p.auth) (ha : Accounts rs p) (hstep : Services.Step p i p') :
    Accounts (rs ++ [⟨p, i, p'⟩]) p' := by
  intro rec hrec token payload htoken hverify
  have hgrow := users_step (change_of_step hstep)
  rcases List.mem_append.mp hrec with hrec | hrec
  · obtain ⟨row, hrow, hid⟩ := ha rec hrec token payload htoken hverify
    exact ⟨row, hgrow row hrow, hid⟩
  · cases List.mem_singleton.mp hrec
    rcases hstep.allowed.1 token htoken with hnone | hissued
    · rw [hnone] at hverify
      cases hverify
    · obtain ⟨a, hanswer, auth, hok, rfl⟩ := issued_answer hissued
      obtain ⟨row, hrow, hnames⟩ := hk.account hanswer hok
      rw [hnames.token, jwt.verify_sign, Option.some.injEq] at hverify
      subst hverify
      exact ⟨row, hgrow row hrow, rfl, rfl⟩

/-- Every socket a gateway knows speaks for the user it is known as. -/
def Spoken (rs : List (PRecord bc jwt io R G I)) (p : Services bc jwt io R G I) : Prop :=
  ∀ g socketId user, (p.gateways g).users.get? socketId = some user → SpeaksFor rs g socketId user

omit [DecidableEq G] [DecidableEq I] [Strength R] in
theorem SpeaksFor.later {g : G} {socketId : SocketId} {user : String}
    (h : SpeaksFor rs g socketId user) (hi : i ≠ .disconnect g socketId) :
    SpeaksFor (rs ++ [⟨p, i, p'⟩]) g socketId user := by
  obtain ⟨token, payload, hverify, hsub, hsince⟩ := h
  exact ⟨token, payload, hverify, hsub, Since.snoc.mpr (.inr ⟨hi, hsince⟩)⟩

theorem spoken_step (hs : Spoken rs p) (h : Change p i p') : Spoken (rs ++ [⟨p, i, p'⟩]) p' := by
  have hsame : p'.gateways = p.gateways → (∀ g socketId, i ≠ .disconnect g socketId) →
      Spoken (rs ++ [⟨p, i, p'⟩]) p' := by
    intro hgateways hi g socketId user huser
    rw [hgateways] at huser
    exact (hs g socketId user huser).later (hi g socketId)
  cases h with
  | auth => exact hsame rfl (by simp)
  | unauthorized => exact hsame rfl (by simp)
  | lobby hcalls => exact hsame rfl (by cases hcalls <;> simp)
  | engine _ _ _ hi => exact hsame rfl hi
  | started => exact hsame rfl (by simp)
  | settled => exact hsame rfl (by simp)
  | @gateway _ g gateway _ hknown hother =>
    intro g' socketId user huser
    simp only [Services.setGateway] at huser
    split at huser
    · rename_i heq
      subst heq
      rcases hknown socketId user huser with ⟨hold, hi⟩ | ⟨token, payload, rfl, hverify, hsub⟩
      · exact (hs g' socketId user hold).later hi
      · exact ⟨token, payload, hverify, hsub, Since.snoc.mpr (.inl rfl)⟩
    · rename_i hne
      refine (hs g' socketId user huser).later fun hi => hne (hother g' socketId hi)

/-! ## The lobby and its queue -/

/-- The lobby has run on what users asked of it, and its game-starting events have been queued. -/
structure Lobbied (rs : List (PRecord bc jwt io R G I)) (p : Services bc jwt io R G I) : Prop where
  run : ∃ lrs, Lobby.LobbyRun lrs p.lobby ∧ ∀ c ∈ lrs, ∃ rec ∈ rs, Calls rec.label c.label
  final : p.starting.Final
  queued : (p.starting.queue ++ p.starting.handed).Perm (p.lobby.published.filterMap starting?)

omit [DecidableEq G] [DecidableEq I] [Strength R] in
theorem Lobbied.later (h : Lobbied rs p) (hlobby : p'.lobby = p.lobby) (hfinal : p'.starting.Final)
    (hqueued : (p'.starting.queue ++ p'.starting.handed).Perm
      (p.starting.queue ++ p.starting.handed)) :
    Lobbied (rs ++ [⟨p, i, p'⟩]) p' := by
  obtain ⟨lrs, hrun, hasked⟩ := h.run
  refine ⟨⟨lrs, hlobby ▸ hrun, fun c hc => ?_⟩, hfinal, hlobby ▸ hqueued.trans h.queued⟩
  obtain ⟨rec, hrec, hcalls⟩ := hasked c hc
  exact ⟨rec, List.mem_append_left _ hrec, hcalls⟩

omit [DecidableEq G] [DecidableEq I] [Strength R] in
theorem lobbied_run {op : Lobby.Op} (h : Lobbied rs p) (hcalls : Calls i op)
    (hfresh : op.Fresh p.lobby) :
    Lobbied (rs ++ [⟨p, i, p.runLobby op⟩]) (p.runLobby op) := by
  obtain ⟨lrs, hrun, hasked⟩ := h.run
  obtain ⟨all, hall, -⟩ := (Lobby.effect_of_exec op).told (Lobby.sound_reachable hrun)
  obtain ⟨hqueue, hhanded, hfinal⟩ := Broker.publish_all
    (((op.exec p.lobby).published.drop p.lobby.published.length).filterMap starting?) p.starting
  refine ⟨⟨lrs ++ [⟨p.lobby, op, op.exec p.lobby⟩], hrun.snoc (.mk (.mk hfresh)), fun c hc => ?_⟩,
    hfinal.mpr h.final, ?_⟩
  · rcases List.mem_append.mp hc with hc | hc
    · obtain ⟨rec, hrec, hcalls⟩ := hasked c hc
      exact ⟨rec, List.mem_append_left _ hrec, hcalls⟩
    · cases List.mem_singleton.mp hc
      exact ⟨_, List.mem_append_right _ (List.mem_singleton_self _), hcalls⟩
  · simp only [Services.runLobby]
    rw [hqueue, hhanded, hall, List.drop_left, List.filterMap_append, List.append_assoc]
    refine (List.perm_append_comm.append_left _).trans ?_
    rw [← List.append_assoc]
    exact h.queued.append_right _

theorem lobbied_step (hl : Lobbied rs p) (h : Change p i p') : Lobbied (rs ++ [⟨p, i, p'⟩]) p' := by
  cases h with
  | auth => exact hl.later rfl hl.final (.refl _)
  | unauthorized => exact hl.later rfl hl.final (.refl _)
  | lobby hcalls hfresh => exact lobbied_run hl hcalls hfresh
  | gateway => exact hl.later rfl hl.final (.refl _)
  | engine => exact hl.later rfl hl.final (.refl _)
  | started htake =>
    exact hl.later rfl (Broker.deliver_final hl.final htake (Engine.settlement_final _))
      (Broker.deliver_contents htake _)
  | settled hsettle =>
    obtain ⟨hperm, hqueue, hfinal⟩ := Broker.settle_handed hl.final hsettle
    exact hl.later rfl hfinal (hqueue ▸ hperm.append_left _)

/-! ## The engine -/

/-- The message has been handed to a replica, and says that this game is to be started. -/
def Told (p : Services bc jwt io R G I) (id : Registered) (gameId : GameId)
    (ps : List (PlayerId × String)) : Prop :=
  ∃ msg ∈ p.starting.handed, msg.gameId = gameId ∧ msg.players = ps ∧
    registered R msg.scenarioId = some id

/-- The fleet has run on the commands of sockets, and has made the games it was told to. -/
def Driven (rs : List (PRecord bc jwt io R G I)) (p : Services bc jwt io R G I) : Prop :=
  ∃ frs, FleetRun frs p.fleet ∧ Engine.sent frs = commands rs ∧
    ∀ c ∈ frs, ∀ r id gameId ps, c.label.1 = .createGame r id gameId ps → Told p id gameId ps

omit [DecidableEq G] [DecidableEq I] in
theorem Told.later {id : Registered} {gameId : GameId} {ps : List (PlayerId × String)}
    (h : Told p id gameId ps) (hhanded : ∀ msg ∈ p.starting.handed, msg ∈ p'.starting.handed) :
    Told p' id gameId ps := by
  obtain ⟨msg, hmsg, hrest⟩ := h
  exact ⟨msg, hhanded msg hmsg, hrest⟩

omit [DecidableEq G] [DecidableEq I] [Strength R] in
theorem commands_snoc : commands (rs ++ [⟨p, i, p'⟩]) = commands rs ++ (command? p i).toList := by
  cases h : command? p i <;> simp [commands, h]

omit [DecidableEq G] in
theorem Driven.later (h : Driven rs p) (hfleet : p'.fleet = p.fleet) (hi : command? p i = none)
    (hhanded : ∀ msg ∈ p.starting.handed, msg ∈ p'.starting.handed) :
    Driven (rs ++ [⟨p, i, p'⟩]) p' := by
  obtain ⟨frs, hrun, hsent, htold⟩ := h
  refine ⟨frs, hfleet ▸ hrun, ?_, fun c hc r id gameId ps hl =>
    (htold c hc r id gameId ps hl).later hhanded⟩
  rw [commands_snoc, hi, Option.toList_none, List.append_nil]
  exact hsent

omit [DecidableEq G] in
/-- The fleet takes a step of its own. -/
theorem Driven.step (h : Driven rs p) {input : Engine.FleetInput I} {m : Engine.FleetMoment I}
    (hturn : p.fleet.turn input = some (m, p'.fleet)) (hpublished : m.published? = command? p i)
    (hhanded : ∀ msg ∈ p.starting.handed, msg ∈ p'.starting.handed)
    (htold : ∀ r id gameId ps, input = .createGame r id gameId ps → Told p' id gameId ps) :
    Driven (rs ++ [⟨p, i, p'⟩]) p' := by
  obtain ⟨frs, hrun, hsent, hold⟩ := h
  refine ⟨frs ++ [⟨p.fleet, (input, m), p'.fleet⟩], hrun.snoc (.mk hturn), ?_,
    fun c hc r id gameId ps hl => ?_⟩
  · rw [commands_snoc, ← hsent, ← hpublished]
    cases hm : m.published? <;> simp [Engine.sent, hm]
  · rcases List.mem_append.mp hc with hc | hc
    · exact (hold c hc r id gameId ps hl).later hhanded
    · cases List.mem_singleton.mp hc
      exact htold r id gameId ps hl

/-- What the handler of a `game-starting` message does: it makes the game, or nothing. -/
theorem handleStarting_cases (r : I) (msg : GameStarting) (f : Fleet R I) :
    (handleStarting r msg f).2 = f ∨
      ∃ id, registered R msg.scenarioId = some id ∧
        (handleStarting r msg f).2 = f.createGame r id msg.gameId msg.players := by
  unfold handleStarting
  split
  · exact .inl rfl
  · rename_i id hid
    split
    · exact .inl rfl
    · exact .inr ⟨id, hid, rfl⟩

theorem driven_step (hl : Lobbied rs p) (hd : Driven rs p) (h : Change p i p') :
    Driven (rs ++ [⟨p, i, p'⟩]) p' := by
  cases h with
  | auth => exact hd.later rfl rfl fun _ hmsg => hmsg
  | unauthorized => exact hd.later rfl rfl fun _ hmsg => hmsg
  | @lobby _ op hcalls =>
    obtain ⟨-, hhanded, -⟩ := Broker.publish_all
      (((op.exec p.lobby).published.drop p.lobby.published.length).filterMap starting?) p.starting
    exact hd.later rfl (by cases hcalls <;> rfl) fun msg hmsg => hhanded ▸ hmsg
  | gateway hi => exact hd.later rfl hi fun _ hmsg => hmsg
  | engine hturn hcreate hpublished =>
    exact hd.step hturn hpublished (fun _ hmsg => hmsg) fun r id gameId ps hl =>
      absurd hl (hcreate r id gameId ps)
  | @started r k msg starting htake =>
    have hhanded := Broker.deliver_handed htake (Engine.settlement (handleStarting r msg p.fleet).1)
    have hgrow : ∀ msg' ∈ p.starting.handed,
        msg' ∈ (starting.hold msg (Engine.settlement (handleStarting r msg p.fleet).1)).handed :=
      fun msg' hmsg' => hhanded.mem_iff.mpr (List.mem_cons_of_mem _ hmsg')
    rcases handleStarting_cases r msg p.fleet with hsame | ⟨id, hid, hmade⟩
    · exact hd.later hsame rfl hgrow
    · have hturn : p.fleet.turn (.createGame r id msg.gameId msg.players) =
          some (.created, (handleStarting r msg p.fleet).2) := by
        rw [hmade]
        rfl
      refine hd.step hturn rfl hgrow fun r' id' gameId ps hinput => ?_
      cases hinput
      exact ⟨msg, hhanded.mem_iff.mpr List.mem_cons_self, rfl, rfl, hid⟩
  | settled hsettle =>
    obtain ⟨hperm, -, -⟩ := Broker.settle_handed hl.final hsettle
    exact hd.later rfl rfl fun _ hmsg => hperm.mem_iff.mpr hmsg

/-! ## Owners -/

/-- Whether a replica has made the game. -/
def Has (p : Services bc jwt io R G I) (r : I) (gameId : GameId) : Prop :=
  (p.fleet.games r gameId).isSome = true

omit [DecidableEq G] in
/-- Only `createGame` makes games, and nothing takes them away. -/
theorem games_turn {f f' : Fleet R I} {input : Engine.FleetInput I} {m : Engine.FleetMoment I}
    (h : f.turn input = some (m, f')) (hne : ∀ r id gameId ps, input ≠ .createGame r id gameId ps)
    (r : I) (gameId : GameId) : (f'.games r gameId).isSome = (f.games r gameId).isSome := by
  have hturn : f.Turn (input, m) f' := h
  have hfate := Engine.fate_of_turn hturn r gameId
  generalize f'.games r gameId = after at hfate
  cases hfate with
  | untouched => rfl
  | opened => exact absurd rfl (hne _ _ _ _)
  | commanded _ hgame => rw [hgame]; rfl
  | moved hgame => rw [hgame]; rfl

theorem games_create {f : Fleet R I} {r : I} {id : Registered} {gameId : GameId}
    {ps : List (PlayerId × String)} (r' : I)
    (gameId' : GameId) : ((f.createGame r id gameId ps).games r' gameId').isSome = true →
      (f.games r' gameId').isSome = true ∨ r' = r ∧ gameId' = gameId := by
  unfold Fleet.createGame
  split
  · exact .inl
  · rw [Engine.put_games]
    split
    · rename_i heq
      exact fun _ => .inr heq
    · exact .inl

/-- A game is on one replica, and the message that asked for it has been handed out. -/
structure Owned (p : Services bc jwt io R G I) : Prop where
  told : ∀ r gameId, Has p r gameId → gameId ∈ p.starting.handed.map GameStarting.gameId
  single : ∀ r r' gameId, Has p r gameId → Has p r' gameId → r = r'

theorem games_grow (h : Change p i p') (r : I) (gameId : GameId) (hhas : Has p r gameId) :
    Has p' r gameId := by
  cases h with
  | engine hturn hcreate =>
    rw [Has, games_turn hturn hcreate]
    exact hhas
  | @started r' k msg starting =>
    rcases handleStarting_cases r' msg p.fleet with hsame | ⟨id, -, hmade⟩
    · rw [Has, hsame]
      exact hhas
    · rw [Has, hmade]
      unfold Fleet.createGame
      split
      · exact hhas
      · rw [Engine.put_games]
        split
        · rfl
        · exact hhas
  | _ => exact hhas

omit [DecidableEq G] [DecidableEq I] [Strength R] in
theorem Owned.later (h : Owned p) (hgames : ∀ r gameId, Has p' r gameId → Has p r gameId)
    (hhanded : ∀ msg ∈ p.starting.handed, msg ∈ p'.starting.handed) : Owned p' where
  told r gameId hhas := by
    obtain ⟨msg, hmsg, hid⟩ := List.mem_map.mp (h.told r gameId (hgames r gameId hhas))
    exact List.mem_map.mpr ⟨msg, hhanded msg hmsg, hid⟩
  single r r' gameId hhas hhas' :=
    h.single r r' gameId (hgames r gameId hhas) (hgames r' gameId hhas')

theorem owned_step (hids : ((p.starting.queue ++ p.starting.handed).map GameStarting.gameId).Nodup)
    (hl : Lobbied rs p) (ho : Owned p) (h : Change p i p') : Owned p' := by
  cases h with
  | auth => exact ho.later (fun _ _ hhas => hhas) fun _ hmsg => hmsg
  | unauthorized => exact ho
  | @lobby _ op =>
    obtain ⟨-, hhanded, -⟩ := Broker.publish_all
      (((op.exec p.lobby).published.drop p.lobby.published.length).filterMap starting?) p.starting
    exact ho.later (fun _ _ hhas => hhas) fun msg hmsg => hhanded ▸ hmsg
  | gateway => exact ho.later (fun _ _ hhas => hhas) fun _ hmsg => hmsg
  | engine hturn hcreate =>
    refine ho.later (fun r gameId hhas => ?_) fun _ hmsg => hmsg
    rw [Has, games_turn hturn hcreate] at hhas
    exact hhas
  | @started r k msg starting htake =>
    have hhanded := Broker.deliver_handed htake (Engine.settlement (handleStarting r msg p.fleet).1)
    have hgrow : ∀ msg' ∈ p.starting.handed,
        msg' ∈ (starting.hold msg (Engine.settlement (handleStarting r msg p.fleet).1)).handed :=
      fun msg' hmsg' => hhanded.mem_iff.mpr (List.mem_cons_of_mem _ hmsg')
    rcases handleStarting_cases r msg p.fleet with hsame | ⟨id, -, hmade⟩
    · refine ho.later (fun r' gameId hhas => ?_) hgrow
      rw [Has, hsame] at hhas
      exact hhas
    · -- The message was still in the queue, so nobody has the game.
      have hnew : ∀ r', ¬ Has p r' msg.gameId := by
        intro r' hhas
        obtain ⟨hqueue, -, -⟩ := Broker.take_queue htake
        rw [List.map_append, List.nodup_append] at hids
        refine hids.2.2 msg.gameId (List.mem_map_of_mem (hqueue.mem_iff.mpr List.mem_cons_self))
          msg.gameId
          (ho.told r' msg.gameId hhas) rfl
      have hmakes :
          ∀ r' gameId, (((handleStarting r msg p.fleet).2.games r' gameId).isSome = true) →
          Has p r' gameId ∨ r' = r ∧ gameId = msg.gameId := by
        intro r' gameId hhas
        rw [hmade] at hhas
        exact games_create r' gameId hhas
      refine ⟨fun r' gameId hhas => ?_, fun r₁ r₂ gameId hhas₁ hhas₂ => ?_⟩
      · rcases hmakes r' gameId hhas with hold | ⟨-, rfl⟩
        · obtain ⟨msg', hmsg', hid⟩ := List.mem_map.mp (ho.told r' gameId hold)
          exact List.mem_map.mpr ⟨msg', hgrow msg' hmsg', hid⟩
        · exact List.mem_map_of_mem (hhanded.mem_iff.mpr List.mem_cons_self)
      · rcases hmakes r₁ gameId hhas₁ with hold₁ | ⟨rfl, rfl⟩
        · rcases hmakes r₂ gameId hhas₂ with hold₂ | ⟨-, rfl⟩
          · exact ho.single r₁ r₂ gameId hold₁ hold₂
          · exact absurd hold₁ (hnew r₁)
        · rcases hmakes r₂ _ hhas₂ with hold₂ | ⟨rfl, -⟩
          · exact absurd hold₂ (hnew r₂)
          · rfl
  | settled hsettle =>
    obtain ⟨hperm, -, -⟩ := Broker.settle_handed hl.final hsettle
    exact ho.later (fun _ _ hhas => hhas) fun _ hmsg => hperm.mem_iff.mpr hmsg

/-! ## Runs -/

/-- What the services know of each other, after the steps `rs`. -/
structure Linked (rs : List (PRecord bc jwt io R G I)) (p : Services bc jwt io R G I) : Prop where
  kept : Auth.Kept p.auth
  accounts : Accounts rs p
  spoken : Spoken rs p
  lobbied : Lobbied rs p
  driven : Driven rs p
  owned : Owned p
  lasting : ∀ rec ∈ rs, ∀ r gameId, Has rec.before r gameId → Has p r gameId

theorem starting_ids (events : List Lobby.LobbyEvent) :
    (events.filterMap starting?).map GameStarting.gameId =
      events.filterMap Lobby.LobbyEvent.startedGame := by
  rw [List.map_filterMap]
  refine congrArg (events.filterMap ·) (funext fun e => ?_)
  cases e <;> rfl

omit [DecidableEq G] [DecidableEq I] [Strength R] in
theorem Lobbied.ids (h : Lobbied rs p) :
    ((p.starting.queue ++ p.starting.handed).map GameStarting.gameId).Nodup := by
  obtain ⟨lrs, hrun, -⟩ := h.run
  rw [(h.queued.map GameStarting.gameId).nodup_iff, starting_ids]
  exact (Lobby.started_agreed hrun).ids

theorem linked_step (h : Linked rs p) (hstep : Services.Step p i p') :
    Linked (rs ++ [⟨p, i, p'⟩]) p' where
  kept := kept_step h.kept (change_of_step hstep)
  accounts := accounts_step h.kept h.accounts hstep
  spoken := spoken_step h.spoken (change_of_step hstep)
  lobbied := lobbied_step h.lobbied (change_of_step hstep)
  driven := driven_step h.lobbied h.driven (change_of_step hstep)
  owned := owned_step h.lobbied.ids h.lobbied h.owned (change_of_step hstep)
  lasting rec hrec r gameId hhas := by
    have hgrow := games_grow (change_of_step hstep) r gameId
    rcases List.mem_append.mp hrec with hrec | hrec
    · exact hgrow (h.lasting rec hrec r gameId hhas)
    · cases List.mem_singleton.mp hrec
      exact hgrow hhas

theorem linked_run (h : PlatformRun rs p) : Linked rs p := by
  have hrun := h.inv_labels (I := Linked) (fun pre s rec t hI hrec => ?_) []
    { kept := Auth.kept_start
      accounts := by simp [Accounts]
      spoken := by simp [Spoken]
      lobbied := ⟨⟨[], .nil, by simp⟩, by simp [Broker.Final], .refl _⟩
      driven := ⟨[], .nil, rfl, by simp⟩
      owned := ⟨by simp [Has], by simp [Has]⟩
      lasting := by simp }
  · exact hrun
  · obtain ⟨rfl, rfl, hstep⟩ := Recorded.step_of hrec
    exact linked_step hI hstep

omit [DecidableEq G] in
/-- Every game a replica has is one the lobby has started, made of the players the lobby names, and
it has been given commands that were sent to it, none of them twice. -/
theorem Linked.begun (h : Linked rs p) {r : I} {gameId : GameId} {game : Hosted R}
    (hgame : p.fleet.games r gameId = some game) :
    ∃ roomId scenarioId ps msgs calls, .gameStarting roomId gameId scenarioId ps ∈
      p.lobby.published ∧
      registered R scenarioId = some game.id ∧
      msgs.Subperm ((commands rs).filter (·.gameId = gameId)) ∧
      Game.play (game.id.scenario R) (Engine.startingOptions gameId ps)
        (.start :: Engine.asked game.id msgs) =
        .ok (calls, game.replica.inst.game) := by
  obtain ⟨frs, hrun, hsent, htold⟩ := h.driven
  obtain ⟨pre, first, post, ps, r₀, ms, rfl, hfirst, -, -, hplay⟩ := Engine.alone_run hrun hgame
  obtain ⟨msg, hmsg, rfl, rfl, hid⟩ :=
    htold first (List.mem_append_right _ List.mem_cons_self) r game.id gameId ps hfirst
  have hserved : (Engine.served r msg.gameId post).Subperm
      ((commands rs).filter (·.gameId = msg.gameId)) := by
    have hsub : (Engine.served r msg.gameId post).Subperm (commands rs) :=
      hsent ▸ Engine.served_subperm hrun
      ((List.sublist_cons_self first post).trans (List.sublist_append_right pre _))
    have hall : (Engine.served r msg.gameId post).filter (·.gameId = msg.gameId) =
        Engine.served r msg.gameId post :=
      List.filter_eq_self.mpr fun _ hmsg => decide_eq_true (Engine.served_gameId hmsg)
    exact hall ▸ hsub.filter _
  obtain ⟨e, he, hstarting⟩ :=
    List.mem_filterMap.mp (h.lobbied.queued.mem_iff.mp (List.mem_append_right _ hmsg))
  cases e with
  | gameStarting roomId gameId scenarioId ps =>
    cases hstarting
    exact ⟨roomId, scenarioId, ps, _, _, he, hid, hserved, hplay⟩
  | _ => cases hstarting

/-! ## Who is behind a move -/

/-- The user has an account, and has asked with a token of his to come into the room and to be
ready. -/
structure Consents (rs : List (PRecord bc jwt io R G I)) (p : Services bc jwt io R G I)
    (roomId : Lobby.RoomId) (user : String) : Prop where
  account : ∃ row ∈ p.auth.users, row.id = user
  came : (∃ now body, Asks rs user (.create roomId now body)) ∨ Asks rs user (.join roomId)
  ready : Asks rs user (.ready roomId true)

/-- The room's players have all agreed to the game, one of them has started it, and every entry of
its journal is of one of them. -/
structure Table (rs : List (PRecord bc jwt io R G I)) (p : Services bc jwt io R G I)
    (gameId : GameId) (game : Hosted R) (roomId : Lobby.RoomId) (ps : List (PlayerId × String)) :
    Prop where
  distinct : (ps.map Prod.fst).Nodup
  consents : ∀ user ∈ ps.map Prod.fst, Consents rs p roomId user
  started : ∃ user ∈ ps.map Prod.fst, Asks rs user (.start gameId roomId)
  entries : ∀ entry ∈ game.replica.inst.game.state.history,
    ∃ user ∈ ps.map Prod.fst, entry.action.playerId = some user

/-- The journal of a game holds commands that sockets have sent to it, none of them twice, each
under the user whose token the socket has shown; and its players are those of a room that has agreed
to it. -/
structure Authorized (rs : List (PRecord bc jwt io R G I)) (p : Services bc jwt io R G I)
    (gameId : GameId) (game : Hosted R) : Prop where
  sent : (game.replica.inst.game.state.history.map ActionHistoryEntry.action).Subperm
    (((commands rs).filter (·.gameId = gameId)).map fun msg => (msg.command game.id).action)
  spoken : ∀ pre rec post msg, rs = pre ++ rec :: post → command? rec.before rec.label = some msg →
    ∃ g socketId, rec.label = .gameCommand g socketId msg.gameId msg.payload msg.clientSeq ∧
      SpeaksFor pre g socketId msg.userId ∧ ∃ row ∈ p.auth.users, row.id = msg.userId
  table : ∃ roomId ps, Table rs p gameId game roomId ps

omit [DecidableEq G] [DecidableEq I] [Strength R] in
theorem Asks.account {user : String} {request : LobbyRequest} (h : Asks rs user request)
    (ha : Accounts rs p) :
    ∃ row ∈ p.auth.users, row.id = user := by
  obtain ⟨rec, hrec, token, payload, hlabel, hverify, rfl⟩ := h
  obtain ⟨row, hrow, hid, -⟩ := ha rec hrec token payload (by rw [hlabel]; rfl) hverify
  exact ⟨row, hrow, hid⟩

/-! ### What the lobby did, somebody asked for -/

theorem LobbyRequest.op_user (payload : Auth.JwtPayload) (request : LobbyRequest) :
    (request.op payload).user = some payload.sub := by
  cases request <;> rfl

omit [DecidableEq G] [DecidableEq I] [Strength R] in
theorem Calls.asks {rec : PRecord bc jwt io R G I} {op : Lobby.Op} {user : String}
    (h : Calls rec.label op) (hrec : rec ∈ rs) (huser : op.user = some user) :
    ∃ request payload, op = LobbyRequest.op payload request ∧ payload.sub = user ∧
      Asks rs user request := by
  generalize hlabel : rec.label = label at h
  cases h with
  | service => cases huser
  | @user token payload request hverify =>
    rw [LobbyRequest.op_user, Option.some.injEq] at huser
    exact ⟨request, payload, rfl, huser, rec, hrec, token, payload, hlabel, hverify, huser⟩

omit [DecidableEq G] [DecidableEq I] [Strength R] in
theorem Lobbied.asked (h : Lobbied rs p) {e : Lobby.LobbyEvent} (he : e ∈ p.lobby.published) :
    ∃ op, op.Tells e ∧ ∀ user, op.user = some user →
      ∃ request payload, op = LobbyRequest.op payload request ∧ payload.sub = user ∧
        Asks rs user request := by
  obtain ⟨lrs, hrun, hcalls⟩ := h.run
  obtain ⟨c, hc, htells⟩ := (Lobby.started_agreed hrun).asked e he
  obtain ⟨rec, hrec, hcall⟩ := hcalls c hc
  exact ⟨c.label, htells, fun user huser => hcall.asks hrec huser⟩

section Asked

variable {roomId : Lobby.RoomId} {user : String}

omit [DecidableEq G] [DecidableEq I] [Strength R] in
theorem Lobbied.asked_ready (h : Lobbied rs p) {answer : Bool}
    (he : .playerReady roomId user answer ∈ p.lobby.published) :
    Asks rs user (.ready roomId answer) := by
  obtain ⟨op, rfl, hasked⟩ := h.asked he
  obtain ⟨request, payload, hop, -, hasks⟩ := hasked user rfl
  cases request with
  | ready => cases hop; exact hasks
  | _ => cases hop

omit [DecidableEq G] [DecidableEq I] [Strength R] in
theorem Lobbied.asked_join (h : Lobbied rs p) (he : .playerJoined roomId user ∈ p.lobby.published) :
    Asks rs user (.join roomId) := by
  obtain ⟨op, ⟨name, rfl⟩, hasked⟩ := h.asked he
  obtain ⟨request, payload, hop, -, hasks⟩ := hasked user rfl
  cases request with
  | join => cases hop; exact hasks
  | _ => cases hop

omit [DecidableEq G] [DecidableEq I] [Strength R] in
theorem Lobbied.asked_create (h : Lobbied rs p)
    (he : .roomCreated roomId user ∈ p.lobby.published) :
    ∃ now body, Asks rs user (.create roomId now body) := by
  obtain ⟨op, ⟨now, name, req, rfl⟩, hasked⟩ := h.asked he
  obtain ⟨request, payload, hop, -, hasks⟩ := hasked user rfl
  cases request with
  | create => cases hop; exact ⟨_, _, hasks⟩
  | _ => cases hop

omit [DecidableEq G] [DecidableEq I] [Strength R] in
theorem Lobbied.asked_start (h : Lobbied rs p) {gameId scenarioId : String}
    {ps : List (PlayerId × String)}
    (he : .gameStarting roomId gameId scenarioId ps ∈ p.lobby.published) :
    ∃ user ∈ ps.map Prod.fst, Asks rs user (.start gameId roomId) := by
  obtain ⟨op, ⟨host, hhost, rfl⟩, hasked⟩ := h.asked he
  obtain ⟨request, payload, hop, -, hasks⟩ := hasked host rfl
  cases request with
  | start => cases hop; exact ⟨_, hhost, hasks⟩
  | _ => cases hop

end Asked

omit [DecidableEq G] [DecidableEq I] [Strength R] in
/-- The players of a game that has started have consented to it. -/
theorem Lobbied.consents (h : Lobbied rs p) (ha : Accounts rs p) {roomId gameId scenarioId : String}
    {ps : List (PlayerId × String)}
    (he : .gameStarting roomId gameId scenarioId ps ∈ p.lobby.published) :
    (ps.map Prod.fst).Nodup ∧ ∀ user ∈ ps.map Prod.fst, Consents rs p roomId user := by
  obtain ⟨lrs, hrun, -⟩ := h.run
  obtain ⟨hdistinct, hcame, hready⟩ :=
    (Lobby.started_agreed hrun).agreed roomId gameId scenarioId ps he
  refine ⟨hdistinct, fun user huser => ?_⟩
  have hasks := h.asked_ready (hready user huser)
  exact ⟨hasks.account ha, (hcame user huser).imp h.asked_create h.asked_join, hasks⟩

/-! ### Commands and their sockets -/

theorem spoken_before {pre post : List (PRecord bc jwt io R G I)} {rec : PRecord bc jwt io R G I}
    (h : PlatformRun rs p) (ha : Accounts rs p) (hrs : rs = pre ++ rec :: post)
    {msg : CommandMessage} (hmsg : command? rec.before rec.label = some msg) :
    ∃ g socketId, rec.label = .gameCommand g socketId msg.gameId msg.payload msg.clientSeq ∧
      SpeaksFor pre g socketId msg.userId ∧ ∃ row ∈ p.auth.users, row.id = msg.userId := by
  subst hrs
  obtain ⟨t, hpre, hpost⟩ := Trace.append_iff.mp h
  obtain ⟨t', hrec, -⟩ := Trace.cons_iff.mp hpost
  obtain ⟨rfl, -, -⟩ := Recorded.step_of hrec
  have hspoken := (linked_run hpre).spoken
  unfold command? at hmsg
  split at hmsg
  · rename_i g socketId gameId payload clientSeq hlabel
    obtain ⟨userId, huser, rfl⟩ := Option.map_eq_some_iff.mp hmsg
    have hspeaks := hspoken g socketId userId huser
    obtain ⟨token, payload, hverify, rfl, before, opening, after, hopening, hconnect, -⟩ :=
      id hspeaks
    obtain ⟨row, hrow, hid, -⟩ :=
      ha opening (by simp [hopening]) token payload (by rw [hconnect]; rfl) hverify
    exact ⟨g, socketId, hlabel, hspeaks, row, hrow, hid⟩
  · cases hmsg

/-- **Who is behind a move.** In every run of the platform, whoever sends what and however the
queues deliver it: each entry of a game's journal is a command that somebody sent to this game, and
no command makes two entries; each command was sent on a socket that had shown a token of the user
it is recorded under, who has an account; and the entries are of players who have themselves asked
to come into the game's room and said that they are ready, one of whom has started the game. -/
theorem authorized (h : PlatformRun rs p) {r : I} {gameId : GameId} {game : Hosted R}
    (hgame : p.fleet.games r gameId = some game) : Authorized rs p gameId game := by
  have hlinked := linked_run h
  obtain ⟨roomId, scenarioId, ps, msgs, calls, he, hid, hsub, hplay⟩ := hlinked.begun hgame
  obtain ⟨hdistinct, hconsents⟩ := hlinked.lobbied.consents hlinked.accounts he
  obtain ⟨hjournal, hentries⟩ := game.id.journal hdistinct hplay
  obtain ⟨kept, hperm, hkept⟩ := hsub
  exact
    { sent := hjournal.subperm.trans ((hperm.map _).symm.subperm.trans (hkept.map _).subperm)
      spoken := fun pre rec post msg hrs hmsg => spoken_before h hlinked.accounts hrs hmsg
      table := ⟨roomId, ps, hdistinct, hconsents, hlinked.lobbied.asked_start he, hentries⟩ }

/-- **One owner.** No two replicas ever make the same game, at the same or at different moments of a
run, and every game a replica has is one the lobby has started, under an id it has given once. -/
theorem single_owner (h : PlatformRun rs p) {r : I} {gameId : GameId} (hhas : Has p r gameId) :
    (∀ rec ∈ rs, ∀ r', Has rec.before r' gameId → r' = r) ∧
      (p.lobby.published.filterMap Lobby.LobbyEvent.startedGame).count gameId = 1 := by
  have hlinked := linked_run h
  refine ⟨fun rec hrec r' hhas' =>
    hlinked.owned.single r' r gameId (hlinked.lasting rec hrec r' gameId hhas') hhas, ?_⟩
  obtain ⟨lrs, hrun, -⟩ := hlinked.lobbied.run
  refine List.count_eq_one_of_mem (Lobby.started_agreed hrun).ids ?_
  rw [← starting_ids, ← (hlinked.lobbied.queued.map GameStarting.gameId).mem_iff, List.map_append]
  exact List.mem_append_right _ (hlinked.owned.told r gameId hhas)

/-! ## An evening -/

instance : DecidableEq Auth.readable.Token := inferInstanceAs (DecidableEq Auth.JwtPayload)

abbrev Small := Services Auth.plain Auth.readable Realtime.inMemory ℚ Unit Nat

def ann : Auth.readable.Token := (⟨"u1", "ann"⟩ : Auth.JwtPayload)

def ben : Auth.readable.Token := (⟨"u2", "ben"⟩ : Auth.JwtPayload)

/-- Two accounts, a room, a game, and two commands of which the second is out of turn. -/
def firstEvening : List (Input Auth.plain Auth.readable Unit Nat) :=
  [.auth (.request (.register ⟨"ann", "red", none⟩)),
    .auth (.request (.register ⟨"ben", "blue", none⟩)),
    .auth (.resume 0 () ""), .auth (.resume 1 () ""), .auth (.resume 0 () ""),
    .auth (.resume 1 () ""),
    .auth (.resume 0 () "u1"), .auth (.resume 1 () "u2"),
    .lobby ann (.create "room" 0 ⟨"Evening", "demo-v1", 2⟩), .lobby ben (.join "room"),
    .lobby ann (.ready "room" true), .lobby ben (.ready "room" true),
    .lobby ann (.start "s8" "room"), .start 1 0,
    .connect () "one" (some ann), .connect () "two" (some ben),
    .gameCommand () "one" "s8" Engine.endTurn none,
    .gameCommand () "one" "s8" Engine.endTurn none, .deliver 1 1, .deliver 1 0]

theorem firstEvening_run :
    ∃ (rs : List (PRecord Auth.plain Auth.readable Realtime.inMemory ℚ Unit Nat)) (p : Small)
    (game : Hosted ℚ), PlatformRun rs p ∧ p.fleet.games 1 "s8" = some game ∧
      game.replica.inst.game.state.history.length = 1 := by
  have hobserved : (film Services.shoot ({} : Small) firstEvening).bind (fun m =>
      (m.2.fleet.games 1 "s8").map fun game => game.replica.inst.game.state.history.length) =
      some 1 := by
    decide +kernel
  obtain ⟨⟨rs, p⟩, hfilm, hobserved⟩ := Option.bind_eq_some_iff.mp hobserved
  obtain ⟨game, hgame, hx⟩ := Option.map_eq_some_iff.mp hobserved
  exact ⟨rs, p, game, film_trace Services.shoot_step hfilm, hgame, hx⟩

theorem firstEvening_authorized :
    ∃ (rs : List (PRecord Auth.plain Auth.readable Realtime.inMemory ℚ Unit Nat))
    (p : Small) (game : Hosted ℚ), PlatformRun rs p ∧
      game.replica.inst.game.state.history.length = 1 ∧
      Authorized rs p "s8" game := by
  obtain ⟨rs, p, game, hrun, hgame, hone⟩ := firstEvening_run
  exact ⟨rs, p, game, hrun, hone, authorized hrun hgame⟩

theorem firstEvening_owner :
    ∃ (rs : List (PRecord Auth.plain Auth.readable Realtime.inMemory ℚ Unit Nat))
    (p : Small), PlatformRun rs p ∧ Has p 1 "s8" ∧
      (∀ rec ∈ rs, ∀ r', Has rec.before r' "s8" → r' = 1) ∧
      (p.lobby.published.filterMap Lobby.LobbyEvent.startedGame).count "s8" = 1 := by
  obtain ⟨rs, p, game, hrun, hgame, -⟩ := firstEvening_run
  have hhas : Has p 1 "s8" := by rw [Has, hgame]; rfl
  exact ⟨rs, p, hrun, hhas, single_owner hrun hhas⟩

end Boardgame.Platform
