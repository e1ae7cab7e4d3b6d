import Boardgame.Lib.Trace
import Boardgame.Realtime.Gateway

/-!
# Realtime.Delivery

Which sockets a message of the bus reaches, said of the events the gateway has handled.

* `attach_listed`, `detach_listed`, `removeSocket_listed`: the registry, one lemma per operation.
* `inv_step`: what is kept agrees with what has happened.
* `delivery`: the registry is consistent, and a message goes to the right sockets.
-/

namespace Boardgame.Realtime

/-! ## The registry -/

namespace RoomRegistry

variable {r : RoomRegistry} {gameId gameId' : GameId} {sid sid' : SocketId} {user : UserId}

/-- The user a socket is listed with under a game. -/
def listed (r : RoomRegistry) (gameId : GameId) (sid : SocketId) : Option UserId :=
  (r.socketsForGame gameId).get? sid

theorem addGame_mem {games : List GameId} : gameId' ∈ addGame games gameId ↔
    gameId' = gameId ∨ gameId' ∈ games := by
  unfold addGame
  split
  · rename_i h
    exact ⟨.inr, fun hor => hor.elim (fun heq => heq ▸ h) id⟩
  · simp [or_comm]

theorem attach_listed : (r.attach gameId sid user).listed gameId' sid' =
    if gameId' = gameId ∧ sid' = sid then some user else r.listed gameId' sid' := by
  simp only [listed, socketsForGame, attach, OrderedMap.get?_set]
  by_cases hg : gameId' = gameId
  · subst hg
    simp [OrderedMap.get?_set]
  · simp [hg]

theorem attach_games : gameId' ∈ (r.attach gameId sid user).gamesOf sid' ↔
    gameId' = gameId ∧ sid' = sid ∨ gameId' ∈ r.gamesOf sid' := by
  simp only [gamesOf, attach, OrderedMap.get?_set]
  by_cases hs : sid' = sid
  · subst hs
    simp [addGame_mem]
  · simp [hs]

/-- Taking a socket off a game in `byGame`. -/
theorem modify_erase (byGame : OrderedMap GameId (OrderedMap SocketId UserId)) :
    (((byGame.modify gameId (·.erase sid)).get? gameId').getD ∅).get? sid' =
      if gameId' = gameId ∧ sid' = sid then none else ((byGame.get? gameId').getD ∅).get? sid' := by
  rw [OrderedMap.get?_modify]
  by_cases hg : gameId' = gameId
  · subst hg
    cases byGame.get? gameId' with
    | none => simp
    | some sockets => simp [OrderedMap.get?_erase]
  · simp [hg]

theorem detach_listed : (r.detach gameId sid).listed gameId' sid' =
    if gameId' = gameId ∧ sid' = sid then none else r.listed gameId' sid' := modify_erase r.byGame

theorem detach_games : gameId' ∈ (r.detach gameId sid).gamesOf sid' ↔
    gameId' ∈ r.gamesOf sid' ∧ ¬ (gameId' = gameId ∧ sid' = sid) := by
  simp only [gamesOf, detach, OrderedMap.get?_modify]
  by_cases hs : sid' = sid
  · subst hs
    cases r.bySocket.get? sid' <;> simp
  · simp [hs]

theorem removeSocket_listed : (r.removeSocket sid).listed gameId' sid' =
    if gameId' ∈ r.gamesOf sid ∧ sid' = sid then none else r.listed gameId' sid' := by
  have hloop : ∀ (games : List GameId) (byGame : OrderedMap GameId (OrderedMap SocketId UserId)),
      (((games.foldl (fun byGame gameId => byGame.modify gameId (·.erase sid)) byGame).get?
        gameId').getD ∅).get? sid' =
        if gameId' ∈ games ∧ sid' = sid then none
        else ((byGame.get? gameId').getD ∅).get? sid' := by
    intro games
    induction games with
    | nil => simp
    | cons gameId games ih =>
      intro byGame
      rw [List.foldl_cons, ih, modify_erase]
      by_cases hs : sid' = sid
      · by_cases hg : gameId' = gameId <;> by_cases hin : gameId' ∈ games <;> simp [hs, hg, hin]
      · simp [hs]
  cases h : r.bySocket.get? sid with
  | none => simp [removeSocket, gamesOf, h]
  | some games =>
    simp only [listed, socketsForGame, removeSocket, gamesOf, h, Option.getD_some]
    exact hloop games r.byGame

theorem removeSocket_games : gameId' ∈ (r.removeSocket sid).gamesOf sid' ↔
    gameId' ∈ r.gamesOf sid' ∧ sid' ≠ sid := by
  cases h : r.bySocket.get? sid with
  | none =>
    simp only [removeSocket, h, gamesOf]
    refine ⟨fun hin => ⟨hin, ?_⟩, And.left⟩
    rintro rfl
    simp [h] at hin
  | some games =>
    simp only [removeSocket, h, gamesOf, OrderedMap.get?_erase]
    by_cases hs : sid' = sid <;> simp [hs]

end RoomRegistry

/-! ## What has happened -/

/-- The socket has connected as the user, and has not disconnected since. -/
def ConnectedAs (events : List SocketEvent) (sid : SocketId) (user : UserId) : Prop :=
  Since (· = .connect sid (some user)) (· = .disconnect sid) events

/-- The socket has subscribed to the game, and has neither unsubscribed nor disconnected since. -/
def Subscribed (events : List SocketEvent) (sid : SocketId) (gameId : GameId) : Prop :=
  Since (· = .subscribeGame sid gameId) (fun e => e = .unsubscribeGame sid gameId ∨
    e = .disconnect sid) events

section After

variable {events : List SocketEvent} {sid sid' : SocketId} {user : UserId} {gameId gameId' : GameId}

theorem connectedAs_connect {who : Option UserId} :
    ConnectedAs (events ++ [.connect sid who]) sid' user ↔
    sid' = sid ∧ who = some user ∨ ConnectedAs events sid' user := by
  simp [ConnectedAs, Since.snoc, eq_comm (a := sid)]

theorem connectedAs_subscribe :
    ConnectedAs (events ++ [.subscribeGame sid gameId]) sid' user ↔
    ConnectedAs events sid' user := by
  simp [ConnectedAs, Since.snoc]

theorem connectedAs_unsubscribe :
    ConnectedAs (events ++ [.unsubscribeGame sid gameId]) sid' user ↔
    ConnectedAs events sid' user := by
  simp [ConnectedAs, Since.snoc]

theorem connectedAs_disconnect :
    ConnectedAs (events ++ [.disconnect sid]) sid' user ↔
    ConnectedAs events sid' user ∧ sid' ≠ sid := by
  simp [ConnectedAs, Since.snoc, and_comm, eq_comm (a := sid)]

theorem subscribed_connect {who : Option UserId} :
    Subscribed (events ++ [.connect sid who]) sid' gameId' ↔ Subscribed events sid' gameId' := by
  simp [Subscribed, Since.snoc]

theorem subscribed_subscribe : Subscribed (events ++ [.subscribeGame sid gameId]) sid' gameId' ↔
    gameId' = gameId ∧ sid' = sid ∨ Subscribed events sid' gameId' := by
  simp [Subscribed, Since.snoc, and_comm, eq_comm (a := sid), eq_comm (a := gameId)]

theorem subscribed_unsubscribe : Subscribed (events ++ [.unsubscribeGame sid gameId]) sid' gameId' ↔
    Subscribed events sid' gameId' ∧ ¬ (gameId' = gameId ∧ sid' = sid) := by
  simp only [Subscribed, Since.snoc, reduceCtorEq, SocketEvent.unsubscribeGame.injEq,
    or_false, false_or]
  rw [and_comm, and_comm (a := sid = sid'), eq_comm (a := sid), eq_comm (a := gameId)]

theorem subscribed_disconnect : Subscribed (events ++ [.disconnect sid]) sid' gameId' ↔
    Subscribed events sid' gameId' ∧ sid' ≠ sid := by
  simp [Subscribed, Since.snoc, and_comm, eq_comm (a := sid)]

end After

/-! ## Rooms -/

theorem gameRoom_injective : Function.Injective gameRoom := by
  intro gameId gameId' h
  have hlist := congrArg String.toList h
  simp only [gameRoom, String.toList_append] at hlist
  exact String.toList_injective (List.append_cancel_left hlist)

/-- No socket has the id of a game's room. -/
theorem gameRoom_ne {sid : SocketId} (h : ':' ∉ sid.toList) (gameId : GameId) :
    gameRoom gameId ≠ sid := by
  rintro rfl
  exact h (by simp [gameRoom])

/-! ## The invariant -/

/-- What the gateway keeps says what has happened. -/
structure Inv {io : SocketIo} (events : List SocketEvent) (g : Gateway io) : Prop where
  users : ∀ sid user, g.users.get? sid = some user ↔ ConnectedAs events sid user
  ids : ∀ sid ∈ g.users.keys, ':' ∉ sid.toList
  own : ∀ sid sid', ':' ∉ sid.toList →
    (sid' ∈ io.members g.server sid ↔ sid' = sid ∧ sid ∈ g.users.keys)
  live : ∀ sid gameId, Subscribed events sid gameId → sid ∈ g.users.keys
  games : ∀ sid gameId, gameId ∈ g.rooms.gamesOf sid ↔ Subscribed events sid gameId
  listed : ∀ sid gameId user, g.rooms.listed gameId sid = some user ↔
    g.users.get? sid = some user ∧ Subscribed events sid gameId
  room : ∀ sid gameId, sid ∈ io.members g.server (gameRoom gameId) ↔ Subscribed events sid gameId

section Steps

variable {io : SocketIo} {events : List SocketEvent} {g : Gateway io} {sid : SocketId}
  {user : UserId} {gameId : GameId}

theorem inv_start : Inv [] ({} : Gateway io) where
  users sid user := iff_of_false (by simp) Since.not_nil
  ids sid h := by cases h
  own sid sid' _ := iff_of_false (io.mem_start sid' sid) fun h => nomatch h.2
  live sid gameId h := absurd h Since.not_nil
  games sid gameId := iff_of_false (by simp [RoomRegistry.gamesOf]) Since.not_nil
  listed sid gameId user :=
    iff_of_false (by simp [RoomRegistry.listed, RoomRegistry.socketsForGame])
    fun h => Since.not_nil h.2
  room sid gameId := iff_of_false (io.mem_start sid _) Since.not_nil

theorem Inv.disconnect (h : Inv events g) :
    Inv (events ++ [.disconnect sid]) (g.handleDisconnect sid) where
  users sid' user := by
    rw [connectedAs_disconnect, ← h.users, Gateway.handleDisconnect, OrderedMap.get?_erase]
    by_cases hs : sid' = sid <;> simp [hs]
  ids sid' hin := h.ids sid' (OrderedMap.mem_keys_erase.mp hin).1
  own sid' sid'' hid := by
    rw [Gateway.handleDisconnect, io.mem_disconnect, h.own sid' sid'' hid,
      OrderedMap.mem_keys_erase, and_assoc]
    exact and_congr_right fun heq => heq ▸ Iff.rfl
  live sid' gameId hsub := by
    obtain ⟨hsub, hne⟩ := subscribed_disconnect.mp hsub
    exact OrderedMap.mem_keys_erase.mpr ⟨h.live sid' gameId hsub, hne⟩
  games sid' gameId := by
    rw [subscribed_disconnect, ← h.games]
    exact RoomRegistry.removeSocket_games
  listed sid' gameId user := by
    simp only [subscribed_disconnect, Gateway.handleDisconnect, RoomRegistry.removeSocket_listed,
      OrderedMap.get?_erase]
    by_cases hs : sid' = sid
    · subst hs
      refine iff_of_false ?_ fun hsub => hsub.2.2 rfl
      split
      · intro hnone
        cases hnone
      · rename_i hnot
        exact fun hl => hnot ⟨(h.games _ _).mpr ((h.listed _ _ _).mp hl).2, rfl⟩
    · simp [hs, h.listed]
  room sid' gameId := by
    rw [subscribed_disconnect, ← h.room]
    exact io.mem_disconnect

theorem Inv.connect (h : Inv events g) (hnew : sid ∉ g.users.keys) (hid : ':' ∉ sid.toList)
    (user : UserId) :
    Inv (events ++ [.connect sid (some user)]) (g.handleConnection sid (some user)) where
  users sid' user' := by
    rw [connectedAs_connect, ← h.users]
    by_cases hs : sid' = sid
    · subst hs
      simp [Gateway.handleConnection, OrderedMap.get?_eq_none.mpr hnew]
    · simp [Gateway.handleConnection, hs]
  ids sid' hin := by
    rcases OrderedMap.mem_keys_set.mp hin with rfl | hin
    · exact hid
    · exact h.ids sid' hin
  own sid' sid'' hid' := by
    simp only [Gateway.handleConnection, io.mem_connect, h.own sid' sid'' hid',
      OrderedMap.mem_keys_set]
    constructor
    · rintro (⟨rfl, hin⟩ | ⟨rfl, rfl⟩)
      · exact ⟨rfl, .inr hin⟩
      · exact ⟨rfl, .inl rfl⟩
    · rintro ⟨rfl, rfl | hin⟩
      · exact .inr ⟨rfl, rfl⟩
      · exact .inl ⟨rfl, hin⟩
  live sid' gameId hsub := OrderedMap.mem_keys_set.mpr
    (.inr (h.live sid' gameId (subscribed_connect.mp hsub)))
  games sid' gameId := by
    rw [subscribed_connect]
    exact h.games sid' gameId
  listed sid' gameId user' := by
    rw [subscribed_connect]
    by_cases hs : sid' = sid
    · subst hs
      have hnot : ¬ Subscribed events sid' gameId := fun hsub => hnew (h.live _ _ hsub)
      refine iff_of_false (fun hl => hnot ((h.listed _ _ _).mp hl).2) fun hsub => hnot hsub.2
    · simpa [Gateway.handleConnection, hs] using h.listed sid' gameId user'
  room sid' gameId := by
    rw [subscribed_connect, ← h.room]
    exact io.mem_connect.trans (or_iff_left fun heq => gameRoom_ne hid gameId heq.2)

/-- A socket that is turned away leaves what a socket leaves that goes away. -/
theorem Inv.refuse (h : Inv events g) (hnew : sid ∉ g.users.keys) :
    Inv (events ++ [.connect sid none]) (g.handleConnection sid none) := by
  have hd : Inv (events ++ [.disconnect sid]) (g.handleDisconnect sid) := h.disconnect
  have hconn : ∀ sid' user, ConnectedAs (events ++ [.connect sid none]) sid' user ↔
      ConnectedAs (events ++ [.disconnect sid]) sid' user := by
    intro sid' user
    simp only [connectedAs_connect, connectedAs_disconnect, reduceCtorEq, and_false,
      false_or, ← h.users]
    refine (and_iff_left_of_imp fun hu => ?_).symm
    rintro rfl
    exact hnew (OrderedMap.mem_keys.mpr ⟨user, hu⟩)
  have hsub : ∀ sid' gameId, Subscribed (events ++ [.connect sid none]) sid' gameId ↔
      Subscribed (events ++ [.disconnect sid]) sid' gameId := by
    intro sid' gameId
    rw [subscribed_connect, subscribed_disconnect]
    refine (and_iff_left_of_imp fun hs => ?_).symm
    rintro rfl
    exact hnew (h.live _ _ hs)
  have hmem : ∀ sid' room, sid' ∈ io.members (io.disconnect sid (io.connect sid g.server)) room ↔
      sid' ∈ io.members (io.disconnect sid g.server) room := by
    intro sid' room
    rw [io.mem_disconnect, io.mem_connect, io.mem_disconnect]
    exact and_congr_left fun hne => or_iff_left fun heq => hne heq.1
  exact
    { users := fun sid' user => (hd.users sid' user).trans (hconn sid' user).symm
      ids := hd.ids
      own := fun sid' sid'' hid => (hmem sid'' sid').trans (hd.own sid' sid'' hid)
      live := fun sid' gameId hs => hd.live sid' gameId ((hsub sid' gameId).mp hs)
      games := fun sid' gameId => (hd.games sid' gameId).trans (hsub sid' gameId).symm
      listed := fun sid' gameId user =>
        (hd.listed sid' gameId user).trans (and_congr_right fun _ => (hsub sid' gameId).symm)
      room := fun sid' gameId => (hmem sid' _).trans
        ((hd.room sid' gameId).trans (hsub sid' gameId).symm) }

theorem Inv.subscribe (h : Inv events g) (hu : g.users.get? sid = some user) (gameId : GameId) :
    Inv (events ++ [.subscribeGame sid gameId]) (g.subscribeGame sid user gameId) where
  users sid' user' := by
    rw [connectedAs_subscribe]
    exact h.users sid' user'
  ids := h.ids
  own sid' sid'' hid := by
    rw [Gateway.subscribeGame, io.mem_join, h.own sid' sid'' hid]
    exact or_iff_left fun heq => gameRoom_ne hid gameId heq.2.symm
  live sid' gameId' hsub := by
    rcases subscribed_subscribe.mp hsub with ⟨-, rfl⟩ | hsub
    · exact OrderedMap.mem_keys.mpr ⟨user, hu⟩
    · exact h.live sid' gameId' hsub
  games sid' gameId' := by
    rw [subscribed_subscribe, ← h.games]
    exact RoomRegistry.attach_games
  listed sid' gameId' user' := by
    simp only [subscribed_subscribe, Gateway.subscribeGame, RoomRegistry.attach_listed]
    by_cases hboth : gameId' = gameId ∧ sid' = sid
    · obtain ⟨rfl, rfl⟩ := hboth
      simp [hu]
    · simp only [hboth, false_or]
      exact h.listed sid' gameId' user'
  room sid' gameId' := by
    rw [subscribed_subscribe, ← h.room, Gateway.subscribeGame, io.mem_join,
      gameRoom_injective.eq_iff, or_comm, and_comm]

theorem Inv.unsubscribe (h : Inv events g) (gameId : GameId) :
    Inv (events ++ [.unsubscribeGame sid gameId]) (g.unsubscribeGame sid gameId) where
  users sid' user' := by
    rw [connectedAs_unsubscribe]
    exact h.users sid' user'
  ids := h.ids
  own sid' sid'' hid := by
    rw [Gateway.unsubscribeGame, io.mem_leave, h.own sid' sid'' hid]
    exact and_iff_left fun heq => gameRoom_ne hid gameId heq.2.symm
  live sid' gameId' hsub := h.live sid' gameId' (subscribed_unsubscribe.mp hsub).1
  games sid' gameId' := by
    rw [subscribed_unsubscribe, ← h.games]
    exact RoomRegistry.detach_games
  listed sid' gameId' user' := by
    simp only [subscribed_unsubscribe, Gateway.unsubscribeGame, RoomRegistry.detach_listed]
    by_cases hboth : gameId' = gameId ∧ sid' = sid
    · simp [hboth]
    · simp only [hboth, not_false_eq_true, and_true]
      exact h.listed sid' gameId' user'
  room sid' gameId' := by
    rw [subscribed_unsubscribe, ← h.room, Gateway.unsubscribeGame, io.mem_leave,
      gameRoom_injective.eq_iff, and_comm (a := sid' = sid)]

theorem inv_step {g' : Gateway io} {event : SocketEvent} (h : Inv events g)
    (hstep : Gateway.Step g event g') :
    Inv (events ++ [event]) g' := by
  cases hstep with
  | @connect sid who hnew hid =>
    cases who with
    | none => exact h.refuse hnew
    | some user => exact h.connect hnew hid user
  | subscribed hu => exact h.subscribe hu _
  | unsubscribed _ => exact h.unsubscribe _
  | disconnected _ => exact h.disconnect

end Steps

/-! ## Messages -/

section Messages

variable {V E : Type} {io : SocketIo} {events : List SocketEvent} {g : Gateway io} {gameId : GameId}
  {event : Engine.GameBusEvent V E}

theorem Inv.mem_sockets (h : Inv events g) {sid : SocketId} :
    sid ∈ (g.rooms.socketsForGame gameId).keys ↔ Subscribed events sid gameId := by
  rw [OrderedMap.mem_keys]
  constructor
  · rintro ⟨user, hl⟩
    exact ((h.listed sid gameId user).mp hl).2
  · intro hsub
    obtain ⟨user, hu⟩ := OrderedMap.mem_keys.mp (h.live sid gameId hsub)
    exact ⟨user, (h.listed sid gameId user).mpr ⟨hu, hsub⟩⟩

/-- The room of a socket that is listed has the socket in it. -/
theorem Inv.members_own (h : Inv events g) {sid : SocketId} (hin : sid ∈ g.users.keys) :
    io.members g.server sid = [sid] := by
  have hperm : (io.members g.server sid).Perm [sid] := by
    refine (List.perm_ext_iff_of_nodup (io.nodup_members _ _) (List.nodup_singleton sid)).mpr
      fun sid' => ?_
    rw [h.own sid sid' (h.ids sid hin), List.mem_singleton]
    exact and_iff_left hin
  exact List.perm_singleton.mp hperm

theorem flatMap_ite {α β : Type} (p : α → Prop) [DecidablePred p] (f : α → β) (as : List α) :
    as.flatMap (fun a => if p a then [f a] else []) = (as.filter p).map f := by
  induction as with
  | nil => rfl
  | cons a as ih => by_cases h : p a <;> simp [h, ih]

/-- A private message goes to the sockets of the entry that are listed with the user. -/
theorem Inv.dispatch_private (h : Inv events g) {user : UserId}
    (hp : Gateway.privateTo event = some user) :
    g.dispatch gameId event = ((g.rooms.socketsForGame gameId).filter fun _ u =>
      u = user).keys := by
  have hown : ∀ e ∈ (g.rooms.socketsForGame gameId).entries,
      (if e.2 = user then io.members g.server e.1 else []) = if e.2 = user then [e.1] else [] := by
    intro e he
    have hlisted := (h.listed e.1 gameId e.2).mp (OrderedMap.mem_entries.mp he)
    rw [h.members_own (h.live e.1 gameId hlisted.2)]
  rw [Gateway.dispatch, hp]
  exact (List.flatMap_congr hown).trans (flatMap_ite _ _ _)

/-- Messages reach the right sockets. -/
structure Delivers (V E : Type) (events : List SocketEvent) (g : Gateway io) : Prop where
  /-- The two maps of the registry agree. -/
  consistent : ∀ gameId sid, sid ∈ (g.rooms.socketsForGame gameId).keys ↔
    gameId ∈ g.rooms.gamesOf sid
  privately : ∀ gameId user (event : Engine.GameBusEvent V E), Gateway.privateTo event = some user →
    (g.dispatch gameId event).Nodup ∧ ∀ sid, sid ∈ g.dispatch gameId event ↔
      ConnectedAs events sid user ∧ Subscribed events sid gameId
  publicly : ∀ gameId (event : Engine.GameBusEvent V E), Gateway.privateTo event = none →
    (g.dispatch gameId event).Perm (g.rooms.socketsForGame gameId).keys
  gone : ∀ sid, (∀ user, ¬ ConnectedAs events sid user) →
    ∀ gameId, sid ∉ (g.rooms.socketsForGame gameId).keys

theorem Inv.delivers (h : Inv events g) : Delivers V E events g where
  consistent gameId sid := h.mem_sockets.trans (h.games sid gameId).symm
  privately gameId user event hp := by
    rw [h.dispatch_private hp]
    refine ⟨OrderedMap.nodup_keys _, fun sid => ?_⟩
    rw [OrderedMap.mem_keys, ← h.users, ← h.listed, RoomRegistry.listed]
    simp only [OrderedMap.get?_filter, Option.filter_eq_some_iff, decide_eq_true_eq]
    constructor
    · rintro ⟨_, hl, heq⟩
      exact heq ▸ hl
    · exact fun hl => ⟨user, hl, rfl⟩
  publicly gameId event hp := by
    rw [Gateway.dispatch, hp]
    refine (List.perm_ext_iff_of_nodup (io.nodup_members _ _) (OrderedMap.nodup_keys _)).mpr
      fun sid => ?_
    exact (h.room sid gameId).trans h.mem_sockets.symm
  gone sid hgone gameId hin := by
    obtain ⟨user, hu⟩ := OrderedMap.mem_keys.mp (h.live sid gameId (h.mem_sockets.mp hin))
    exact hgone user ((h.users sid user).mp hu)

end Messages

/-- **Realtime delivery reaches the right sockets**, whatever the sockets have done. -/
theorem delivery (V E : Type) {io : SocketIo} {events : List SocketEvent} {g : Gateway io}
    (h : Trace Gateway.Step {} events g) : Delivers V E events g := by
  have hinv : Inv ([] ++ events) g :=
    h.inv_labels (I := Inv) (fun _ _ _ _ hinv hstep => inv_step hinv hstep) [] inv_start
  exact hinv.delivers

/-- Two sockets in a game, one of which unsubscribes and comes back after the other has left. -/
def comings : List SocketEvent :=
  [ .connect "a1" (some "ada"), .connect "b1" (some "bo"), .subscribeGame "a1" "game-1",
    .subscribeGame "b1" "game-1", .unsubscribeGame "b1" "game-1", .connect "c1" none,
    .disconnect "a1",
    .subscribeGame "b1" "game-1" ]

theorem comings_delivered : ∃ g : Gateway inMemory, Trace Gateway.Step {} comings g ∧
    Delivers Unit Unit comings g := by
  have htrace : Trace Gateway.Step ({} : Gateway inMemory) comings _ :=
    .cons (.connect (by decide) (by decide)) <| .cons (.connect (by decide) (by decide)) <|
    .cons (.subscribed rfl) <| .cons (.subscribed rfl) <| .cons (.unsubscribed (by decide)) <|
    .cons (.connect (by decide) (by decide)) <| .cons (.disconnected (by decide)) <|
    .cons (.subscribed rfl) .nil
  exact ⟨_, htrace, delivery Unit Unit htrace⟩

end Boardgame.Realtime
