import Boardgame.Lobby.Service

/-!
# Lobby.Rooms

The rooms of the lobby over runs.

* `RoomSound`: the invariant of a room. Its members are the ones its events tell, in that order, and
  the host is one of them.
* `sound_reachable`: it holds of every room a run leaves.
* `lobby_orderly`: rooms, newcomers and starting games along every run.
-/

namespace Boardgame.Lobby

/-! ## What the events of a room tell -/

def memberStep (r : RoomId) (members : List UserId) : LobbyEvent → List UserId
  | .roomCreated r' host => if r' = r then [host] else members
  | .playerJoined r' u => if r' = r ∧ u ∉ members then members ++ [u] else members
  | .playerLeft r' u => if r' = r then members.filter (· ≠ u) else members
  | _ => members

/-- The members of a room in join order, as its events tell them. -/
def membersTold (r : RoomId) (events : List LobbyEvent) : List UserId :=
  events.foldl (memberStep r) []

theorem membersTold_append (r : RoomId) (events : List LobbyEvent) (e : LobbyEvent) :
    membersTold r (events ++ [e]) = memberStep r (membersTold r events) e := by
  rw [membersTold, List.foldl_append]
  rfl

theorem memberStep_other {r : RoomId} {e : LobbyEvent} (h : e.roomId ≠ r) (members : List UserId) :
    memberStep r members e = members := by
  cases e <;> simp_all [memberStep, LobbyEvent.roomId]

/-! ## The invariant -/

structure RoomSound (r : RoomId) (events : List LobbyEvent) (room : RoomEntity) : Prop where
  known : r ∈ events.map LobbyEvent.roomId
  host : room.hostId ∈ room.roster
  keyed : ∀ u m, room.members.get? u = some m → m.userId = u
  capacity : 1 ≤ room.maxPlayers → (room.playerCount : ℤ) ≤ ⌈room.maxPlayers⌉
  told : room.roster = membersTold r events

def Sound (l : LobbyService) : Prop :=
  ∀ r room, l.rooms.get? r = some room → RoomSound r l.published room

theorem RoomSound.other {r : RoomId} {events : List LobbyEvent} {room : RoomEntity} {e : LobbyEvent}
    (h : RoomSound r events room) (he : e.roomId ≠ r) : RoomSound r (events ++ [e]) room where
  known := by
    rw [List.map_append, List.mem_append]
    exact .inl h.known
  host := h.host
  keyed := h.keyed
  capacity := h.capacity
  told := by rw [membersTold_append, memberStep_other he, h.told]

variable {l l' : LobbyService} {r : RoomId} {room : RoomEntity}

/-- One room changes, and that is published. -/
theorem Sound.change (hs : Sound l) {e : LobbyEvent} (he : e.roomId = r)
    (hroom : RoomSound r (l.published ++ [e]) room) : Sound ((l.putRoom r room).publish e) := by
  intro r' room' h
  simp only [LobbyService.publish, LobbyService.putRoom, OrderedMap.get?_set] at h
  split at h
  · rename_i hr
    cases h
    exact hr ▸ hroom
  · rename_i hr
    exact (hs r' room' h).other fun heq => hr (heq.symm.trans he)

/-- One room goes, and that is published. -/
theorem Sound.drop (hs : Sound l) {e : LobbyEvent} (he : e.roomId = r) :
    Sound ((l.dropRoom r).publish e) := by
  intro r' room' h
  simp only [LobbyService.publish, LobbyService.dropRoom, OrderedMap.get?_erase] at h
  split at h
  · cases h
  · rename_i hr
    exact (hs r' room' h).other fun heq => hr (heq.symm.trans he)

/-- What a change of the members must tell. -/
theorem RoomSound.update {events : List LobbyEvent} {room' : RoomEntity} {e : LobbyEvent}
    (h : RoomSound r events room) (hhost : room'.hostId = room.hostId)
    (hmax : room'.maxPlayers = room.maxPlayers)
    (hkeyed : ∀ u m, room'.members.get? u = some m → m.userId = u)
    (hin : room.hostId ∈ room'.roster) (hcap : 1 ≤ room.maxPlayers →
      (room'.playerCount : ℤ) ≤ ⌈room.maxPlayers⌉)
    (htold : room'.roster = memberStep r room.roster e) : RoomSound r (events ++ [e]) room' where
  known := by
    rw [List.map_append, List.mem_append]
    exact .inl h.known
  host := by rw [hhost]; exact hin
  keyed := hkeyed
  capacity := by rw [hmax]; exact hcap
  told := by rw [membersTold_append, ← h.told, htold]

theorem addPlayer_keyed (h : ∀ u m, room.members.get? u = some m → m.userId = u) (u : UserId)
    (name : String) :
    ∀ u' m, (room.addPlayer u name).members.get? u' = some m → m.userId = u' := by
  intro u' m hm
  unfold RoomEntity.addPlayer at hm
  split at hm
  · exact h u' m hm
  · rw [OrderedMap.get?_set] at hm
    split at hm
    · rename_i heq
      cases hm
      exact heq.symm
    · exact h u' m hm

theorem addPlayer_host (room : RoomEntity) (u : UserId) (name : String) :
    (room.addPlayer u name).hostId = room.hostId ∧
      (room.addPlayer u name).maxPlayers = room.maxPlayers ∧
      (room.addPlayer u name).status = room.status := by
  unfold RoomEntity.addPlayer
  split <;> exact ⟨rfl, rfl, rfl⟩

theorem RoomSound.joined {events : List LobbyEvent} (h : RoomSound r events room)
    (hfull : room.isFull = false) (u : UserId) (name : String) :
    RoomSound r (events ++ [.playerJoined r u]) (room.addPlayer u name) := by
  obtain ⟨hhost, hmax, _⟩ := addPlayer_host room u name
  refine h.update hhost hmax (addPlayer_keyed h.keyed u name) ?_
    (fun _ => RoomEntity.playerCount_addPlayer_le hfull name) ?_
  · rw [RoomEntity.addPlayer_keys]
    split
    · exact h.host
    · exact List.mem_append_left _ h.host
  · rw [RoomEntity.addPlayer_keys, memberStep]
    by_cases hin : u ∈ room.roster
    · rw [if_pos hin, if_neg fun hh => hh.2 hin]
    · rw [if_neg hin, if_pos ⟨rfl, hin⟩]

theorem RoomSound.readied {events : List LobbyEvent} {room' : RoomEntity}
    (h : RoomSound r events room) {u : UserId} {ready : Bool}
    (hready : room.setReady u ready = .ok room') :
    RoomSound r (events ++ [.playerReady r u ready]) room' := by
  have hkeys := RoomEntity.setReady_keys hready
  obtain ⟨_, m, hm, rfl⟩ := RoomEntity.setReady_ok hready
  refine h.update rfl rfl (fun u' m' hm' => ?_) (hkeys ▸ h.host) (fun hmax => ?_) hkeys
  · simp only [OrderedMap.get?_set] at hm'
    split at hm'
    · rename_i heq
      cases hm'
      exact (h.keyed u m hm).trans heq.symm
    · exact h.keyed u' m' hm'
  · rw [RoomEntity.playerCount_eq, hkeys, ← RoomEntity.playerCount_eq]
    exact h.capacity hmax

theorem RoomSound.starting {events : List LobbyEvent} (h : RoomSound r events room)
    {uuid sc : String} {ps : List (UserId × String)} :
    RoomSound r (events ++ [.gameStarting r uuid sc ps]) (room.markStarting uuid) :=
  h.update rfl rfl h.keyed h.host h.capacity rfl

theorem RoomSound.left {events : List LobbyEvent} (h : RoomSound r events room) {u : UserId}
    (hguest : room.hostId ≠ u) :
    RoomSound r (events ++ [.playerLeft r u]) (room.removePlayer u) := by
  have hkeys := RoomEntity.removePlayer_keys room u
  refine h.update rfl rfl (fun u' m hm => ?_) ?_ (fun hmax => ?_) ?_
  · simp only [RoomEntity.removePlayer, OrderedMap.get?_erase] at hm
    split at hm
    · cases hm
    · exact h.keyed u' m hm
  · rw [hkeys]
    exact List.mem_filter.mpr ⟨h.host, by simpa using hguest⟩
  · have hle : (room.removePlayer u).playerCount ≤ room.playerCount := by
      rw [RoomEntity.playerCount_eq, hkeys, RoomEntity.playerCount_eq]
      exact List.length_filter_le _ _
    have := h.capacity hmax
    omega
  · rw [hkeys, memberStep, if_pos rfl]

theorem RoomSound.created {events : List LobbyEvent} (init : RoomEntityInit) (now : Int)
    (name : String) :
    RoomSound init.roomId (events ++ [.roomCreated init.roomId init.hostId])
      ((RoomEntity.new init now).addPlayer init.hostId name) := by
  obtain ⟨hhost, hmax, _⟩ := addPlayer_host (RoomEntity.new init now) init.hostId name
  have hkeys : ((RoomEntity.new init now).addPlayer init.hostId name).roster = [init.hostId] :=
    RoomEntity.addPlayer_keys _ _ _
  refine
    { known := by simp [LobbyEvent.roomId]
      host := by rw [hhost, hkeys]; exact List.mem_singleton_self _
      keyed := addPlayer_keyed (by simp [RoomEntity.new]) init.hostId name
      capacity := fun h1 => ?_
      told := by rw [hkeys, membersTold_append, memberStep, if_pos rfl] }
  rw [RoomEntity.playerCount_eq, hkeys]
  exact Int.le_ceil_iff.mpr (by push_cast [List.length_singleton]; linarith)

theorem Sound.expire (rs : List RoomId) : ∀ {l : LobbyService}, Sound l →
    Sound (rs.foldl (fun l r => expire r l) l) := by
  induction rs with
  | nil => exact fun hs => hs
  | cons r rs ih => exact fun hs => ih (hs.drop rfl)

theorem sound_step (hs : Sound l) {op : Op} (h : Step l op l') : Sound l' := by
  cases h.effect with
  | refused => exact hs
  | @created uuid now u name req =>
    exact hs.change rfl (.created ⟨uuid, req.name, req.scenarioId, u, req.maxPlayers⟩ now name)
  | joined hroom _ hfull => exact hs.change rfl ((hs _ _ hroom).joined hfull _ _)
  | readied hroom hready => exact hs.change rfl ((hs _ _ hroom).readied hready)
  | started hmay => exact hs.change rfl (hs _ _ hmay.found).starting
  | left hroom hguest => exact hs.change rfl ((hs _ _ hroom).left hguest)
  | @emptied u r room hroom hguest =>
    have hleft : Sound ((l.putRoom r (room.removePlayer u)).publish (.playerLeft r u)) :=
      hs.change rfl ((hs _ _ hroom).left hguest)
    exact hleft.drop rfl
  | closed => exact hs.drop rfl
  | purged => exact hs.expire _

/-- A run from the empty lobby. -/
abbrev LobbyRun (rs : List (Record LobbyService Op)) (l : LobbyService) : Prop :=
  Trace (Recorded Step) {} rs l

theorem sound_empty : Sound {} := fun _ _ h => by cases h

theorem sound_reachable {rs : List (Record LobbyService Op)} (h : LobbyRun rs l) : Sound l :=
  h.inv (fun _ _ _ hs hstep => sound_step hs (Recorded.step_of hstep).2.2) sound_empty

/-! ## One room through one operation -/

/-- From `l` to `l'`, room `r` becomes `after`, and `news` is what is published about it. -/
def Sees (l l' : LobbyService) (r : RoomId) (after : Option RoomEntity) (news : List LobbyEvent) :
    Prop :=
  l'.rooms.get? r = after ∧
    ∃ all, l'.published = l.published ++ all ∧ all.filter (fun e => e.roomId = r) = news

namespace Sees

theorem refl (l : LobbyService) (r : RoomId) : Sees l l r (l.rooms.get? r) [] :=
  ⟨rfl, [], (List.append_nil _).symm, rfl⟩

theorem trans {l₁ : LobbyService} {a b : Option RoomEntity} {n m : List LobbyEvent}
    (h : Sees l l₁ r a n) (h' : Sees l₁ l' r b m) : Sees l l' r b (n ++ m) := by
  obtain ⟨_, all, hall, rfl⟩ := h
  obtain ⟨hb, all', hall', rfl⟩ := h'
  exact ⟨hb, all ++ all', by rw [hall', hall, List.append_assoc], List.filter_append _ _⟩

theorem change {e : LobbyEvent} (he : e.roomId = r) :
    Sees l ((l.putRoom r room).publish e) r (some room) [e] :=
  ⟨by simp [LobbyService.publish, LobbyService.putRoom], [e], rfl, by simp [he]⟩

theorem change_other {r' : RoomId} {e : LobbyEvent} (he : e.roomId = r') (hr : r' ≠ r) :
    Sees l ((l.putRoom r' room).publish e) r (l.rooms.get? r) [] :=
  ⟨by simp [LobbyService.publish, LobbyService.putRoom, hr.symm], [e], rfl, by simp [he, hr]⟩

theorem drop {e : LobbyEvent} (he : e.roomId = r) : Sees l ((l.dropRoom r).publish e) r none [e] :=
  ⟨by simp [LobbyService.publish, LobbyService.dropRoom], [e], rfl, by simp [he]⟩

theorem drop_other {r' : RoomId} {e : LobbyEvent} (he : e.roomId = r') (hr : r' ≠ r) :
    Sees l ((l.dropRoom r').publish e) r (l.rooms.get? r) [] :=
  ⟨by simp [LobbyService.publish, LobbyService.dropRoom, hr.symm], [e], rfl, by simp [he, hr]⟩

theorem expired_nodup (l : LobbyService) (now : Int) :
    ((l.rooms.entries.filter fun e => LobbyService.expired now e.2).map Prod.fst).Nodup :=
  l.rooms.nodup.sublist (List.filter_sublist.map _)

/-- A purge closes the rooms it takes, once each. -/
theorem expire (r : RoomId) (rs : List RoomId) : rs.Nodup → ∀ l : LobbyService,
    Sees l (rs.foldl (fun l r => Lobby.expire r l) l) r (if r ∈ rs then none else l.rooms.get? r)
      (if r ∈ rs then [.roomClosed r "ttl-expired"] else []) := by
  induction rs with
  | nil => exact fun _ l => by simpa using refl l r
  | cons r' rs ih =>
    intro hnd l
    rw [List.nodup_cons] at hnd
    have hrest := ih hnd.2 (Lobby.expire r' l)
    by_cases hr : r' = r
    · subst hr
      have hone : Sees l (Lobby.expire r' l) r' none [.roomClosed r' "ttl-expired"] := drop rfl
      have := hone.trans hrest
      simpa [hnd.1, hone.1] using this
    · have hone : Sees l (Lobby.expire r' l) r (l.rooms.get? r) [] := drop_other rfl hr
      have := hone.trans hrest
      simpa [Ne.symm hr, hone.1] using this

end Sees

/-- What an operation does to a room of the lobby, and what is published about it. -/
inductive RoomChange (l : LobbyService) (r : RoomId) (room : RoomEntity) :
    Op → Option RoomEntity → List LobbyEvent → Prop where
  | same {op : Op} : (∀ uuid u, op = .startGame uuid u r → ¬ MayStart l u r room) →
      (∀ u, op = .leaveRoom u r → room.hostId = u) → RoomChange l r room op (some room) []
  | joined {u : UserId} {name : String} : room.status = RoomStatus.open → room.isFull = false →
      RoomChange l r room (.joinRoom u name r) (some (room.addPlayer u name)) [.playerJoined r u]
  | readied {u : UserId} {ready : Bool} {room' : RoomEntity} : room.setReady u ready = .ok room' →
      RoomChange l r room (.setReady u r ready) (some room') [.playerReady r u ready]
  | started {uuid : String} {u : UserId} : MayStart l u r room →
      RoomChange l r room (.startGame uuid u r) (some (room.markStarting uuid))
        [.gameStarting r uuid room.scenarioId room.players]
  | left {u : UserId} : room.hostId ≠ u → RoomChange l r room (.leaveRoom u r)
      (some (room.removePlayer u)) [.playerLeft r u]
  | emptied {u : UserId} : room.hostId ≠ u →
      RoomChange l r room (.leaveRoom u r) none [.playerLeft r u, .roomClosed r "host-closed"]
  | closed {u : UserId} : room.hostId = u →
      RoomChange l r room (.closeRoom u r) none [.roomClosed r "host-closed"]
  | expired {now : Int} : room.status = RoomStatus.open →
      RoomChange l r room (.purge now) none [.roomClosed r "ttl-expired"]

/-- An operation on another room. -/
theorem RoomChange.elsewhere {op : Op} (hs : ∀ uuid u, op ≠ .startGame uuid u r)
    (hl : ∀ u, op ≠ .leaveRoom u r) :
    RoomChange l r room op (some room) [] :=
  .same (fun uuid u h => absurd h (hs uuid u)) fun u h => absurd h (hl u)

theorem room_change (hs : Sound l) {op : Op} (h : Step l op l')
    (hroom : l.rooms.get? r = some room) :
    ∃ after news, Sees l l' r after news ∧ RoomChange l r room op after news := by
  have hother : ∀ {l₁ : LobbyService} {op : Op}, Sees l l₁ r (l.rooms.get? r) [] →
      (∀ uuid u, op ≠ .startGame uuid u r) → (∀ u, op ≠ .leaveRoom u r) →
      ∃ after news, Sees l l₁ r after news ∧ RoomChange l r room op after news :=
    fun hsees hs hl => ⟨_, _, hroom ▸ hsees, .elsewhere hs hl⟩
  have hsame : ∀ {room' : RoomEntity}, l.rooms.get? r = some room' → room' = room := by
    intro room' hroom'
    rw [hroom, Option.some.injEq] at hroom'
    exact hroom'.symm
  have hfresh := h.fresh
  cases h.effect with
  | refused hstart hleave =>
    exact ⟨_, _, hroom ▸ Sees.refl l r, .same (fun uuid u h => hstart uuid u r room h)
      fun u h => hleave u r room h hroom⟩
  | @created uuid now u name req =>
    have hne : uuid ≠ r := fun heq => hfresh (heq ▸ (hs r room hroom).known)
    exact hother (.change_other rfl hne) (by simp) (by simp)
  | @joined u name r' room' hroom' hopen hfull =>
    by_cases hr : r' = r
    · subst hr
      obtain rfl := hsame hroom'
      exact ⟨_, _, .change rfl, .joined hopen hfull⟩
    · exact hother (.change_other rfl hr) (by simp) (by simp)
  | @readied u r' ready room' room'' hroom' hready =>
    by_cases hr : r' = r
    · subst hr
      obtain rfl := hsame hroom'
      exact ⟨_, _, .change rfl, .readied hready⟩
    · exact hother (.change_other rfl hr) (by simp) (by simp)
  | @started uuid u r' room' hmay =>
    by_cases hr : r' = r
    · subst hr
      obtain rfl := hsame hmay.found
      exact ⟨_, _, .change rfl, .started hmay⟩
    · exact hother (.change_other rfl hr) (by simp [hr]) (by simp)
  | @left u r' room' hroom' hguest =>
    by_cases hr : r' = r
    · subst hr
      obtain rfl := hsame hroom'
      exact ⟨_, _, .change rfl, .left hguest⟩
    · exact hother (.change_other rfl hr) (by simp) (by simp [hr])
  | @emptied u r' room' hroom' hguest =>
    by_cases hr : r' = r
    · subst hr
      obtain rfl := hsame hroom'
      have hleft : Sees l ((l.putRoom r' (room'.removePlayer u)).publish (.playerLeft r' u))
          r' _ _ := .change rfl
      exact ⟨_, _, hleft.trans (.drop rfl), .emptied hguest⟩
    · have hleft : Sees l ((l.putRoom r' (room'.removePlayer u)).publish (.playerLeft r' u))
          r _ _ :=
        .change_other rfl hr
      have hdrop :=
        Sees.drop_other (l := (l.putRoom r' (room'.removePlayer u)).publish (.playerLeft r' u))
        (e := .roomClosed r' "host-closed") rfl hr
      have hgone := hleft.trans hdrop
      rw [hleft.1] at hgone
      exact hother hgone (by simp) (by simp [hr])
  | @closed u r' room' hroom' hhost =>
    by_cases hr : r' = r
    · subst hr
      obtain rfl := hsame hroom'
      exact ⟨_, _, .drop rfl, .closed hhost⟩
    · exact hother (.drop_other rfl hr) (by simp) (by simp)
  | @purged now =>
    have hsees := Sees.expire r _ (Sees.expired_nodup l now) l
    by_cases hr : r ∈ (l.rooms.entries.filter fun e => LobbyService.expired now e.2).map Prod.fst
    · rw [if_pos hr, if_pos hr] at hsees
      obtain ⟨⟨r', room'⟩, he, rfl⟩ := List.mem_map.mp hr
      obtain ⟨hmem, hexp⟩ := List.mem_filter.mp he
      obtain rfl := hsame (OrderedMap.mem_entries.mp hmem)
      simp only [LobbyService.expired, decide_eq_true_eq] at hexp
      exact ⟨_, _, hsees, .expired hexp.1⟩
    · rw [if_neg hr, if_neg hr] at hsees
      exact hother hsees (by simp) (by simp)

/-- A room that has left `open` takes nobody in and does not go back. -/
theorem no_newcomer (hs : Sound l) {op : Op} (h : Step l op l') (hroom : l.rooms.get? r = some room)
    (hleft : room.status ≠ RoomStatus.open) {room' : RoomEntity}
    (hroom' : l'.rooms.get? r = some room') :
    room'.status ≠ RoomStatus.open ∧ ∀ u ∈ room'.roster, u ∈ room.roster := by
  obtain ⟨after, news, hsees, hchange⟩ := room_change hs h hroom
  have hafter := hsees.1.symm.trans hroom'
  cases hchange with
  | same => cases hafter; exact ⟨hleft, fun _ hu => hu⟩
  | joined hopen => exact absurd hopen hleft
  | readied hready =>
    cases hafter
    have hkeys := RoomEntity.setReady_keys hready
    obtain ⟨_, _, _, rfl⟩ := RoomEntity.setReady_ok hready
    exact ⟨hleft, fun _ hu => hkeys ▸ hu⟩
  | started => cases hafter; exact ⟨by simp [RoomEntity.markStarting], fun _ hu => hu⟩
  | left =>
    cases hafter
    refine ⟨hleft, fun u hu => ?_⟩
    rw [RoomEntity.removePlayer_keys] at hu
    exact (List.mem_filter.mp hu).1
  | emptied => cases hafter
  | closed => cases hafter
  | expired => cases hafter

/-! ## Along a run -/

/-- What an operation of the run published. -/
def news (c : Record LobbyService Op) : List LobbyEvent :=
  c.after.published.drop c.before.published.length

/-- A game starts at the request of the room's host, who finds everybody ready, with the members in
the order they came. -/
structure StartsRight (c : Record LobbyService Op) (r : RoomId) (gameId scenarioId : String)
    (ps : List (UserId × String)) (room : RoomEntity) : Prop where
  found : c.before.rooms.get? r = some room
  asked : c.label = .startGame gameId room.hostId r
  two : 2 ≤ room.playerCount
  ready : ∀ m ∈ room.members.values, m.ready = true
  scenario : scenarioId = room.scenarioId
  listed : ps = room.members.values.map fun m => (m.userId, m.displayName)
  everybody : ps.map Prod.fst = room.roster
  inOrder : room.roster = membersTold r c.before.published
  once : (ps.map Prod.fst).Nodup

structure Orderly (rs : List (Record LobbyService Op)) (l : LobbyService) : Prop where
  host : ∀ r room, l.rooms.get? r = some room → room.hostId ∈ room.roster
  distinct : ∀ r room, l.rooms.get? r = some room → room.roster.Nodup
  capacity : ∀ r room, l.rooms.get? r = some room → 1 ≤ room.maxPlayers →
    (room.playerCount : ℤ) ≤ ⌈room.maxPlayers⌉
  newcomers : ∀ c ∈ rs, ∀ r room room', c.before.rooms.get? r = some room →
    room.status ≠ RoomStatus.open →
    c.after.rooms.get? r = some room' → room'.status ≠ RoomStatus.open ∧
    ∀ u ∈ room'.roster, u ∈ room.roster
  starts : ∀ c ∈ rs, ∀ r g sc ps, LobbyEvent.gameStarting r g sc ps ∈ news c →
    ∃ room, StartsRight c r g sc ps room

theorem values_keyed {room : RoomEntity} (h : ∀ u m, room.members.get? u = some m → m.userId = u) :
    room.members.values.map RoomMember.userId = room.roster := by
  rw [OrderedMap.values, List.map_map, RoomEntity.roster, OrderedMap.keys]
  exact List.map_congr_left fun e he => h e.1 e.2 (OrderedMap.mem_entries.mp he)

theorem starts_right (hs : Sound l) {op : Op} (h : Step l op l') {g sc : String}
    {ps : List (UserId × String)} (he : LobbyEvent.gameStarting r g sc ps ∈ news ⟨l, op, l'⟩) :
    ∃ room, StartsRight ⟨l, op, l'⟩ r g sc ps room := by
  rcases h.effect.starts_or with ⟨all, hall, hnone, _⟩ | ⟨uuid, u, r', room, rfl, hmay, rfl⟩
  · rw [news, hall, List.drop_left] at he
    cases hnone _ he
  · simp only [news, LobbyService.publish, LobbyService.putRoom, List.drop_left,
      List.mem_singleton] at he
    cases he
    have hsound := hs r room hmay.found
    have hids : room.players.map Prod.fst = room.roster := by
      rw [RoomEntity.players, List.map_map]
      exact values_keyed hsound.keyed
    have hready : ∀ m ∈ room.members.values, m.ready = true := by
      have hall := hmay.ready
      rw [RoomEntity.allReady, Bool.and_eq_true, List.all_eq_true] at hall
      exact hall.2
    refine ⟨room,
      { found := hmay.found
        asked := by rw [hmay.host]
        two := hmay.two
        ready := hready
        scenario := rfl
        listed := rfl
        everybody := hids
        inOrder := hsound.told
        once := hids ▸ room.roster_nodup }⟩

/-- **Rooms along every run of the lobby**: the host stays among the members, who are distinct and
`⌈maxPlayers⌉` at most; nobody joins a room that has left `open`; and games start right. -/
theorem lobby_orderly {rs : List (Record LobbyService Op)} (h : LobbyRun rs l) : Orderly rs l := by
  have hsound := sound_reachable h
  have hsteps := Recorded.forall_inv (I := Sound)
    (fun _ _ _ hs hstep => sound_step hs hstep) h sound_empty
  refine
    { host := fun r room hroom => (hsound r room hroom).host
      distinct := fun _ room _ => room.roster_nodup
      capacity := fun r room hroom => (hsound r room hroom).capacity
      newcomers := fun c hc r room room' hroom hleft hroom' => ?_
      starts := fun c hc r g sc ps he => ?_ }
  · obtain ⟨hs, hstep⟩ := hsteps c hc
    exact no_newcomer hs hstep hroom hleft hroom'
  · obtain ⟨hs, hstep⟩ := hsteps c hc
    exact starts_right hs hstep he

/-- A host and a guest, and then another guest, who is refused. -/
def party (maxPlayers : ℚ) : List Op :=
  [.createRoom "room" 0 "ann" "Ann" ⟨"Evening", "kingdoms-v1", maxPlayers⟩,
    .joinRoom "ben" "Ben" "room",
    .joinRoom "cid" "Cid" "room", .setReady "ann" "room" true, .setReady "ben" "room" true,
    .startGame "game" "ann" "room", .joinRoom "dan" "Dan" "room"]

theorem party_orderly : Orderly (replay {} (party 2)).1 (replay {} (party 2)).2 :=
  lobby_orderly (replay_trace (by decide +kernel))

/-- With `maxPlayers` a fraction, the room takes one member more than that. -/
theorem party_overfull : ∃ rs l room, LobbyRun rs l ∧ l.rooms.get? "room" = some room ∧
    1 ≤ room.maxPlayers ∧
    room.maxPlayers < room.playerCount := by
  have hroom : ((replay {} (party (3 / 2))).2.rooms.get? "room").any
      (fun room => 1 ≤ room.maxPlayers ∧ room.maxPlayers < room.playerCount) = true := by
        decide +kernel
  rw [Option.any_eq_true] at hroom
  obtain ⟨room, hget, hover⟩ := hroom
  exact ⟨_, _, room, replay_trace (by decide +kernel), hget, of_decide_eq_true hover⟩

end Boardgame.Lobby
