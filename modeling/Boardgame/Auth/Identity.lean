import Mathlib.Data.List.Forall2
import Boardgame.Auth.Users

/-!
# Auth.Identity

Who an account is, in every interleaving of registrations and logins.

* `Kept`: the invariant. The rows of the table are the registrations that were answered with
  success.
* `identity_sound`: one account a name, one name an account; a login leads to the account its name
  was registered for; a token is verified to the account it was issued to.
-/

namespace Boardgame.Auth

variable {bc : Bcrypt} {jwt : Jwt} {s s' : AuthService bc jwt}

/-! ## Accounts and the answers that made them -/

/-- A registration that was answered with success. -/
def Answer.registration? (a : Answer jwt) : Option (RegisterRequest × AuthResponse jwt) :=
  match a.request, a.response with
  | .register req, .ok auth => some (req, auth)
  | _, _ => none

def AuthService.registrations (s : AuthService bc jwt) :
    List (RegisterRequest × AuthResponse jwt) :=
  s.answers.filterMap Answer.registration?

/-- The answer is for the account of the row, and carries its token. -/
structure Names (auth : AuthResponse jwt) (u : UserRow bc) : Prop where
  userId : auth.userId = u.id
  username : auth.username = u.username
  token : auth.accessToken = jwt.sign ⟨u.id, u.username⟩

/-- The registration made the row. -/
structure Made (reg : RegisterRequest × AuthResponse jwt) (u : UserRow bc) : Prop where
  names : Names reg.2 u
  username : u.username = reg.1.username
  password : ∃ salt, u.passwordHash = bc.hash reg.1.password salt

structure Kept (s : AuthService bc jwt) : Prop where
  usernames : (s.users.map UserRow.username).Nodup
  ids : (s.users.map UserRow.id).Nodup
  made : List.Forall₂ Made s.registrations s.users
  numbers : (s.waiting.keys ++ s.answers.map Answer.number).Perm (List.range s.received)
  hashed : ∀ n req h, s.waiting.get? n = some (.created req h) →
    ∃ salt, h = bc.hash req.password salt
  comparing : ∀ n req u, s.waiting.get? n = some (.compared req u) →
    u ∈ s.users ∧ u.username = req.username
  logins : ∀ a ∈ s.answers, ∀ req auth, a.request = .login req → a.response = .ok auth →
    ∃ u ∈ s.users, Names auth u ∧ u.username = req.username ∧
      bc.compare req.password u.passwordHash = true

theorem kept_start : Kept ({} : AuthService bc jwt) where
  usernames := List.nodup_nil
  ids := List.nodup_nil
  made := .nil
  numbers := .refl _
  hashed := by simp
  comparing := by simp
  logins := by simp

theorem sign_names (u : UserRow bc) {auth : AuthResponse jwt}
    (h : AuthService.sign u.id u.username = .ok auth) : Names auth u := by
  cases h
  exact ⟨rfl, rfl, rfl⟩

/-! ## What a stretch keeps -/

theorem await_numbers {n : Nat} {a a' : Await bc} (hn : s.waiting.get? n = some a) :
    (s.await n a').waiting.keys = s.waiting.keys :=
  OrderedMap.keys_set_of_mem (OrderedMap.mem_keys.mpr ⟨a, hn⟩)

/-- A handler that goes on to its next `await`. -/
theorem Kept.await (hk : Kept s) {n : Nat} {a a' : Await bc} (hn : s.waiting.get? n = some a)
    (hhash : ∀ req h, a' = .created req h → ∃ salt, h = bc.hash req.password salt)
    (hcompare : ∀ req u, a' = .compared req u → u ∈ s.users ∧ u.username = req.username) :
    Kept (s.await n a') where
  usernames := hk.usernames
  ids := hk.ids
  made := hk.made
  numbers := by
    rw [await_numbers hn]
    exact hk.numbers
  hashed m req h hm := by
    rw [AuthService.await, OrderedMap.get?_set] at hm
    split at hm
    · exact hhash req h (Option.some.inj hm)
    · exact hk.hashed m req h hm
  comparing m req u hm := by
    rw [AuthService.await, OrderedMap.get?_set] at hm
    split at hm
    · exact hcompare req u (Option.some.inj hm)
    · exact hk.comparing m req u hm
  logins := hk.logins

/-- The number of a request moves from the handlers that wait to the answers. -/
theorem answer_numbers {n : Nat} {a : Await bc} (hn : s.waiting.get? n = some a) (r : Request)
    (response : Response jwt) :
    ((s.answer n r response).waiting.keys ++ (s.answer n r response).answers.map Answer.number).Perm
      (s.waiting.keys ++ s.answers.map Answer.number) := by
  have hmem : n ∈ s.waiting.keys := OrderedMap.mem_keys.mpr ⟨a, hn⟩
  have herase : (s.waiting.erase n).keys = s.waiting.keys.erase n := by
    rw [s.waiting.nodup_keys.erase_eq_filter, OrderedMap.erase, OrderedMap.keys_filter]
    exact List.filter_congr fun k _ => by by_cases h : k = n <;> simp [h]
  have hwaiting : (n :: (s.waiting.erase n).keys).Perm s.waiting.keys := by
    rw [herase]
    exact (List.perm_cons_erase hmem).symm
  simp only [AuthService.answer, List.map_append, List.map_cons, List.map_nil]
  rw [← List.append_assoc]
  exact (List.perm_append_singleton _ _).trans (hwaiting.append_right _)

/-- A handler that ends without having made a row. -/
theorem Kept.answer (hk : Kept s) {n : Nat} {a : Await bc} (hn : s.waiting.get? n = some a)
    {r : Request} {response : Response jwt} (hreg : ∀ req auth, r = .register req →
      response ≠ .ok auth)
    (hlogin : ∀ req auth, r = .login req → response = .ok auth →
      ∃ u ∈ s.users, Names auth u ∧ u.username = req.username ∧
        bc.compare req.password u.passwordHash = true) :
    Kept (s.answer n r response) where
  usernames := hk.usernames
  ids := hk.ids
  made := by
    have hnone : Answer.registration? ⟨n, r, response⟩ = none := by
      unfold Answer.registration?
      split
      · rename_i req auth hr hresponse
        exact absurd hresponse (hreg req auth hr)
      · rfl
    have hsame : (s.answer n r response).registrations = s.registrations := by
      simp [AuthService.registrations, AuthService.answer, List.filterMap_append, hnone]
    rw [hsame]
    exact hk.made
  numbers := (answer_numbers hn r response).trans hk.numbers
  hashed m req h hm := by
    rw [AuthService.answer, OrderedMap.get?_erase] at hm
    split at hm
    · cases hm
    · exact hk.hashed m req h hm
  comparing m req u hm := by
    rw [AuthService.answer, OrderedMap.get?_erase] at hm
    split at hm
    · cases hm
    · exact hk.comparing m req u hm
  logins b hb req auth hr hresponse := by
    rcases List.mem_append.mp hb with hb | hb
    · exact hk.logins b hb req auth hr hresponse
    · rw [List.mem_singleton.mp hb] at hr hresponse
      exact hlogin req auth hr hresponse

/-- A registration that ends with a row of its own. -/
theorem Kept.register (hk : Kept s) {n : Nat} {req : RegisterRequest} {passwordHash : bc.Hash}
    {id : String} (hn : s.waiting.get? n = some (.created req passwordHash))
    (hnew : ∀ u ∈ s.users, u.id ≠ id ∧ u.username ≠ req.username) :
    Kept ((s.addUser ⟨id, req.username, req.email, passwordHash⟩).answer n (.register req)
      (AuthService.sign id req.username)) where
  usernames := by
    simp only [AuthService.answer, AuthService.addUser, List.map_append, List.map_cons,
      List.map_nil]
    refine List.Nodup.append hk.usernames (List.nodup_singleton _) ?_
    rw [List.disjoint_singleton]
    intro hin
    obtain ⟨u, hu, heq⟩ := List.mem_map.mp hin
    exact (hnew u hu).2 heq
  ids := by
    simp only [AuthService.answer, AuthService.addUser, List.map_append, List.map_cons,
      List.map_nil]
    refine List.Nodup.append hk.ids (List.nodup_singleton _) ?_
    rw [List.disjoint_singleton]
    intro hin
    obtain ⟨u, hu, heq⟩ := List.mem_map.mp hin
    exact (hnew u hu).1 heq
  made := by
    obtain ⟨salt, hsalt⟩ := hk.hashed n req passwordHash hn
    simp only [AuthService.registrations, AuthService.answer, AuthService.addUser,
      List.filterMap_append]
    exact List.rel_append hk.made (.cons ⟨⟨rfl, rfl, rfl⟩, rfl, salt, hsalt⟩ .nil)
  numbers := (answer_numbers (s := s.addUser ⟨id, req.username, req.email, passwordHash⟩)
    hn _ _).trans hk.numbers
  hashed m req' h hm := by
    rw [AuthService.answer, OrderedMap.get?_erase] at hm
    split at hm
    · cases hm
    · exact hk.hashed m req' h hm
  comparing m req' u hm := by
    rw [AuthService.answer, OrderedMap.get?_erase] at hm
    split at hm
    · cases hm
    · obtain ⟨hu, hname⟩ := hk.comparing m req' u hm
      exact ⟨List.mem_append_left _ hu, hname⟩
  logins b hb req' auth hr hresponse := by
    rcases List.mem_append.mp hb with hb | hb
    · obtain ⟨u, hu, hrest⟩ := hk.logins b hb req' auth hr hresponse
      exact ⟨u, List.mem_append_left _ hu, hrest⟩
    · rw [List.mem_singleton.mp hb] at hr
      cases hr

theorem Kept.receive (hk : Kept s) (r : Request) : Kept (s.receive r) where
  usernames := hk.usernames
  ids := hk.ids
  made := hk.made
  numbers := by
    have hnew : s.received ∉ s.waiting.keys := fun hin =>
      absurd (List.mem_range.mp (hk.numbers.mem_iff.mp (List.mem_append_left _ hin)))
        (Nat.lt_irrefl _)
    simp only [AuthService.receive, AuthService.await, OrderedMap.keys,
      OrderedMap.entries_set_of_not_mem hnew, List.map_append, List.map_cons, List.map_nil,
      List.range_succ, List.append_assoc, List.singleton_append]
    exact List.perm_middle.trans ((hk.numbers.cons _).trans (List.perm_append_singleton _ _).symm)
  hashed m req h hm := by
    rw [AuthService.receive, AuthService.await, OrderedMap.get?_set] at hm
    split at hm
    · cases r <;> cases hm
    · exact hk.hashed m req h hm
  comparing m req u hm := by
    rw [AuthService.receive, AuthService.await, OrderedMap.get?_set] at hm
    split at hm
    · cases r <;> cases hm
    · exact hk.comparing m req u hm
  logins := hk.logins

theorem Effect.kept (h : Effect s s') (hk : Kept s) : Kept s' := by
  cases h with
  | received => exact hk.receive _
  | hashing hn => exact hk.await hn (by simp) (by simp)
  | @inserting n req salt hn =>
    refine hk.await hn (fun req' h heq => ?_) (by simp)
    cases heq
    exact ⟨salt, rfl⟩
  | refused hn hno => exact hk.answer hn (fun _ auth _ => hno auth) (by simp)
  | registered hn hnew => exact hk.register hn hnew
  | unknown hn _ => exact hk.answer hn (by simp) (by simp)
  | comparing hn hu hname =>
    refine hk.await hn (by simp) fun req' u' heq => ?_
    cases heq
    exact ⟨hu, hname⟩
  | @compared n req user hn =>
    obtain ⟨hu, hname⟩ := hk.comparing n req user hn
    refine hk.answer hn (by simp) fun req' auth heq hresponse => ?_
    cases heq
    split at hresponse
    · rename_i hok
      exact ⟨user, hu, sign_names user hresponse, hname, hok⟩
    · cases hresponse

theorem Kept.run {is : List (Input bc)} (h : Trace AuthService.Step s is s') (hk : Kept s) :
    Kept s' :=
  h.inv (I := Kept) (fun _ _ _ hk hstep => (effect_of_step hstep).kept hk) hk

/-! ## Accounts -/

theorem map_eq_of_forall₂ {α β γ : Type} {R : α → β → Prop} {f : α → γ} {g : β → γ}
    (hR : ∀ a b, R a b → f a = g b) {as : List α} {bs : List β} (h : List.Forall₂ R as bs) :
    as.map f = bs.map g := by
  induction h with
  | nil => rfl
  | cons hab _ ih => rw [List.map_cons, List.map_cons, hR _ _ hab, ih]

theorem exists_of_forall₂ {α β : Type} {R : α → β → Prop} {as : List α} {bs : List β}
    (h : List.Forall₂ R as bs) :
    (∀ a ∈ as, ∃ b ∈ bs, R a b) ∧ ∀ b ∈ bs, ∃ a ∈ as, R a b := by
  induction h with
  | nil => simp
  | cons hab _ ih =>
    obtain ⟨ihl, ihr⟩ := ih
    constructor
    · rintro x (_ | ⟨_, hx⟩)
      · exact ⟨_, List.mem_cons_self, hab⟩
      · obtain ⟨b, hb, hR⟩ := ihl x hx
        exact ⟨b, List.mem_cons_of_mem _ hb, hR⟩
    · rintro y (_ | ⟨_, hy⟩)
      · exact ⟨_, List.mem_cons_self, hab⟩
      · obtain ⟨a, ha, hR⟩ := ihr y hy
        exact ⟨a, List.mem_cons_of_mem _ ha, hR⟩

/-- What the answers of the service say of who is who. -/
structure Identity (s : AuthService bc jwt) : Prop where
  once : (s.answers.map Answer.number).Nodup
  usernames : (s.registrations.map (·.1.username)).Nodup
  userIds : (s.registrations.map (·.2.userId)).Nodup
  logins : ∀ a ∈ s.answers, ∀ req auth, a.request = .login req → a.response = .ok auth →
    ∃ reg ∈ s.registrations, reg.1.username = req.username ∧ bc.same req.password reg.1.password ∧
      auth.userId = reg.2.userId
  tokens : ∀ a ∈ s.answers, ∀ auth, a.response = .ok auth →
    jwt.verify auth.accessToken = some ⟨auth.userId, auth.username⟩ ∧
      ∃ reg ∈ s.registrations, reg.2.userId = auth.userId ∧ reg.1.username = auth.username

/-- The account of a successful answer. -/
theorem Kept.account (hk : Kept s) {a : Answer jwt} (ha : a ∈ s.answers) {auth : AuthResponse jwt}
    (hok : a.response = .ok auth) : ∃ u ∈ s.users, Names auth u := by
  cases hr : a.request with
  | register req =>
    have hreg : (req, auth) ∈ s.registrations := by
      refine List.mem_filterMap.mpr ⟨a, ha, ?_⟩
      simp only [Answer.registration?, hr, hok]
    obtain ⟨u, hu, hmade⟩ := (exists_of_forall₂ hk.made).1 _ hreg
    exact ⟨u, hu, hmade.names⟩
  | login req =>
    obtain ⟨u, hu, hnames, -⟩ := hk.logins a ha req auth hr hok
    exact ⟨u, hu, hnames⟩

theorem Kept.identity (hk : Kept s) : Identity s where
  once := (List.nodup_append.mp (hk.numbers.nodup_iff.mpr List.nodup_range)).2.1
  usernames := by
    rw [map_eq_of_forall₂ (fun _ _ h => h.username.symm) hk.made]
    exact hk.usernames
  userIds := by
    rw [map_eq_of_forall₂ (fun _ _ h => h.names.userId) hk.made]
    exact hk.ids
  logins a ha req auth hr hok := by
    obtain ⟨u, hu, hnames, hname, hcompare⟩ := hk.logins a ha req auth hr hok
    obtain ⟨reg, hreg, hmade⟩ := (exists_of_forall₂ hk.made).2 u hu
    obtain ⟨salt, hhash⟩ := hmade.password
    rw [hhash, bc.compare_hash] at hcompare
    exact ⟨reg, hreg, hmade.username.symm.trans hname, hcompare,
      hnames.userId.trans hmade.names.userId.symm⟩
  tokens a ha auth hok := by
    obtain ⟨u, hu, hnames⟩ := hk.account ha hok
    obtain ⟨reg, hreg, hmade⟩ := (exists_of_forall₂ hk.made).2 u hu
    refine ⟨?_, reg, hreg, hmade.names.userId.trans hnames.userId.symm,
      hmade.username.symm.trans hnames.username.symm⟩
    rw [hnames.token, jwt.verify_sign, hnames.userId, hnames.username]

/-- From `s` on, whoever logs in with the name and the password of a registration gets its
account. -/
def LogsIn (s s' : AuthService bc jwt) : Prop :=
  ∀ reg ∈ s.registrations, ∀ a ∈ s'.answers, s.received ≤ a.number → ∀ req, a.request = .login req →
    req.username = reg.1.username → bc.same req.password reg.1.password →
    ∃ auth, a.response = .ok auth ∧ auth.userId = reg.2.userId

/-- The logins of a user that have been answered, of those since request `k`. -/
structure Welcomes (k : Nat) (u : UserRow bc) (s : AuthService bc jwt) : Prop where
  kept : Kept s
  user : u ∈ s.users
  logins : ∀ a ∈ s.answers, k ≤ a.number → ∀ req, a.request = .login req →
    req.username = u.username →
    bc.compare req.password u.passwordHash = true →
    ∃ auth, a.response = .ok auth ∧ auth.userId = u.id

theorem Effect.welcomes (h : Effect s s') {k : Nat} {u : UserRow bc} (hw : Welcomes k u s) :
    Welcomes k u s' := by
  have hsame : ∀ {user : UserRow bc} {username}, user ∈ s.users → user.username = username →
      username = u.username → user = u := by
    intro user username huser hname heq
    exact List.inj_on_of_nodup_map hw.kept.usernames huser hw.user (hname.trans heq)
  have hanswer : ∀ {n : Nat} {r : Request} {response : Response jwt},
      (∀ req, r = .login req → req.username = u.username →
        bc.compare req.password u.passwordHash = true →
        ∃ auth, response = .ok auth ∧ auth.userId = u.id) →
      ∀ a ∈ s.answers ++ [⟨n, r, response⟩], k ≤ a.number → ∀ req, a.request = .login req →
        req.username = u.username → bc.compare req.password u.passwordHash = true →
        ∃ auth, a.response = .ok auth ∧ auth.userId = u.id := by
    intro n r response hnew a ha hk req hr
    rcases List.mem_append.mp ha with ha | ha
    · exact hw.logins a ha hk req hr
    · rw [List.mem_singleton.mp ha] at hr ⊢
      exact hnew req hr
  have hkept := h.kept hw.kept
  cases h with
  | received => exact ⟨hkept, hw.user, hw.logins⟩
  | hashing => exact ⟨hkept, hw.user, hw.logins⟩
  | inserting => exact ⟨hkept, hw.user, hw.logins⟩
  | comparing => exact ⟨hkept, hw.user, hw.logins⟩
  | refused => exact ⟨hkept, hw.user, hanswer (by simp)⟩
  | registered => exact ⟨hkept, List.mem_append_left _ hw.user, hanswer (by simp)⟩
  | unknown _ hnone =>
    refine ⟨hkept, hw.user, hanswer fun req' hr hname _ => ?_⟩
    cases hr
    exact absurd hname.symm (hnone u hw.user)
  | @compared n req user hn =>
    refine ⟨hkept, hw.user, hanswer fun req' hr hname hcompare => ?_⟩
    cases hr
    obtain ⟨huser, huname⟩ := hw.kept.comparing n req user hn
    obtain rfl := hsame huser huname hname
    rw [if_pos hcompare]
    exact ⟨_, rfl, rfl⟩

theorem Kept.logsIn (hk : Kept s) {is : List (Input bc)} (h : Trace AuthService.Step s is s') :
    LogsIn s s' := by
  intro reg hreg a ha hnumber req hr hname hpassword
  obtain ⟨u, hu, hmade⟩ := (exists_of_forall₂ hk.made).1 reg hreg
  have hold : ∀ b ∈ s.answers, b.number < s.received := fun b hb =>
    List.mem_range.mp (hk.numbers.mem_iff.mp (List.mem_append_right _ (List.mem_map_of_mem hb)))
  have hw : Welcomes s.received u s' := h.inv (I := Welcomes s.received u)
    (fun _ _ _ hw hstep => (effect_of_step hstep).welcomes hw)
    ⟨hk, hu, fun b hb hle => absurd (hold b hb) (Nat.not_lt.mpr hle)⟩
  obtain ⟨salt, hhash⟩ := hmade.password
  obtain ⟨auth, hok, hid⟩ := hw.logins a ha hnumber req hr (hname.trans hmade.username.symm)
    (by rw [hhash, bc.compare_hash]; exact hpassword)
  exact ⟨auth, hok, hid.trans hmade.names.userId.symm⟩

/-- **Who is who.** Whatever the interleaving of registrations and logins: no request is answered
twice, no name and no id belongs to two registrations, every login that succeeds is for the account
its name was registered for and shows a password bcrypt takes for the one of that registration,
every token is verified to the account it was issued to; and once a registration is answered,
whoever logs in with its name and password gets its account. -/
theorem identity_sound {is later : List (Input bc)} (h : Trace AuthService.Step {} is s)
    (hlater : Trace AuthService.Step s later s') : Identity s' ∧ LogsIn s s' :=
  ⟨((kept_start.run h).run hlater).identity, (kept_start.run h).logsIn hlater⟩

/-! ## A race for a name -/

/-- Passwords as they are. -/
def plain : Bcrypt where
  Salt := Unit
  Hash := String
  hash password _ := password
  compare password hash := password = hash
  same password password' := password = password'
  compare_hash := decide_eq_true_iff

/-- Tokens as they are. -/
def readable : Jwt where
  Token := JwtPayload
  sign := id
  verify := some
  verify_sign _ := rfl

/-- Both find the name free, and one of them gets it. -/
def race : List (Input plain) :=
  [.request (.register ⟨"ann", "red", none⟩), .request (.register ⟨"ann", "blue", none⟩),
    .resume 0 () "",
    .resume 1 () "", .resume 0 () "", .resume 1 () "", .resume 0 () "u1", .resume 1 () "u2"]

def logins : List (Input plain) :=
  [.request (.login ⟨"ann", "red"⟩), .request (.login ⟨"ann", "blue"⟩), .resume 2 () "",
    .resume 3 () "",
    .resume 3 () "", .resume 2 () ""]

def Answer.userId? (a : Answer readable) : Option String :=
  match a.response with
  | .ok auth => some auth.userId
  | _ => none

theorem race_identity : ∃ s s' : AuthService plain readable,
    AuthService.play {} race = some s ∧ s.play logins = some s' ∧
      s'.answers.map (fun a => (a.number, a.userId?)) =
        [(0, some "u1"), (1, none), (3, none), (2, some "u1")] ∧
      Identity s' ∧ LogsIn s s' := by
  have hplay : ((({} : AuthService plain readable).play race).bind fun s =>
      (s.play logins).map fun s' =>
      s'.answers.map fun a => (a.number, a.userId?)) =
        some [(0, some "u1"), (1, none), (3, none), (2, some "u1")] := by decide +kernel
  obtain ⟨s, hs, hplay⟩ := Option.bind_eq_some_iff.mp hplay
  obtain ⟨s', hs', hanswers⟩ := Option.map_eq_some_iff.mp hplay
  have hsound := identity_sound (AuthService.play_trace hs) (AuthService.play_trace hs')
  exact ⟨s, s', hs, hs', hanswers, hsound⟩

end Boardgame.Auth
