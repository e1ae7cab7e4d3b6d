import Boardgame.Lib.OrderedMap
import Boardgame.Lib.Trace

/-!
# Auth.Users

Accounts (`users.service.ts`, `auth.service.ts`): registering and logging in. A handler runs without
a break up to its next `await`: a query of the database, a hash, an insert. Any number of handlers
run at once, in any interleaving. The table keeps usernames and ids unique, as its definition asks.
One moment is assumed to be one: an insert, and the return of the `create` that awaits it. In
between, the row is in the table and its registration has no answer yet; a query that finds it there
is taken to come after.

* `Effect`: what one stretch of a handler does; `effect_of_step` says that it does nothing else.
-/

namespace Boardgame.Auth

/-- What the services rely on of bcrypt. Passwords are the `same` if it does not tell them apart: it
reads no more than their first 72 bytes. -/
structure Bcrypt where
  Salt : Type
  Hash : Type
  hash : String → Salt → Hash
  compare : String → Hash → Bool
  same : String → String → Prop
  compare_hash : ∀ {password password' salt}, compare password (hash password' salt) = true ↔
    same password password'

structure JwtPayload where
  sub : String
  username : String
  deriving DecidableEq

/-- What the services rely on of the token service: with the secret they share, a token that was
signed is verified to the payload it was signed for, until it expires. Tokens are used before that:
the expiry (`expiresIn`, seven days) is left out. -/
structure Jwt where
  Token : Type
  sign : JwtPayload → Token
  verify : Token → Option JwtPayload
  verify_sign : ∀ payload, verify (sign payload) = some payload

structure RegisterRequest where
  username : String
  password : String
  email : Option String := none
  deriving DecidableEq

structure LoginRequest where
  username : String
  password : String
  deriving DecidableEq

variable (bc : Bcrypt) (jwt : Jwt)

/-- A row of the table `users`. -/
structure UserRow where
  id : String
  username : String
  email : Option String
  passwordHash : bc.Hash

structure AuthResponse where
  userId : String
  username : String
  accessToken : jwt.Token
  expiresIn : Nat

inductive Request where
  | register (req : RegisterRequest)
  | login (req : LoginRequest)
  deriving DecidableEq

inductive Response where
  | ok (auth : AuthResponse jwt)
  /-- `ConflictException`. -/
  | conflict
  /-- `UnauthorizedException`. -/
  | unauthorized
  /-- The database refuses the insert. -/
  | failed

structure Answer where
  number : Nat
  request : Request
  response : Response jwt

/-- What a handler waits for. -/
inductive Await where
  /-- The `findUnique` of `create`. -/
  | taken (req : RegisterRequest)
  | hashed (req : RegisterRequest)
  | created (req : RegisterRequest) (passwordHash : bc.Hash)
  /-- The `findUnique` of `verifyPassword`. -/
  | found (req : LoginRequest)
  | compared (req : LoginRequest) (user : UserRow bc)

/-- The table, the handlers that wait, each under the number of its request, and what was
answered. -/
structure AuthService where
  users : List (UserRow bc) := []
  waiting : OrderedMap Nat (Await bc) := ∅
  answers : List (Answer jwt) := []
  received : Nat := 0

/-- A request, or the end of what a handler waits for; `salt` and `id` are what bcrypt and the
database make up on the way. -/
inductive Input where
  | request (r : Request)
  | resume (number : Nat) (salt : bc.Salt) (id : String)

variable {bc jwt}

def Request.query : Request → Await bc
  | .register req => .taken req
  | .login req => .found req

namespace AuthService

def findUnique (s : AuthService bc jwt) (username : String) : Option (UserRow bc) :=
  s.users.find? (·.username = username)

/-- `AuthService.sign`. -/
def sign (userId username : String) : Response jwt :=
  .ok
    { userId, username
      accessToken := jwt.sign ⟨userId, username⟩
      expiresIn := 60 * 60 * 24 * 7 }

def await (number : Nat) (a : Await bc) (s : AuthService bc jwt) : AuthService bc jwt :=
  { s with waiting := s.waiting.set number a }

def answer (number : Nat) (request : Request) (response : Response jwt) (s : AuthService bc jwt) :
    AuthService bc jwt :=
  { s with
    waiting := s.waiting.erase number
    answers := s.answers ++ [⟨number, request, response⟩] }

/-- The first stretch of a handler, to its query. -/
def receive (s : AuthService bc jwt) (r : Request) : AuthService bc jwt :=
  { s.await s.received r.query with received := s.received + 1 }

def addUser (user : UserRow bc) (s : AuthService bc jwt) : AuthService bc jwt :=
  { s with users := s.users ++ [user] }

/-- Ids and usernames are unique, or the insert fails. The row counts as there when `create`
returns. -/
def insert (number : Nat) (req : RegisterRequest) (passwordHash : bc.Hash) (id : String)
    (s : AuthService bc jwt) : AuthService bc jwt :=
  if s.users.any fun u => u.id = id ∨ u.username = req.username then s.answer number
    (.register req) .failed
  else
    (s.addUser ⟨id, req.username, req.email, passwordHash⟩).answer number (.register req)
    (sign id req.username)

/-- One stretch of the handler of a request, from what it waited for to its next `await` or its
end. -/
def resume (s : AuthService bc jwt) (number : Nat) (salt : bc.Salt) (id : String) :
    Option (AuthService bc jwt) :=
  (s.waiting.get? number).map fun
    | .taken req =>
      if (s.findUnique req.username).isSome then s.answer number (.register req) .conflict
      else s.await number (.hashed req)
    | .hashed req => s.await number (.created req (bc.hash req.password salt))
    | .created req passwordHash => s.insert number req passwordHash id
    | .found req =>
      match s.findUnique req.username with
      | none => s.answer number (.login req) .unauthorized
      | some user => s.await number (.compared req user)
    | .compared req user =>
      s.answer number (.login req)
        (if bc.compare req.password user.passwordHash then sign user.id
          user.username else .unauthorized)

def turn (s : AuthService bc jwt) : Input bc → Option (AuthService bc jwt)
  | .request r => some (s.receive r)
  | .resume number salt id => s.resume number salt id

inductive Step (s : AuthService bc jwt) (i : Input bc) (s' : AuthService bc jwt) : Prop where
  | mk : s.turn i = some s' → Step s i s'

def play (s : AuthService bc jwt) : List (Input bc) → Option (AuthService bc jwt)
  | [] => some s
  | i :: is => (s.turn i).bind fun s' => play s' is

theorem play_trace {is : List (Input bc)} : ∀ {s s' : AuthService bc jwt}, s.play is = some s' →
    Trace Step s is s' := by
  induction is with
  | nil =>
    intro s s' h
    cases h
    exact .nil
  | cons i is ih =>
    intro s s' h
    obtain ⟨s₁, hturn, hrest⟩ := Option.bind_eq_some_iff.mp h
    exact .cons (.mk hturn) (ih hrest)

end AuthService

/-! ## What a stretch does -/

/-- What a stretch of the handler of a request does: it goes on to its next `await`, having changed
nothing, or it ends; and one of the ends of a registration adds the row it reports. -/
inductive Effect (s : AuthService bc jwt) : AuthService bc jwt → Prop where
  | received {r : Request} : Effect s (s.receive r)
  | hashing {n : Nat} {req : RegisterRequest} : s.waiting.get? n = some (.taken req) →
      Effect s (s.await n (.hashed req))
  | inserting {n : Nat} {req : RegisterRequest} {salt : bc.Salt} :
      s.waiting.get? n = some (.hashed req) →
      Effect s (s.await n (.created req (bc.hash req.password salt)))
  | refused {n : Nat} {req : RegisterRequest} {a : Await bc} {response : Response jwt} :
      s.waiting.get? n = some a → (∀ auth, response ≠ .ok auth) →
      Effect s (s.answer n (.register req) response)
  | registered {n : Nat} {req : RegisterRequest} {passwordHash : bc.Hash} {id : String} :
      s.waiting.get? n = some (.created req passwordHash) →
      (∀ u ∈ s.users, u.id ≠ id ∧ u.username ≠ req.username) →
      Effect s ((s.addUser ⟨id, req.username, req.email, passwordHash⟩).answer n (.register req)
        (AuthService.sign id req.username))
  | unknown {n : Nat} {req : LoginRequest} : s.waiting.get? n = some (.found req) →
      (∀ u ∈ s.users, u.username ≠ req.username) → Effect s (s.answer n (.login req) .unauthorized)
  | comparing {n : Nat} {req : LoginRequest} {user : UserRow bc} :
      s.waiting.get? n = some (.found req) →
      user ∈ s.users → user.username = req.username → Effect s (s.await n (.compared req user))
  | compared {n : Nat} {req : LoginRequest} {user : UserRow bc} :
      s.waiting.get? n = some (.compared req user) →
      Effect s (s.answer n (.login req)
        (if bc.compare req.password user.passwordHash then AuthService.sign user.id
          user.username else .unauthorized))

theorem effect_of_step {s s' : AuthService bc jwt} {i : Input bc} (h : AuthService.Step s i s') :
    Effect s s' := by
  obtain ⟨hturn⟩ := h
  cases i with
  | request r =>
    cases hturn
    exact .received
  | resume n salt id =>
    obtain ⟨a, ha, heq⟩ := Option.map_eq_some_iff.mp hturn
    cases a with
    | taken req =>
      dsimp only at heq
      split at heq
      · subst heq
        exact .refused ha (by simp)
      · subst heq
        exact .hashing ha
    | hashed req =>
      subst heq
      exact .inserting ha
    | created req passwordHash =>
      subst heq
      dsimp only
      unfold AuthService.insert
      split
      · exact .refused ha (by simp)
      · rename_i hnew
        refine .registered ha fun u hu => ?_
        rw [List.any_eq_true] at hnew
        push Not at hnew
        simpa using hnew u hu
    | found req =>
      dsimp only at heq
      split at heq
      · rename_i hnone
        subst heq
        exact .unknown ha fun u hu => by simpa using List.find?_eq_none.mp hnone u hu
      · rename_i user hsome
        subst heq
        exact .comparing ha (List.mem_of_find?_eq_some hsome) (by simpa using List.find?_some hsome)
    | compared req user =>
      subst heq
      exact .compared ha

end Boardgame.Auth
