import Mathlib.Data.List.Dedup

/-!
# Lib.Topic

Topic exchanges. A routing key is split into words at the dots; in a binding's pattern `*` stands
for one word and `#` for any number of them. A message goes to every queue with a binding of its
exchange that matches its key, once, however many of them match.

* `words_join`, `words_length`: the words of a key that is put together from parts.
* `Matches.length_eq`: without `#`, a pattern fixes the number of words.
* `mem_routes`: the queues a message goes to.
-/

namespace Topic

inductive Part where
  | word (w : List Char)
  | star
  | hash
  deriving DecidableEq

def words (key : String) : List (List Char) := key.toList.splitOn '.'

def part (w : List Char) : Part := if w = ['*'] then .star else if w = ['#'] then .hash else .word w

def pattern (key : String) : List Part := (words key).map part

/-- The words a pattern lets pass. -/
def Matches : List Part → List (List Char) → Bool
  | [], ws => ws.isEmpty
  | .word w :: ps, ws => ws.head? = some w && Matches ps ws.tail
  | .star :: ps, ws => ws.head?.isSome && Matches ps ws.tail
  | .hash :: ps, ws => ws.tails.any (Matches ps)

/-! ## Words -/

theorem words_join (a b : String) : words (a ++ "." ++ b) = words a ++ words b := by
  have hdot : (a ++ "." ++ b).toList = a.toList ++ '.' :: b.toList := by simp
  rw [words, hdot, List.splitOn_append_cons_self]
  rfl

theorem splitOn_length {α : Type} [BEq α] [LawfulBEq α] (a : α) (xs : List α) :
    (xs.splitOn a).length = xs.count a + 1 := by
  induction xs with
  | nil => rfl
  | cons x xs ih =>
    rw [List.splitOn_cons_eq_if_modifyHead, List.count_cons]
    split
    · rw [List.length_cons, ih]
    · rw [List.length_modifyHead, ih]

/-- A key has a word more than it has dots. -/
theorem words_length (key : String) : (words key).length = key.toList.count '.' + 1 :=
  splitOn_length _ _

theorem words_single {key : String} (h : '.' ∉ key.toList) : words key = [key.toList] :=
  List.splitOn_eq_singleton h

theorem Matches.length_eq {ps : List Part} (h : .hash ∉ ps) :
    ∀ {ws : List (List Char)}, Matches ps ws = true →
    ws.length = ps.length := by
  induction ps with
  | nil =>
    intro ws hm
    exact congrArg List.length (List.isEmpty_iff.mp hm)
  | cons p ps ih =>
    obtain ⟨hp, hps⟩ := not_or.mp (List.mem_cons.not.mp h)
    have hcons : ∀ {ws : List (List Char)}, ws.head?.isSome = true → Matches ps ws.tail = true →
        ws.length = ps.length + 1 := by
      intro ws hhead htail
      cases ws with
      | nil => cases hhead
      | cons w ws => exact congrArg (· + 1) (ih hps htail)
    intro ws hm
    cases p with
    | word w =>
      simp only [Matches, Bool.and_eq_true, decide_eq_true_eq] at hm
      exact hcons (by rw [hm.1]; rfl) hm.2
    | star =>
      simp only [Matches, Bool.and_eq_true] at hm
      exact hcons hm.1 hm.2
    | hash => exact absurd rfl hp

/-! ## Exchanges -/

/-- A queue takes the messages of an exchange whose keys match. -/
structure Binding where
  exchange : String
  routingKey : String
  queue : String
  deriving DecidableEq

def Binding.takes (b : Binding) (exchange key : String) : Bool :=
  b.exchange = exchange && Matches (pattern b.routingKey) (words key)

/-- The queues a message is put into. -/
def routes (bindings : List Binding) (exchange key : String) : List String :=
  ((bindings.filter (·.takes exchange key)).map Binding.queue).dedup

theorem mem_routes {bindings : List Binding} {exchange key queue : String} :
    queue ∈ routes bindings exchange key ↔ ∃ b ∈ bindings, b.takes exchange key = true ∧
    b.queue = queue := by
  simp only [routes, List.mem_dedup, List.mem_map, List.mem_filter, and_assoc]

end Topic
