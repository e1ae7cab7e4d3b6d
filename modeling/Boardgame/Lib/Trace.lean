/-!
# Lib.Trace

Runs of a labelled transition relation: `Trace step s ls t` says that the labels `ls`, in order,
lead from `s` to `t`. `Trace.inv` is the induction every invariant of a run goes through;
`Trace.inv_labels` is the same with a summary of the labels so far. `Recorded step` writes the two
ends of a step into its label, so that a property of a run can be read off its labels, and
`Recorded.forall_iff` extends an equivalence about one step to runs;
`Trace.drop_le` bounds what a potential loses by a count of labels; `film` computes the recorded run
that a list of inputs makes of a transition function, and `film_observed` reads it. `Since` says of
the labels that one has been seen and not been taken back.
-/

inductive Trace {S L : Type} (step : S → L → S → Prop) : S → List L → S → Prop where
  | nil {s : S} : Trace step s [] s
  | cons {s t u : S} {l : L} {ls : List L} :
      step s l t → Trace step t ls u → Trace step s (l :: ls) u

namespace Trace

variable {S L : Type} {step : S → L → S → Prop}

theorem single {s t : S} {l : L} (h : step s l t) : Trace step s [l] t := .cons h .nil

theorem nil_iff {s t : S} : Trace step s [] t ↔ t = s := by
  constructor
  · intro h; cases h; rfl
  · rintro rfl; exact .nil

theorem append {s t u : S} {ls ls' : List L} (h : Trace step s ls t) (h' : Trace step t ls' u) :
    Trace step s (ls ++ ls') u := by
  induction h with
  | nil => exact h'
  | cons hs _ ih => exact .cons hs (ih h')

theorem snoc {s t u : S} {ls : List L} {l : L} (h : Trace step s ls t) (h' : step t l u) :
    Trace step s (ls ++ [l]) u := h.append (single h')

theorem append_iff {s u : S} {ls ls' : List L} :
    Trace step s (ls ++ ls') u ↔ ∃ t, Trace step s ls t ∧ Trace step t ls' u := by
  constructor
  · intro h
    induction ls generalizing s with
    | nil => exact ⟨s, .nil, h⟩
    | cons l ls ih =>
      cases h with
      | cons hs ht =>
        obtain ⟨t, h₁, h₂⟩ := ih ht
        exact ⟨t, .cons hs h₁, h₂⟩
  · rintro ⟨t, h, h'⟩
    exact h.append h'

theorem cons_iff {s u : S} {l : L} {ls : List L} :
    Trace step s (l :: ls) u ↔ ∃ t, step s l t ∧ Trace step t ls u := by
  constructor
  · intro h; cases h with | cons hs ht => exact ⟨_, hs, ht⟩
  · rintro ⟨t, hs, ht⟩; exact .cons hs ht

theorem snoc_iff {s u : S} {l : L} {ls : List L} :
    Trace step s (ls ++ [l]) u ↔ ∃ t, Trace step s ls t ∧ step t l u := by
  rw [append_iff]
  constructor
  · rintro ⟨t, h, h'⟩
    obtain ⟨_, hs, hn⟩ := cons_iff.mp h'
    cases hn
    exact ⟨t, h, hs⟩
  · rintro ⟨t, h, hs⟩
    exact ⟨t, h, single hs⟩

/-- A property every step keeps holds at the end of a run that starts with it. -/
theorem inv {I : S → Prop} (keep : ∀ s l t, I s → step s l t → I t) {s t : S} {ls : List L}
    (h : Trace step s ls t) (h₀ : I s) : I t := by
  induction h with
  | nil => exact h₀
  | cons hs _ ih => exact ih (keep _ _ _ h₀ hs)

/-- The same for a property of the labels so far and the state they lead to. -/
theorem inv_labels {I : List L → S → Prop}
    (keep : ∀ pre s l t, I pre s → step s l t → I (pre ++ [l]) t) {s t : S} {ls : List L}
    (h : Trace step s ls t) : ∀ pre, I pre s → I (pre ++ ls) t := by
  induction h with
  | nil => intro pre h₀; simpa using h₀
  | cons hs _ ih =>
    intro pre h₀
    simpa using ih _ (keep _ _ _ _ h₀ hs)

/-- A run whose labels all have a property. -/
theorem restrict {P : L → Prop} {s t : S} {ls : List L} (h : Trace step s ls t)
    (hp : ∀ l ∈ ls, P l) : Trace (fun s l t => step s l t ∧ P l) s ls t := by
  induction h with
  | nil => exact .nil
  | cons hs _ ih =>
    exact .cons ⟨hs, hp _ List.mem_cons_self⟩ (ih fun l hl => hp l (List.mem_cons_of_mem _ hl))

/-- A run seen through a map of states and labels that takes steps to steps. -/
theorem simulate {S' L' : Type} {R : S' → L' → S' → Prop} {I : S → Prop} {f : S → S'} {k : L → L'}
    (keep : ∀ s l t, I s → step s l t → I t)
    (sim : ∀ s l t, I s → step s l t → R (f s) (k l) (f t)) {s t : S} {ls : List L}
    (h : Trace step s ls t) (h₀ : I s) : Trace R (f s) (ls.map k) (f t) := by
  induction h with
  | nil => exact .nil
  | cons hs _ ih => exact .cons (sim _ _ _ h₀ hs) (ih (keep _ _ _ h₀ hs))

/-- A potential that only counted labels lower, by at most `k` each. -/
theorem drop_le {I : S → Prop} {φ : S → Int} {p : L → Bool} {k : Int}
    (keep : ∀ s l t, I s → step s l t → I t)
    (drop : ∀ s l t, I s → step s l t → φ s ≤ φ t + if p l then k else 0) {s t : S} {ls : List L}
    (h : Trace step s ls t) (h₀ : I s) : φ s ≤ φ t + k * ls.countP p := by
  induction h with
  | nil => simp
  | @cons s t u l ls hs _ ih =>
    have h₁ := drop s l t h₀ hs
    have h₂ := ih (keep s l t h₀ hs)
    rw [List.countP_cons]
    by_cases hp : p l = true
    · rw [if_pos hp] at h₁ ⊢
      have hk : k * ((ls.countP p + 1 : Nat) : Int) = k * ls.countP p + k := by
        rw [Int.natCast_add, Int.mul_add, Int.natCast_one, Int.mul_one]
      omega
    · rw [if_neg hp] at h₁ ⊢
      rw [Nat.add_zero]
      omega

/-- A potential that every counted label lowers counts them. -/
theorem count_le {I : S → Prop} {φ : S → Nat} {p : L → Bool}
    (keep : ∀ s l t, I s → step s l t → I t)
    (pay : ∀ s l t, I s → step s l t → φ t + (if p l then 1 else 0) ≤ φ s) {s t : S} {ls : List L}
    (h : Trace step s ls t) (h₀ : I s) : ls.countP p ≤ φ s := by
  induction h with
  | nil => exact Nat.zero_le _
  | @cons s t u l ls hs _ ih =>
    have h₁ := pay s l t h₀ hs
    have h₂ := ih (keep s l t h₀ hs)
    rw [List.countP_cons]
    omega

end Trace

/-- A step with its two ends. -/
structure Record (S L : Type) where
  before : S
  label : L
  after : S

inductive Recorded {S L : Type} (step : S → L → S → Prop) : S → Record S L → S → Prop where
  | mk {s t : S} {l : L} : step s l t → Recorded step s ⟨s, l, t⟩ t

namespace Recorded

variable {S L : Type} {step : S → L → S → Prop}

theorem step_of {s t : S} {r : Record S L} (h : Recorded step s r t) :
    r.before = s ∧ r.after = t ∧ step s r.label t := by
  cases h with | mk h => exact ⟨rfl, rfl, h⟩

/-- Every run has a record. -/
theorem of_trace {s t : S} {ls : List L} (h : Trace step s ls t) :
    ∃ rs : List (Record S L), rs.map Record.label = ls ∧ Trace (Recorded step) s rs t := by
  induction h with
  | nil => exact ⟨[], rfl, .nil⟩
  | cons hs _ ih =>
    obtain ⟨rs, hl, h⟩ := ih
    exact ⟨⟨_, _, _⟩ :: rs, by rw [List.map_cons, hl], .cons (.mk hs) h⟩

/-- Every record of a run is a step from a state with the invariant. -/
theorem forall_inv {I : S → Prop} (keep : ∀ s l t, I s → step s l t → I t) {s t : S}
    {rs : List (Record S L)} (h : Trace (Recorded step) s rs t) (h₀ : I s) :
    ∀ r ∈ rs, I r.before ∧ step r.before r.label r.after := by
  induction h with
  | nil => simp
  | cons hs _ ih =>
    obtain ⟨rfl, rfl, hstep⟩ := step_of hs
    intro r hr
    rcases List.mem_cons.mp hr with rfl | hr
    · exact ⟨h₀, hstep⟩
    · exact ih (keep _ _ _ h₀ hstep) r hr

/-- What no step lowers was nowhere higher before. -/
theorem before_le {I : S → Prop} {φ : S → Nat} (keep : ∀ s l t, I s → step s l t → I t)
    (grow : ∀ s l t, I s → step s l t → φ s ≤ φ t) {s t : S} {rs : List (Record S L)}
    (h : Trace (Recorded step) s rs t) (h₀ : I s) : φ s ≤ φ t ∧ ∀ r ∈ rs, φ r.before ≤ φ t := by
  induction h with
  | nil => simp
  | cons hs _ ih =>
    obtain ⟨rfl, rfl, hstep⟩ := step_of hs
    obtain ⟨hle, hall⟩ := ih (keep _ _ _ h₀ hstep)
    have hfirst := Nat.le_trans (grow _ _ _ h₀ hstep) hle
    exact ⟨hfirst, List.forall_mem_cons.mpr ⟨hfirst, hall⟩⟩

/-- What one step keeps if and only if it has a property, a run keeps if and only if its steps
have. -/
theorem forall_iff {I J : S → Prop} {P : Record S L → Prop} (keep : ∀ s l t, J s → step s l t → J t)
    (one : ∀ r : Record S L, J r.before → step r.before r.label r.after → I r.before →
      (I r.after ↔ P r))
    {s t : S} {rs : List (Record S L)} (h : Trace (Recorded step) s rs t) (hJ : J s) (hI : I s) :
    (∀ r ∈ rs, I r.after) ↔ ∀ r ∈ rs, P r := by
  induction h with
  | nil => simp
  | @cons s u t r rs hs _ ih =>
    obtain ⟨rfl, rfl, hstep⟩ := step_of hs
    have hone := one r hJ hstep hI
    rw [List.forall_mem_cons, List.forall_mem_cons]
    constructor
    · rintro ⟨hI', hall⟩
      exact ⟨hone.mp hI', (ih (keep _ _ _ hJ hstep) hI').mp hall⟩
    · rintro ⟨hP, hall⟩
      exact ⟨hone.mpr hP, (ih (keep _ _ _ hJ hstep) (hone.mpr hP)).mpr hall⟩

theorem trace {s t : S} {rs : List (Record S L)} (h : Trace (Recorded step) s rs t) :
    Trace step s (rs.map Record.label) t := by
  induction h with
  | nil => exact .nil
  | cons hs _ ih => exact .cons (step_of hs).2.2 ih

end Recorded

/-- The steps a list of inputs leads through. -/
def film {S I L : Type} (turn : S → I → Option (L × S)) (s : S) : List I →
    Option (List (Record S L) × S)
  | [] => some ([], s)
  | i :: is =>
    match turn s i with
    | none => none
    | some (l, t) => (film turn t is).map fun rest => (⟨s, l, t⟩ :: rest.1, rest.2)

theorem film_trace {S I L : Type} {step : S → L → S → Prop} {turn : S → I → Option (L × S)}
    (hstep : ∀ {s i l t}, turn s i = some (l, t) → step s l t) {is : List I} :
    ∀ {s t : S} {rs : List (Record S L)}, film turn s is = some (rs, t) →
      Trace (Recorded step) s rs t := by
  induction is with
  | nil =>
    intro s t rs h
    cases h
    exact .nil
  | cons i is ih =>
    intro s t rs h
    rw [film] at h
    split at h
    · cases h
    · rename_i l u hturn
      obtain ⟨rest, hrest, hrs⟩ := Option.map_eq_some_iff.mp h
      cases hrs
      exact .cons (.mk (hstep hturn)) (ih hrest)

/-- What is observed of the run the inputs make, from a start that is computed. -/
theorem film_observed {ε R S I L α : Type} {step : S → L → S → Prop} {turn : S → I → Option (L × S)}
    (hstep : ∀ {s i l t}, turn s i = some (l, t) → step s l t) {x : Except ε R} {f : R → S}
    {is : List I} {observe : List (Record S L) × S → α} {y : α}
    (h : x.toOption.bind (fun r => (film turn (f r) is).map observe) = some y) :
    ∃ r rs s, x = .ok r ∧ Trace (Recorded step) (f r) rs s ∧ observe (rs, s) = y := by
  cases x with
  | error e => cases h
  | ok r =>
    obtain ⟨⟨rs, s⟩, hfilm, h⟩ := Option.map_eq_some_iff.mp h
    have htrace : Trace (Recorded step) (f r) rs s :=
      @film_trace S I L step turn hstep is _ _ _ hfilm
    exact ⟨r, rs, s, rfl, htrace, h⟩

/-- Some label that opens stands in `ls`, and none that closes after it. -/
def Since {L : Type} (opens closes : L → Prop) (ls : List L) : Prop :=
  ∃ pre l post, ls = pre ++ l :: post ∧ opens l ∧ ∀ l' ∈ post, ¬ closes l'

namespace Since

variable {L : Type} {opens closes : L → Prop}

theorem not_nil : ¬ Since opens closes [] := by
  rintro ⟨pre, l, post, h, -⟩
  simp at h

theorem snoc {ls : List L} {l : L} :
    Since opens closes (ls ++ [l]) ↔ opens l ∨ (¬ closes l ∧ Since opens closes ls) := by
  constructor
  · rintro ⟨pre, l₀, post, h, ho, hc⟩
    rcases List.eq_nil_or_concat post with rfl | ⟨init, last, rfl⟩
    · obtain ⟨-, hl⟩ := List.append_inj' h rfl
      cases hl
      exact .inl ho
    · rw [List.concat_eq_append, ← List.cons_append, ← List.append_assoc] at h
      obtain ⟨rfl, hl⟩ := List.append_inj' h rfl
      cases hl
      exact .inr ⟨hc l (by simp), pre, l₀, init, rfl, ho, fun l' hl' => hc l' (by simp [hl'])⟩
  · rintro (ho | ⟨hc, pre, l₀, post, rfl, ho, hpost⟩)
    · exact ⟨ls, l, [], rfl, ho, by simp⟩
    · refine ⟨pre, l₀, post ++ [l], by simp, ho, fun l' hl' => ?_⟩
      rcases List.mem_append.mp hl' with hl' | hl'
      · exact hpost l' hl'
      · exact List.mem_singleton.mp hl' ▸ hc

end Since
