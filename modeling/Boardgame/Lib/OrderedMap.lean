import Mathlib.Data.List.Nodup

/-!
# Lib.OrderedMap

A finite map that remembers insertion order, the iteration order of a JavaScript `Map` or object:
`set` on a present key replaces the value in place, `set` on a new key appends, `erase` drops the
entry. A plain object puts keys that look like array indices first and has no key `__proto__` of its
own; it is such a map for all other keys, as ids made of uuids, names or coordinates are. The field
`nodup` keeps the keys distinct, so `get?` and membership among `entries` agree (`mem_entries`).

* `get?_set`, `get?_erase`, `get?_modify`, `get?_filter`: lookups after an update.
* `set_set`, `set_self`: the second `set` under a key wins; setting what is there changes nothing.
* `count_set`, `count_set_new`, `count_eraseAll`: how many values have a property after an update.
-/

structure OrderedMap (K V : Type) where
  entries : List (K × V)
  nodup : (entries.map Prod.fst).Nodup

namespace OrderedMap

variable {K V : Type}

theorem ext {m m' : OrderedMap K V} (h : m.entries = m'.entries) : m = m' := by
  cases m; cases m'; cases h; rfl

instance [DecidableEq K] [DecidableEq V] : DecidableEq (OrderedMap K V) := fun m m' =>
  decidable_of_iff (m.entries = m'.entries) ⟨ext, fun h => h ▸ rfl⟩

def empty : OrderedMap K V := ⟨[], List.nodup_nil⟩

instance : EmptyCollection (OrderedMap K V) := ⟨empty⟩

instance : Inhabited (OrderedMap K V) := ⟨empty⟩

def keys (m : OrderedMap K V) : List K := m.entries.map Prod.fst

def values (m : OrderedMap K V) : List V := m.entries.map Prod.snd

theorem nodup_keys (m : OrderedMap K V) : m.keys.Nodup := m.nodup

theorem nodup_entries (m : OrderedMap K V) : m.entries.Nodup := m.nodup.of_map _

/-- Two entries under one key are one entry. -/
theorem eq_of_mem {m : OrderedMap K V} {k : K} {v v' : V} (h : (k, v) ∈ m.entries)
    (h' : (k, v') ∈ m.entries) : v = v' := by
  have := List.inj_on_of_nodup_map m.nodup h h' rfl
  exact congrArg Prod.snd this

def filter (p : K → V → Bool) (m : OrderedMap K V) : OrderedMap K V :=
  ⟨m.entries.filter fun e => p e.1 e.2, m.nodup.sublist ((List.filter_sublist).map _)⟩

def mapValues {W : Type} (f : K → V → W) (m : OrderedMap K V) : OrderedMap K W :=
  ⟨m.entries.map fun e =>
    (e.1, f e.1 e.2), by simpa [List.map_map, Function.comp_def] using m.nodup⟩

variable [DecidableEq K]

def get? (m : OrderedMap K V) (k : K) : Option V := (m.entries.find? (·.1 = k)).map Prod.snd

def has (m : OrderedMap K V) (k : K) : Bool := (m.get? k).isSome

theorem mem_entries {m : OrderedMap K V} {k : K} {v : V} :
    (k, v) ∈ m.entries ↔ m.get? k = some v := by
  constructor
  · intro h
    cases hf : m.entries.find? (·.1 = k) with
    | none => simpa using List.find?_eq_none.mp hf _ h
    | some e =>
      have he := List.mem_of_find?_eq_some hf
      have hk : e.1 = k := by simpa using List.find?_some hf
      subst hk
      simp [get?, hf, eq_of_mem he h]
  · intro h
    obtain ⟨e, he, rfl⟩ := Option.map_eq_some_iff.mp h
    have hk : e.1 = k := by simpa using List.find?_some he
    subst hk
    exact List.mem_of_find?_eq_some he

theorem mem_keys {m : OrderedMap K V} {k : K} : k ∈ m.keys ↔ ∃ v, m.get? k = some v := by
  simp only [keys, List.mem_map, Prod.exists, exists_and_right, exists_eq_right, mem_entries]

theorem mem_values {m : OrderedMap K V} {v : V} : v ∈ m.values ↔ ∃ k, m.get? k = some v := by
  simp only [values, List.mem_map, Prod.exists, exists_eq_right, mem_entries]

theorem get?_eq_none {m : OrderedMap K V} {k : K} : m.get? k = none ↔ k ∉ m.keys := by
  rw [mem_keys, ← Option.not_isSome_iff_eq_none, Option.isSome_iff_exists]

@[simp] theorem get?_empty (k : K) : (∅ : OrderedMap K V).get? k = none := rfl

theorem get?_filter (p : K → V → Bool) (m : OrderedMap K V) (k : K) :
    (m.filter p).get? k = (m.get? k).filter (p k) := by
  apply Option.ext
  intro v
  rw [← mem_entries]
  simp [filter, List.mem_filter, mem_entries, Option.filter_eq_some_iff]

theorem get?_mapValues {W : Type} (f : K → V → W) (m : OrderedMap K V) (k : K) :
    (m.mapValues f).get? k = (m.get? k).map (f k) := by
  apply Option.ext
  intro w
  rw [← mem_entries]
  simp only [mapValues, List.mem_map, Prod.exists, Prod.mk.injEq, Option.map_eq_some_iff]
  constructor
  · rintro ⟨a, v, h, rfl, rfl⟩; exact ⟨v, mem_entries.mp h, rfl⟩
  · rintro ⟨v, h, rfl⟩; exact ⟨k, v, mem_entries.mpr h, rfl, rfl⟩

def erase (m : OrderedMap K V) (k : K) : OrderedMap K V := m.filter fun k' _ => k' ≠ k

@[simp] theorem get?_erase (m : OrderedMap K V) (k k' : K) :
    (m.erase k).get? k' = if k' = k then none else m.get? k' := by
  rw [erase, get?_filter]
  split <;> rename_i h
  · cases m.get? k' <;> simp [h]
  · cases m.get? k' <;> simp [h]

omit [DecidableEq K] in
theorem keys_filter (m : OrderedMap K V) (p : K → Bool) :
    (m.filter fun k _ => p k).keys = m.keys.filter p := by
  rw [keys, filter, keys, List.filter_map]
  rfl

theorem mem_keys_erase {m : OrderedMap K V} {k k' : K} : k' ∈ (m.erase k).keys ↔
    k' ∈ m.keys ∧ k' ≠ k := by
  rw [erase, keys_filter, List.mem_filter, decide_eq_true_eq]

/-- Drop every key of `ks`. -/
def eraseAll (m : OrderedMap K V) (ks : List K) : OrderedMap K V := ks.foldl erase m

@[simp] theorem get?_eraseAll (m : OrderedMap K V) (ks : List K) (k : K) :
    (m.eraseAll ks).get? k = if k ∈ ks then none else m.get? k := by
  induction ks generalizing m with
  | nil => simp [eraseAll]
  | cons a ks ih =>
    have := ih (m.erase a)
    simp only [eraseAll, List.foldl_cons] at this ⊢
    rw [this, get?_erase]
    by_cases h : k ∈ ks <;> by_cases h' : k = a <;> simp [h, h']

/-- The entries after `set`: replaced in place when the key is present, appended otherwise. -/
def setEntries (es : List (K × V)) (k : K) (v : V) : List (K × V) :=
  if k ∈ es.map Prod.fst then es.map fun e => if e.1 = k then (k, v) else e else es ++ [(k, v)]

theorem setEntries_keys (es : List (K × V)) (k : K) (v : V) :
    (setEntries es k v).map Prod.fst =
      if k ∈ es.map Prod.fst then es.map Prod.fst else es.map Prod.fst ++ [k] := by
  unfold setEntries
  split
  · rw [List.map_map]
    apply List.map_congr_left
    intro e _
    simp only [Function.comp]
    split <;> simp_all
  · simp

theorem setEntries_nodup {es : List (K × V)} (h : (es.map Prod.fst).Nodup) (k : K) (v : V) :
    ((setEntries es k v).map Prod.fst).Nodup := by
  rw [setEntries_keys]
  split
  · exact h
  · rename_i hk
    exact List.nodup_append.mpr ⟨h, List.nodup_singleton k, by
      intro a ha b hb
      rw [List.mem_singleton] at hb
      subst hb
      rintro rfl
      exact hk ha⟩

def set (m : OrderedMap K V) (k : K) (v : V) : OrderedMap K V :=
  ⟨setEntries m.entries k v, setEntries_nodup m.nodup k v⟩

theorem entries_set_of_mem {m : OrderedMap K V} {k : K} {v : V} (h : k ∈ m.keys) :
    (m.set k v).entries = m.entries.map fun e => if e.1 = k then (k, v) else e := by
  simp only [set, setEntries]
  exact if_pos h

theorem entries_set_of_not_mem {m : OrderedMap K V} {k : K} {v : V} (h : k ∉ m.keys) :
    (m.set k v).entries = m.entries ++ [(k, v)] := by
  simp only [set, setEntries]
  exact if_neg h

theorem keys_set_of_mem {m : OrderedMap K V} {k : K} {v : V} (h : k ∈ m.keys) :
    (m.set k v).keys = m.keys := by
  simp only [keys, set, setEntries_keys]
  exact if_pos h

@[simp] theorem get?_set (m : OrderedMap K V) (k k' : K) (v : V) :
    (m.set k v).get? k' = if k' = k then some v else m.get? k' := by
  apply Option.ext
  intro w
  rw [← mem_entries]
  by_cases hk : k ∈ m.keys
  · rw [entries_set_of_mem hk, List.mem_map]
    by_cases hkk : k' = k
    · subst hkk
      obtain ⟨v₀, hv₀⟩ := mem_keys.mp hk
      simp only [if_true, Option.some.injEq]
      constructor
      · rintro ⟨e, he, h⟩
        split at h
        · cases h; rfl
        · subst h; simp at *
      · rintro rfl
        exact ⟨(k', v₀), mem_entries.mpr hv₀, by simp⟩
    · rw [if_neg hkk, ← mem_entries]
      constructor
      · rintro ⟨e, he, h⟩
        split at h
        · cases h; exact absurd rfl hkk
        · subst h; exact he
      · intro h
        exact ⟨(k', w), h, by simp [hkk]⟩
  · rw [entries_set_of_not_mem hk, List.mem_append, List.mem_singleton, mem_entries]
    by_cases hkk : k' = k
    · subst hkk
      simp [get?_eq_none.mpr hk, eq_comm]
    · simp [hkk]

theorem mem_keys_set {m : OrderedMap K V} {k k' : K} {v : V} :
    k' ∈ (m.set k v).keys ↔ k' = k ∨ k' ∈ m.keys := by
  simp only [mem_keys, get?_set]
  by_cases h : k' = k <;> simp [h]

theorem set_set (m : OrderedMap K V) (k : K) (v v' : V) : (m.set k v).set k v' = m.set k v' := by
  apply ext
  by_cases hk : k ∈ m.keys
  · have hk' : k ∈ (m.set k v).keys := mem_keys_set.mpr (.inl rfl)
    rw [entries_set_of_mem hk', entries_set_of_mem hk, entries_set_of_mem hk, List.map_map]
    apply List.map_congr_left
    intro e _
    by_cases h : e.1 = k <;> simp [h]
  · have hk' : k ∈ (m.set k v).keys := mem_keys_set.mpr (.inl rfl)
    rw [entries_set_of_mem hk', entries_set_of_not_mem hk, entries_set_of_not_mem hk,
      List.map_append]
    congr 1
    · conv_rhs => rw [← List.map_id m.entries]
      apply List.map_congr_left
      intro e he
      have : e.1 ≠ k := fun h => hk (h ▸ List.mem_map_of_mem he)
      simp [this]
    · simp

/-- Setting what is there changes nothing. -/
theorem set_self {m : OrderedMap K V} {k : K} {v : V} (h : m.get? k = some v) : m.set k v = m := by
  apply ext
  rw [entries_set_of_mem (mem_keys.mpr ⟨v, h⟩)]
  conv_rhs => rw [← List.map_id m.entries]
  apply List.map_congr_left
  intro e he
  by_cases hk : e.1 = k
  · subst hk
    rw [if_pos rfl, eq_of_mem (mem_entries.mpr h) he]
    rfl
  · simp [hk]

/-- Change the value under a key, if there is one. -/
def modify (m : OrderedMap K V) (k : K) (f : V → V) : OrderedMap K V :=
  match m.get? k with
  | some v => m.set k (f v)
  | none => m

theorem get?_modify (m : OrderedMap K V) (k k' : K) (f : V → V) :
    (m.modify k f).get? k' = if k' = k then (m.get? k).map f else m.get? k' := by
  cases h : m.get? k with
  | some v => simp only [modify, h, get?_set, Option.map_some]
  | none =>
    simp only [modify, h, Option.map_none]
    split
    · rename_i hk
      rw [hk, h]
    · rfl

/-- A sequence of `set`s. -/
def setAll (m : OrderedMap K V) (es : List (K × V)) : OrderedMap K V :=
  es.foldl (fun m e => m.set e.1 e.2) m

def ofEntries (es : List (K × V)) : OrderedMap K V := setAll ∅ es

theorem setAll_append (m : OrderedMap K V) (es es' : List (K × V)) :
    m.setAll (es ++ es') = (m.setAll es).setAll es' := List.foldl_append

theorem entries_setAll (es : List (K × V)) : ∀ m : OrderedMap K V,
    ((m.entries ++ es).map Prod.fst).Nodup → (m.setAll es).entries = m.entries ++ es := by
  induction es with
  | nil => intro m _; simp [setAll]
  | cons e es ih =>
    intro m h
    have hnew : e.1 ∉ m.keys := by
      rw [List.map_append, List.map_cons, List.nodup_append] at h
      intro hk
      exact h.2.2 _ hk _ (by simp) rfl
    have hset := entries_set_of_not_mem (v := e.2) hnew
    rw [setAll, List.foldl_cons, ← setAll, ih _ (by rw [hset]; simpa using h), hset]
    simp

/-- Entries under distinct keys are kept as they are. -/
theorem entries_ofEntries {es : List (K × V)} (h : (es.map Prod.fst).Nodup) :
    (ofEntries es).entries = es := entries_setAll es (∅ : OrderedMap K V) h

/-- Entries whose values are read off their keys: which one is set last makes no difference. -/
theorem get?_setAll_of_keys {f : K → V} {es : List (K × V)} (h : ∀ e ∈ es, e.2 = f e.1) (k : K) :
    ∀ m : OrderedMap K V, (m.setAll es).get? k =
      if k ∈ es.map Prod.fst then some (f k) else m.get? k := by
  induction es with
  | nil => exact fun m => rfl
  | cons e es ih =>
    intro m
    rw [setAll, List.foldl_cons, ← setAll, ih fun e he => h e (List.mem_cons_of_mem _ he), get?_set,
      h e List.mem_cons_self, List.map_cons]
    by_cases hk : k ∈ es.map Prod.fst
    · rw [if_pos hk, if_pos (List.mem_cons_of_mem _ hk)]
    · rw [if_neg hk]
      by_cases hke : k = e.1
      · rw [if_pos hke, if_pos (hke ▸ List.mem_cons_self), hke]
      · rw [if_neg hke, if_neg fun hmem => (List.mem_cons.mp hmem).elim hke hk]

/-- What is found was set, or there before. -/
theorem mem_of_get?_setAll {es : List (K × V)} {k : K} {v : V} :
    ∀ {m : OrderedMap K V}, (m.setAll es).get? k = some v → (k, v) ∈ es ∨ m.get? k = some v := by
  induction es with
  | nil => exact fun h => .inr h
  | cons e es ih =>
    intro m h
    rw [setAll, List.foldl_cons, ← setAll] at h
    rcases ih h with h | h
    · exact .inl (List.mem_cons_of_mem _ h)
    · rw [get?_set] at h
      split at h
      · rename_i hk
        cases h
        exact .inl (hk ▸ List.mem_cons_self)
      · exact .inr h

theorem get?_ofEntries {es : List (K × V)} (h : (es.map Prod.fst).Nodup) {k : K} {v : V} :
    (ofEntries es).get? k = some v ↔ (k, v) ∈ es := by
  rw [← mem_entries, entries_ofEntries h]

/-! ## Counting -/

/-- How many of the values satisfy `p`. -/
def count (p : V → Bool) (m : OrderedMap K V) : Nat := m.entries.countP fun e => p e.2

omit [DecidableEq K] in
theorem count_filter_le (p : V → Bool) (q : K → V → Bool) (m : OrderedMap K V) :
    (m.filter q).count p ≤ m.count p := List.filter_sublist.countP_le

theorem count_eraseAll_le (p : V → Bool) (ks : List K) (m : OrderedMap K V) :
    (m.eraseAll ks).count p ≤ m.count p := by
  induction ks generalizing m with
  | nil => exact Nat.le_refl _
  | cons k ks ih => exact Nat.le_trans (ih (m.erase k)) (count_filter_le p _ m)

/-- Erasing what does not count. -/
theorem count_erase {p : V → Bool} {m : OrderedMap K V} {k : K}
    (h : ∀ v, m.get? k = some v → p v = false) : (m.erase k).count p = m.count p := by
  simp only [count, erase, filter, List.countP_filter]
  apply List.countP_congr
  rintro ⟨k', v⟩ he
  simp only [Bool.and_eq_true, decide_eq_true_eq, and_iff_left_iff_imp]
  rintro hp rfl
  rw [h v (mem_entries.mp he)] at hp
  cases hp

theorem count_eraseAll {p : V → Bool} {ks : List K} : ∀ {m : OrderedMap K V},
    (∀ k ∈ ks, ∀ v, m.get? k = some v → p v = false) → (m.eraseAll ks).count p = m.count p := by
  induction ks with
  | nil => intro m _; rfl
  | cons k ks ih =>
    intro m h
    have hrest : ∀ k' ∈ ks, ∀ v, (m.erase k).get? k' = some v → p v = false := by
      intro k' hk' v hv
      rw [get?_erase] at hv
      split at hv
      · cases hv
      · exact h k' (List.mem_cons_of_mem _ hk') v hv
    exact (ih hrest).trans (count_erase (h k List.mem_cons_self))

theorem count_set_new {m : OrderedMap K V} {k : K} (h : k ∉ m.keys) (p : V → Bool) (v : V) :
    (m.set k v).count p = m.count p + (p v).toNat := by
  rw [count, entries_set_of_not_mem h, List.countP_append, List.countP_singleton, count]
  cases p v <;> rfl

/-- The old value stops counting, the new one counts. -/
theorem count_set {m : OrderedMap K V} {k : K} {v₀ : V} (h : m.get? k = some v₀)
    (p : V → Bool) (v : V) :
    (m.set k v).count p + (p v₀).toNat = m.count p + (p v).toNat := by
  obtain ⟨pre, post, hsplit⟩ := List.append_of_mem (mem_entries.mpr h)
  have hnd := m.nodup
  rw [hsplit, List.map_append, List.map_cons, List.nodup_append, List.nodup_cons] at hnd
  have hother : ∀ es : List (K × V), k ∉ es.map Prod.fst →
      (es.map fun e => if e.1 = k then (k, v) else e) = es := by
    intro es hk
    conv_rhs => rw [← List.map_id es]
    apply List.map_congr_left
    intro e he
    have hne : e.1 ≠ k := fun heq => hk (heq ▸ List.mem_map_of_mem he)
    rw [if_neg hne]
    rfl
  have hpre : k ∉ pre.map Prod.fst := fun hk => hnd.2.2 _ hk _ List.mem_cons_self rfl
  rw [count, count, entries_set_of_mem (mem_keys.mpr ⟨v₀, h⟩), hsplit, List.map_append,
    List.map_cons, hother pre hpre, hother post hnd.2.1.1]
  simp only [List.countP_append, List.countP_cons, if_true]
  cases p v₀ <;> cases p v <;> simp <;> omega

end OrderedMap
