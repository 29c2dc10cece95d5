import Mathlib.Data.List.Nodup
import Mathlib.Data.List.Lookmap
import Mathlib.Tactic.Tauto

/-!
# Insertion-ordered dictionaries

A `Dict` is a list of key-value pairs without repeated keys, in the order in
which the keys were first inserted: setting a key that is present replaces its
value and keeps its place, setting a new key appends it, and deleting a key
closes the gap. Iterating over a dictionary is iterating over that list.

The absence of repeated keys is a field of the structure, so that looking a key
up (`get?`) and finding it in the list (`mem_items_iff`) say the same.
-/

universe u v w

/-- A dictionary that remembers the order in which its keys were inserted. -/
structure Dict (κ : Type u) (ν : Type v) where
  /-- The entries, in order. -/
  items : List (κ × ν)
  /-- No key occurs twice. -/
  nodup_keys : (items.map Prod.fst).Nodup
  deriving DecidableEq

namespace Dict

variable {κ : Type u} {ν : Type v} {μ : Type w}

@[ext] theorem ext {d d' : Dict κ ν} (h : d.items = d'.items) : d = d' := by
  cases d
  cases d'
  congr

/-- The empty dictionary. -/
def empty : Dict κ ν := ⟨[], List.nodup_nil⟩

instance : EmptyCollection (Dict κ ν) := ⟨empty⟩
instance : Inhabited (Dict κ ν) := ⟨empty⟩

/-- The keys, in order. -/
def keys (d : Dict κ ν) : List κ := d.items.map Prod.fst

/-- The values, in order. -/
def values (d : Dict κ ν) : List ν := d.items.map Prod.snd

/-- The same keys with the values mapped. -/
def map (d : Dict κ ν) (f : κ → ν → μ) : Dict κ μ :=
  ⟨d.items.map fun e => (e.1, f e.1 e.2), by simpa [Function.comp_def] using d.nodup_keys⟩

/-- The entries whose key and value satisfy `p`. -/
def filter (d : Dict κ ν) (p : κ → ν → Bool) : Dict κ ν :=
  ⟨d.items.filter fun e => p e.1 e.2, d.nodup_keys.sublist (List.filter_sublist.map _)⟩

theorem nodup_keys' (d : Dict κ ν) : d.keys.Nodup := d.nodup_keys

@[simp] theorem items_empty : (∅ : Dict κ ν).items = [] := rfl
@[simp] theorem keys_empty : (∅ : Dict κ ν).keys = [] := rfl
@[simp] theorem values_empty : (∅ : Dict κ ν).values = [] := rfl

@[simp] theorem keys_map (d : Dict κ ν) (f : κ → ν → μ) : (d.map f).keys = d.keys := by
  simp [keys, map, Function.comp_def]

variable [DecidableEq κ]

theorem lookup_cons_eq (k k' : κ) (v : ν) (l : List (κ × ν)) :
    ((k', v) :: l).lookup k = if k = k' then some v else l.lookup k := by
  by_cases h : k = k'
  · simp [h]
  · have hb : (k == k') = false := beq_eq_false_iff_ne.2 h
    simp [List.lookup_cons, hb, h]

theorem lookup_eq_none {k : κ} {l : List (κ × ν)} (h : k ∉ l.map Prod.fst) : l.lookup k = none := by
  rw [List.lookup_eq_none_iff]
  intro e he
  rw [bne_iff_ne]
  exact fun hk => h (hk ▸ List.mem_map_of_mem he)

/-- The entries with `k` set to `v`, in place if `k` occurs, at the end otherwise. -/
def setItems (k : κ) (v : ν) : List (κ × ν) → List (κ × ν)
  | [] => [(k, v)]
  | (k', v') :: l => if k' = k then (k, v) :: l else (k', v') :: setItems k v l

theorem map_fst_setItems (k : κ) (v : ν) (l : List (κ × ν)) :
    (setItems k v l).map Prod.fst =
      if k ∈ l.map Prod.fst then l.map Prod.fst else l.map Prod.fst ++ [k] := by
  induction l with
  | nil => simp [setItems]
  | cons e l ih =>
    obtain ⟨k', v'⟩ := e
    by_cases hk : k' = k
    · simp [setItems, hk]
    · have hk' : k ≠ k' := fun h => hk h.symm
      by_cases hm : k ∈ l.map Prod.fst <;> simp_all [setItems]

theorem mem_of_mem_setItems {k : κ} {v : ν} {l : List (κ × ν)} {e : κ × ν}
    (h : e ∈ setItems k v l) : e = (k, v) ∨ e ∈ l := by
  induction l with
  | nil => exact .inl (List.mem_singleton.1 h)
  | cons e' l ih =>
    rw [setItems] at h
    split at h
    · exact (List.mem_cons.1 h).imp_right (List.mem_cons_of_mem _)
    · rcases List.mem_cons.1 h with rfl | h
      · exact .inr List.mem_cons_self
      · exact (ih h).imp_right (List.mem_cons_of_mem _)

theorem lookup_setItems (k k' : κ) (v : ν) (l : List (κ × ν)) :
    (setItems k v l).lookup k' = if k' = k then some v else l.lookup k' := by
  induction l with
  | nil => simp [setItems, lookup_cons_eq]
  | cons e l ih =>
    obtain ⟨k₀, v₀⟩ := e
    by_cases h₀ : k₀ = k
    · by_cases h : k' = k <;> simp [setItems, lookup_cons_eq, h₀, h]
    · rw [setItems, if_neg h₀, lookup_cons_eq, ih, lookup_cons_eq]
      by_cases h : k' = k
      · have hk : k' ≠ k₀ := fun hk => h₀ (hk ▸ h)
        rw [if_neg hk, if_pos h, if_pos h]
      · simp [h]

theorem nodup_setItems {k : κ} {v : ν} {l : List (κ × ν)} (h : (l.map Prod.fst).Nodup) :
    ((setItems k v l).map Prod.fst).Nodup := by
  rw [map_fst_setItems]
  split
  · exact h
  · refine List.nodup_append.2 ⟨h, List.nodup_singleton k, ?_⟩
    rintro a ha b hb rfl
    exact ‹k ∉ _› (List.mem_singleton.1 hb ▸ ha)

/-- The value at `k`, if there is one. -/
def get? (d : Dict κ ν) (k : κ) : Option ν := d.items.lookup k

/-- The value at `k`, or `v`. -/
def getD (d : Dict κ ν) (k : κ) (v : ν) : ν := (d.get? k).getD v

/-- Whether `k` is a key. -/
def contains (d : Dict κ ν) (k : κ) : Bool := (d.get? k).isSome

/-- `d[k] = v`. -/
def set (d : Dict κ ν) (k : κ) (v : ν) : Dict κ ν :=
  ⟨setItems k v d.items, nodup_setItems d.nodup_keys⟩

/-- `d.pop(k, None)`. -/
def erase (d : Dict κ ν) (k : κ) : Dict κ ν :=
  ⟨d.items.filter fun e => e.1 ≠ k, d.nodup_keys.sublist (List.filter_sublist.map _)⟩

/-- `f` applied to the value at `k`, if there is one. -/
def modify (d : Dict κ ν) (k : κ) (f : ν → ν) : Dict κ ν :=
  d.map fun k' v => if k' = k then f v else v

/-- `d.update(pairs)`: the pairs set one after the other. -/
def update (d : Dict κ ν) (pairs : List (κ × ν)) : Dict κ ν :=
  pairs.foldl (fun d e => d.set e.1 e.2) d

/-- The dictionary of a list of pairs, a later pair overriding an earlier one. -/
def ofList (pairs : List (κ × ν)) : Dict κ ν := empty.update pairs

theorem lookup_eq_some_iff_mem {l : List (κ × ν)} (hl : (l.map Prod.fst).Nodup) {k : κ} {v : ν} :
    l.lookup k = some v ↔ (k, v) ∈ l := by
  induction l with
  | nil => simp
  | cons e l ih =>
    obtain ⟨k', v'⟩ := e
    rw [List.map_cons, List.nodup_cons] at hl
    by_cases h : k = k'
    · subst h
      have hv : (k, v) ∉ l := fun hm => hl.1 (List.mem_map.2 ⟨_, hm, rfl⟩)
      simp only [List.lookup_cons_self, List.mem_cons, hv, or_false, Prod.mk.injEq, true_and,
        Option.some.injEq]
      exact eq_comm
    · simp [lookup_cons_eq, h, ih hl.2]

theorem get?_eq_some_iff {d : Dict κ ν} {k : κ} {v : ν} : d.get? k = some v ↔ (k, v) ∈ d.items :=
  lookup_eq_some_iff_mem d.nodup_keys

theorem get?_eq_none_iff {d : Dict κ ν} {k : κ} : d.get? k = none ↔ k ∉ d.keys := by
  simp only [get?, List.lookup_eq_none_iff, keys, List.mem_map, not_exists, not_and, bne_iff_ne]
  exact ⟨fun h e he hk => h e he hk.symm, fun h e he hk => h e he hk.symm⟩

theorem contains_iff {d : Dict κ ν} {k : κ} : d.contains k = true ↔ k ∈ d.keys := by
  rw [contains, Option.isSome_iff_ne_none, ne_eq, get?_eq_none_iff, not_not]

theorem mem_keys_iff {d : Dict κ ν} {k : κ} : k ∈ d.keys ↔ ∃ v, d.get? k = some v := by
  rw [← contains_iff, contains, Option.isSome_iff_exists]

theorem mem_values_iff {d : Dict κ ν} {v : ν} : v ∈ d.values ↔ ∃ k, d.get? k = some v := by
  simp [values, get?_eq_some_iff]

@[simp] theorem get?_empty (k : κ) : (∅ : Dict κ ν).get? k = none := rfl

theorem get?_set (d : Dict κ ν) (k k' : κ) (v : ν) :
    (d.set k v).get? k' = if k' = k then some v else d.get? k' :=
  lookup_setItems k k' v d.items

@[simp] theorem get?_set_self (d : Dict κ ν) (k : κ) (v : ν) : (d.set k v).get? k = some v := by
  simp [get?_set]

theorem get?_set_of_ne (d : Dict κ ν) {k k' : κ} (v : ν) (h : k' ≠ k) :
    (d.set k v).get? k' = d.get? k' := by
  simp [get?_set, h]

theorem keys_set (d : Dict κ ν) (k : κ) (v : ν) :
    (d.set k v).keys = if k ∈ d.keys then d.keys else d.keys ++ [k] :=
  map_fst_setItems k v d.items

@[simp] theorem mem_keys_set {d : Dict κ ν} {k k' : κ} {v : ν} :
    k' ∈ (d.set k v).keys ↔ k' = k ∨ k' ∈ d.keys := by
  rw [keys_set]
  split
  · exact ⟨Or.inr, fun h => h.elim (fun h => h ▸ ‹k ∈ d.keys›) id⟩
  · simp [or_comm]

theorem get?_filter_eq_some_iff {d : Dict κ ν} {p : κ → ν → Bool} {k : κ} {v : ν} :
    (d.filter p).get? k = some v ↔ d.get? k = some v ∧ p k v = true := by
  rw [get?_eq_some_iff, get?_eq_some_iff]
  exact List.mem_filter

theorem get?_erase (d : Dict κ ν) (k k' : κ) :
    (d.erase k).get? k' = if k' = k then none else d.get? k' := by
  by_cases h : k' = k
  · subst h
    simp [get?_eq_none_iff, keys, erase]
  · rw [if_neg h]
    apply Option.ext
    intro v
    simp [get?_eq_some_iff, erase, h]

@[simp] theorem get?_erase_self (d : Dict κ ν) (k : κ) : (d.erase k).get? k = none := by
  simp [get?_erase]

theorem get?_erase_of_ne (d : Dict κ ν) {k k' : κ} (h : k' ≠ k) :
    (d.erase k).get? k' = d.get? k' := by
  simp [get?_erase, h]

@[simp] theorem mem_keys_erase {d : Dict κ ν} {k k' : κ} :
    k' ∈ (d.erase k).keys ↔ k' ≠ k ∧ k' ∈ d.keys := by
  simp only [mem_keys_iff, get?_erase]
  by_cases h : k' = k <;> simp [h]

theorem erase_of_notMem {d : Dict κ ν} {k : κ} (h : k ∉ d.keys) : d.erase k = d := by
  ext1
  exact List.filter_eq_self.2 fun e he => by
    simpa using fun hk : e.1 = k => h (hk ▸ List.mem_map_of_mem he)

theorem filter_setItems {k : κ} {v : ν} {l : List (κ × ν)} (h : k ∉ l.map Prod.fst) :
    (setItems k v l).filter (fun e => e.1 ≠ k) = l := by
  induction l with
  | nil => simp [setItems]
  | cons e l ih =>
    obtain ⟨k', v'⟩ := e
    rw [List.map_cons, List.mem_cons, not_or] at h
    have hk : k' ≠ k := fun hk => h.1 hk.symm
    rw [setItems, if_neg hk, List.filter_cons_of_pos (by simpa using hk), ih h.2]

/-- Deleting a key that was just added gives the dictionary back, order included. -/
theorem erase_set_of_notMem {d : Dict κ ν} {k : κ} (v : ν) (h : k ∉ d.keys) :
    (d.set k v).erase k = d := by
  ext1
  exact filter_setItems h

theorem set_set_items (k : κ) (v v' : ν) (l : List (κ × ν)) :
    setItems k v' (setItems k v l) = setItems k v' l := by
  induction l with
  | nil => simp [setItems]
  | cons e l ih =>
    obtain ⟨k', v₀⟩ := e
    by_cases h : k' = k <;> simp [setItems, h, ih]

@[simp] theorem set_set (d : Dict κ ν) (k : κ) (v v' : ν) : (d.set k v).set k v' = d.set k v' := by
  ext1
  exact set_set_items k v v' d.items

/-- Setting what is there already. -/
theorem set_of_get? {d : Dict κ ν} {k : κ} {v : ν} (h : d.get? k = some v) : d.set k v = d := by
  have hitems : ∀ {l : List (κ × ν)}, l.lookup k = some v → setItems k v l = l := by
    intro l
    induction l with
    | nil => exact fun h => by cases h
    | cons e l ih =>
      obtain ⟨k', v'⟩ := e
      intro hl
      rw [lookup_cons_eq] at hl
      rw [setItems]
      by_cases hk : k' = k
      · subst hk
        rw [if_pos rfl] at hl ⊢
        rw [Option.some.inj hl]
      · rw [if_neg (Ne.symm hk)] at hl
        rw [if_neg hk, ih hl]
  exact ext (hitems h)

theorem setItems_of_notMem {k : κ} {v : ν} {l : List (κ × ν)} (h : k ∉ l.map Prod.fst) :
    setItems k v l = l ++ [(k, v)] := by
  induction l with
  | nil => rfl
  | cons e l ih =>
    rw [List.map_cons, List.mem_cons, not_or] at h
    rw [setItems, if_neg (Ne.symm h.1), ih h.2, List.cons_append]

/-- Setting a new key adds its pair at the end. -/
theorem items_set_of_notMem {d : Dict κ ν} {k : κ} (v : ν) (h : k ∉ d.keys) :
    (d.set k v).items = d.items ++ [(k, v)] :=
  setItems_of_notMem h

/-- New keys are added in their order. -/
theorem items_update_of_nodup {d : Dict κ ν} {pairs : List (κ × ν)}
    (h : (d.keys ++ pairs.map Prod.fst).Nodup) : (d.update pairs).items = d.items ++ pairs := by
  induction pairs generalizing d with
  | nil => exact (List.append_nil _).symm
  | cons e pairs ih =>
    have hnew : e.1 ∉ d.keys := fun hmem =>
      (List.nodup_append.1 h).2.2 e.1 hmem e.1 List.mem_cons_self rfl
    have hkeys : (d.set e.1 e.2).keys = d.keys ++ [e.1] := by
      rw [keys, items_set_of_notMem e.2 hnew, List.map_append]
      rfl
    show ((d.set e.1 e.2).update pairs).items = _
    rw [ih (by rwa [hkeys, List.append_assoc]), items_set_of_notMem e.2 hnew, List.append_assoc]
    rfl

theorem items_ofList_of_nodup {pairs : List (κ × ν)} (h : (pairs.map Prod.fst).Nodup) :
    (ofList pairs).items = pairs :=
  items_update_of_nodup (d := ∅) h

/-- Dictionaries with the same keys, in the same order, and the same values are the same. -/
theorem ext_get? {d d' : Dict κ ν} (hkeys : d.keys = d'.keys) (h : ∀ k, d.get? k = d'.get? k) :
    d = d' := by
  obtain ⟨l, hl⟩ := d
  obtain ⟨l', hl'⟩ := d'
  ext1
  show l = l'
  induction l generalizing l' with
  | nil => exact (List.map_eq_nil_iff.1 hkeys.symm).symm
  | cons e l ih =>
    rcases l' with _ | ⟨e', l'⟩
    · cases hkeys
    obtain ⟨k, v⟩ := e
    obtain ⟨k', v'⟩ := e'
    obtain ⟨rfl, htail⟩ : k = k' ∧ l.map Prod.fst = l'.map Prod.fst := List.cons.inj hkeys
    simp only [get?, lookup_cons_eq] at h
    have hv : v = v' := by simpa using h k
    rw [hv, ih (List.nodup_cons.1 hl).2 l' (List.nodup_cons.1 hl').2 htail]
    intro k₂
    by_cases hk : k₂ = k
    · subst hk
      have hnone : ∀ {l : List (κ × ν)}, k₂ ∉ l.map Prod.fst → l.lookup k₂ = none := fun hmem =>
        List.lookup_eq_none_iff.2 fun e he => bne_iff_ne.2 fun heq =>
          hmem (heq ▸ List.mem_map_of_mem he)
      exact (hnone (List.nodup_cons.1 hl).1).trans (hnone (List.nodup_cons.1 hl').1).symm
    · show l.lookup k₂ = l'.lookup k₂
      simpa [hk] using h k₂

theorem get?_map (d : Dict κ ν) (f : κ → ν → μ) (k : κ) :
    (d.map f).get? k = (d.get? k).map (f k) := by
  obtain ⟨l, hl⟩ := d
  induction l with
  | nil => rfl
  | cons e l ih =>
    obtain ⟨k', v'⟩ := e
    have ih' := ih (List.nodup_cons.1 hl).2
    simp only [get?, map, List.map_cons, lookup_cons_eq] at ih' ⊢
    by_cases h : k = k' <;> simp [h, ih']

@[simp] theorem keys_modify (d : Dict κ ν) (k : κ) (f : ν → ν) : (d.modify k f).keys = d.keys :=
  keys_map d _

theorem get?_modify (d : Dict κ ν) (k k' : κ) (f : ν → ν) :
    (d.modify k f).get? k' = if k' = k then (d.get? k').map f else d.get? k' := by
  rw [modify, get?_map]
  by_cases h : k' = k <;> simp [h]

/-- A change that `g` does not see. -/
theorem map_modify {μ : Type*} {d : Dict κ ν} {k : κ} {f : ν → ν} {g : κ → ν → μ}
    (h : ∀ v, g k (f v) = g k v) : (d.modify k f).map g = d.map g := by
  refine ext_get? (by simp only [keys_map, keys_modify]) fun k' => ?_
  rw [get?_map, get?_map, get?_modify]
  by_cases hk : k' = k
  · subst hk
    rw [if_pos rfl, Option.map_map]
    exact congrArg (Option.map · (d.get? k')) (funext h)
  · rw [if_neg hk]

theorem erase_modify (d : Dict κ ν) (k : κ) (f : ν → ν) : (d.modify k f).erase k = d.erase k := by
  obtain ⟨l, hl⟩ := d
  ext1
  show (l.map fun e => (e.1, if e.1 = k then f e.2 else e.2)).filter (fun e => e.1 ≠ k) =
    l.filter fun e => e.1 ≠ k
  clear hl
  induction l with
  | nil => rfl
  | cons e l ih =>
    rw [List.map_cons]
    by_cases h : e.1 = k
    · rw [List.filter_cons_of_neg (by simpa using h), List.filter_cons_of_neg (by simpa using h), ih]
    · rw [List.filter_cons_of_pos (by simpa using h), List.filter_cons_of_pos (by simpa using h), ih,
        if_neg h]

theorem get?_update (d : Dict κ ν) (pairs : List (κ × ν)) (k : κ) :
    (d.update pairs).get? k = (pairs.reverse.lookup k).or (d.get? k) := by
  induction pairs generalizing d with
  | nil => simp [update]
  | cons e pairs ih =>
    rw [update, List.foldl_cons, ← update, ih, get?_set, List.reverse_cons, List.lookup_append]
    cases pairs.reverse.lookup k with
    | some v => simp
    | none =>
      obtain ⟨k', v'⟩ := e
      by_cases h : k = k' <;> simp [lookup_cons_eq, h]

theorem get?_update_of_notMem {d : Dict κ ν} {pairs : List (κ × ν)} {k : κ}
    (h : k ∉ pairs.map Prod.fst) : (d.update pairs).get? k = d.get? k := by
  have hnone : pairs.reverse.lookup k = none := by
    rw [List.lookup_eq_none_iff]
    intro p hp
    exact bne_iff_ne.2 fun he => h (he ▸ List.mem_map_of_mem (List.mem_reverse.1 hp))
  rw [get?_update, hnone, Option.none_or]

/-- A key has the value of one of the pairs, or the one it had. -/
theorem mem_of_get?_update {d : Dict κ ν} {pairs : List (κ × ν)} {k : κ} {v : ν}
    (h : (d.update pairs).get? k = some v) : (k, v) ∈ pairs ∨ d.get? k = some v := by
  rw [get?_update, Option.or_eq_some_iff] at h
  rcases h with h | ⟨-, h⟩
  · obtain ⟨l₁, l₂, hsplit, -⟩ := List.lookup_eq_some_iff.1 h
    exact .inl (List.mem_reverse.1 (hsplit ▸ List.mem_append_right _ List.mem_cons_self))
  · exact .inr h

/-- The last pair of a key counts. -/
theorem get?_update_of_last {d : Dict κ ν} {before after : List (κ × ν)} {k : κ} {v : ν}
    (h : k ∉ after.map Prod.fst) : (d.update (before ++ (k, v) :: after)).get? k = some v := by
  have hsplit : d.update (before ++ (k, v) :: after) =
      ((d.update before).set k v).update after := by
    rw [update, List.foldl_append, List.foldl_cons, update, update]
  rw [hsplit, get?_update_of_notMem h, get?_set_self]

theorem get?_ofList (pairs : List (κ × ν)) (k : κ) :
    (ofList pairs).get? k = pairs.reverse.lookup k := by
  rw [ofList, get?_update]
  simp [get?, empty]

/-- In a dictionary built from a list, a key has the value of one of its pairs. -/
theorem mem_of_get?_ofList {pairs : List (κ × ν)} {k : κ} {v : ν}
    (h : (ofList pairs).get? k = some v) : (k, v) ∈ pairs := by
  rw [get?_ofList, List.lookup_eq_some_iff] at h
  obtain ⟨l₁, l₂, h, -⟩ := h
  rw [← List.mem_reverse, h]
  simp

/-- Where the keys of a list are distinct, its dictionary has just its pairs. -/
theorem get?_ofList_of_nodup {pairs : List (κ × ν)} (h : (pairs.map Prod.fst).Nodup) {k : κ}
    {v : ν} : (ofList pairs).get? k = some v ↔ (k, v) ∈ pairs := by
  rw [get?_ofList, lookup_eq_some_iff_mem, List.mem_reverse]
  rwa [List.map_reverse, List.nodup_reverse]

theorem get?_ofList_eq_none {pairs : List (κ × ν)} {k : κ} :
    (ofList pairs).get? k = none ↔ k ∉ pairs.map Prod.fst := by
  rw [get?_ofList, List.lookup_eq_none_iff]
  simp only [List.mem_reverse, bne_iff_ne, List.mem_map, not_exists, not_and]
  exact ⟨fun h e he hk => h e he hk.symm, fun h e he hk => h e he hk.symm⟩

/-- Updating with another dictionary. -/
theorem get?_update_items (d d' : Dict κ ν) (k : κ) :
    (d.update d'.items).get? k = (d'.get? k).or (d.get? k) := by
  rw [get?_update, ← get?_ofList]
  congr 1
  cases hget : d'.get? k with
  | some v => exact (get?_ofList_of_nodup d'.nodup_keys).2 (get?_eq_some_iff.1 hget)
  | none => exact get?_ofList_eq_none.2 (get?_eq_none_iff.1 hget)

theorem mem_keys_ofList {pairs : List (κ × ν)} {k : κ} :
    k ∈ (ofList pairs).keys ↔ k ∈ pairs.map Prod.fst := by
  rw [← not_iff_not, ← get?_ofList_eq_none, get?_eq_none_iff]

/-- Going through a dictionary, where each step changes what is at its own key only. -/
theorem get?_foldl_items {d : Dict κ μ} {step : Dict κ ν → κ × μ → Dict κ ν}
    (val : κ → μ → Option ν)
    (hstep : ∀ acc k v k', (step acc (k, v)).get? k' = if k' = k then val k v else acc.get? k')
    (acc : Dict κ ν) (k : κ) :
    (d.items.foldl step acc).get? k = ((d.get? k).map (val k)).getD (acc.get? k) := by
  obtain ⟨l, hl⟩ := d
  show (l.foldl step acc).get? k = ((l.lookup k).map (val k)).getD (acc.get? k)
  induction l generalizing acc with
  | nil => rfl
  | cons e l ih =>
    obtain ⟨k', v⟩ := e
    rw [List.map_cons, List.nodup_cons] at hl
    rw [List.foldl_cons, ih _ hl.2, lookup_cons_eq]
    by_cases h : k = k'
    · subst h
      have hnone : l.lookup k = none := List.lookup_eq_none_iff.2 fun e he =>
        bne_iff_ne.2 fun hk => hl.1 (List.mem_map.2 ⟨e, he, hk.symm⟩)
      rw [hnone, if_pos rfl]
      exact (hstep _ _ _ _).trans (if_pos rfl)
    · rw [if_neg h]
      cases l.lookup k with
      | none => exact (hstep _ _ _ _).trans (if_neg h)
      | some v' => rfl

/-- `d.setdefault(k, []).extend(vs)`. -/
def push (d : Dict κ (List μ)) (k : κ) (vs : List μ) : Dict κ (List μ) :=
  d.set k (d.getD k [] ++ vs)

theorem getD_push (d : Dict κ (List μ)) (k k' : κ) (vs : List μ) :
    (d.push k vs).getD k' [] = d.getD k' [] ++ if k' = k then vs else [] := by
  rw [push, getD, get?_set]
  split
  · rename_i h
    rw [h]
    rfl
  · exact (List.append_nil _).symm

theorem mem_keys_push {d : Dict κ (List μ)} {k k' : κ} {vs : List μ} :
    k' ∈ (d.push k vs).keys ↔ k' = k ∨ k' ∈ d.keys := mem_keys_set

/-- Grouping a list: each key has what its elements are worth, in order. -/
theorem getD_foldl_push {α : Type*} (key : α → κ) (f : α → List μ) (l : List α)
    (d : Dict κ (List μ)) (k : κ) :
    (l.foldl (fun d a => d.push (key a) (f a)) d).getD k [] =
      d.getD k [] ++ (l.filter fun a => key a = k).flatMap f := by
  induction l generalizing d with
  | nil => simp
  | cons a l ih =>
    rw [List.foldl_cons, ih, getD_push]
    by_cases h : k = key a
    · subst h
      simp
    · have h' : ¬key a = k := fun h' => h h'.symm
      simp [h, h']

theorem mem_keys_foldl_push {α : Type*} {key : α → κ} {f : α → List μ} {l : List α}
    {d : Dict κ (List μ)} {k : κ} :
    k ∈ (l.foldl (fun d a => d.push (key a) (f a)) d).keys ↔ k ∈ l.map key ∨ k ∈ d.keys := by
  induction l generalizing d with
  | nil => simp
  | cons a l ih =>
    rw [List.foldl_cons, ih, mem_keys_push, List.map_cons, List.mem_cons]
    tauto

/-- The entries with a key are that of its value. -/
theorem filter_items_eq (d : Dict κ ν) (k : κ) :
    (d.items.filter fun e => e.1 = k) = ((d.get? k).map fun v => (k, v)).toList := by
  obtain ⟨l, hl⟩ := d
  show l.filter (fun e => e.1 = k) = ((l.lookup k).map fun v => (k, v)).toList
  induction l with
  | nil => rfl
  | cons e l ih =>
    obtain ⟨k', v⟩ := e
    rw [List.map_cons, List.nodup_cons] at hl
    rw [lookup_cons_eq]
    by_cases h : k = k'
    · subst h
      have hnone : l.filter (fun e => e.1 = k) = [] := List.filter_eq_nil_iff.2 fun e he hk =>
        hl.1 (List.mem_map.2 ⟨e, he, of_decide_eq_true hk⟩)
      rw [if_pos rfl, List.filter_cons_of_pos (by simp), hnone]
      rfl
    · have h' : ¬k' = k := fun h' => h h'.symm
      rw [if_neg h, List.filter_cons_of_neg (by simpa using h'), ih hl.2]

end Dict
