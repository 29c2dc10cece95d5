import Dnlab.Lib.Value

/-!
# Documents as JSON

What becomes of a document that is written as JSON and read back
(`Value.viaJson`): its keys become texts, and of the entries that then have one
key, the last counts. A document that is one of JSON already, with texts for
keys and each key once (`Value.isJson`), comes back as it was
(`Value.viaJson_of_isJson`).
-/

/-- The text that a key is written as. -/
def Key.json : Key → String
  | .str s => s
  | .other "True" => "true"
  | .other "False" => "false"
  | .other "None" => "null"
  | .other repr => repr

/-- Whether a key is a text. -/
def Key.isText : Key → Bool
  | .str _ => true
  | .other _ => false

theorem Key.str_json {k : Key} (h : k.isText = true) : .str k.json = k := by
  cases k with
  | str s => rfl
  | other r => cases h

namespace Value

mutual

/-- `json.loads(json.dumps(v))`. -/
def viaJson : Value → Value
  | .list l => .list (viaJsons l)
  | .dict d => .dict (Dict.ofList (viaJsonEntries d)).items
  | v => v

/-- The elements of a list. -/
def viaJsons : List Value → List Value
  | [] => []
  | v :: l => viaJson v :: viaJsons l

/-- The entries of a mapping, one after the other. -/
def viaJsonEntries : List (Key × Value) → List (Key × Value)
  | [] => []
  | (k, v) :: d => (.str k.json, viaJson v) :: viaJsonEntries d

end

mutual

/-- Whether a document is one that JSON can hold as it is. -/
def isJson : Value → Bool
  | .list l => areJson l
  | .dict d => decide (d.map Prod.fst).Nodup && entriesAreJson d
  | _ => true

/-- Whether all elements of a list are. -/
def areJson : List Value → Bool
  | [] => true
  | v :: l => isJson v && areJson l

/-- Whether the keys of a mapping are texts, and its values documents that JSON can hold. -/
def entriesAreJson : List (Key × Value) → Bool
  | [] => true
  | (k, v) :: d => k.isText && isJson v && entriesAreJson d

end

theorem areJson_iff {l : List Value} : areJson l = true ↔ ∀ v ∈ l, isJson v = true := by
  induction l with
  | nil => simp [areJson]
  | cons v l ih => rw [areJson, Bool.and_eq_true, ih, List.forall_mem_cons]

theorem entriesAreJson_iff {d : List (Key × Value)} : entriesAreJson d = true ↔
    ∀ e ∈ d, e.1.isText = true ∧ isJson e.2 = true := by
  induction d with
  | nil => simp [entriesAreJson]
  | cons e d ih =>
    rw [entriesAreJson, Bool.and_eq_true, Bool.and_eq_true, ih, List.forall_mem_cons]

theorem isJson_dict {d : List (Key × Value)} : isJson (.dict d) = true ↔
    (d.map Prod.fst).Nodup ∧ ∀ e ∈ d, e.1.isText = true ∧ isJson e.2 = true := by
  rw [isJson, Bool.and_eq_true, decide_eq_true_eq, entriesAreJson_iff]

theorem isJson_list {l : List Value} : isJson (.list l) = true ↔ ∀ v ∈ l, isJson v = true := by
  rw [isJson, areJson_iff]

theorem viaJsonEntries_eq_map (d : List (Key × Value)) :
    viaJsonEntries d = d.map fun e => (.str e.1.json, viaJson e.2) := by
  induction d with
  | nil => rfl
  | cons e d ih => rw [viaJsonEntries, ih, List.map_cons]

mutual

/-- A document of JSON comes back as it was. -/
theorem viaJson_of_isJson : ∀ v : Value, isJson v = true → viaJson v = v
  | .null, _ | .bool _, _ | .int _, _ | .str _, _ | .other _ _ _, _ => rfl
  | .list l, h => congrArg Value.list (viaJsons_of_areJson l h)
  | .dict d, h => by
    rw [isJson, Bool.and_eq_true, decide_eq_true_eq] at h
    rw [viaJson, viaJsonEntries_of_entriesAreJson d h.2, Dict.items_ofList_of_nodup h.1]

theorem viaJsons_of_areJson : ∀ l : List Value, areJson l = true → viaJsons l = l
  | [], _ => rfl
  | v :: l, h => by
    rw [areJson, Bool.and_eq_true] at h
    rw [viaJsons, viaJson_of_isJson v h.1, viaJsons_of_areJson l h.2]

theorem viaJsonEntries_of_entriesAreJson : ∀ d : List (Key × Value), entriesAreJson d = true →
    viaJsonEntries d = d
  | [], _ => rfl
  | (k, v) :: d, h => by
    rw [entriesAreJson, Bool.and_eq_true, Bool.and_eq_true] at h
    rw [viaJsonEntries, Key.str_json h.1.1, viaJson_of_isJson v h.1.2,
      viaJsonEntries_of_entriesAreJson d h.2]

end

/-- The keys of a mapping that was read back are texts. -/
theorem isText_of_viaJson {d : List (Key × Value)} {e : Key × Value}
    (he : e ∈ (Dict.ofList (viaJsonEntries d)).items) : e.1.isText = true := by
  have hget : (Dict.ofList (viaJsonEntries d)).get? e.1 = some e.2 := Dict.get?_eq_some_iff.2 he
  have hmem := Dict.mem_of_get?_ofList hget
  rw [viaJsonEntries_eq_map] at hmem
  obtain ⟨e', -, heq⟩ := List.mem_map.1 hmem
  rw [← (Prod.mk.inj heq).1]
  rfl

end Value
