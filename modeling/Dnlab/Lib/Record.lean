import Dnlab.Lib.Except
import Dnlab.Lib.Json

/-!
# Records read from documents

What the language does with a document that is taken for a sequence
(`Value.elems`), a mapping (`Value.entriesOf`, `Value.toMapping`), the arguments
of a call (`Value.kwargs`) or a key (`Value.key`), and the instances of a
dataclass, which are made of such arguments (`DataClass.make`). The values of
the fields are not checked: they are whatever the document has.
-/

/-- `str(k)`. -/
def Key.print : Key → String
  | .str s => s
  | .other repr => repr

namespace Value

/-- `for x in v`. -/
def elems : Value → Except String (List Value)
  | .list l => .ok l
  | .str s => .ok (s.toList.map fun c => .str (String.singleton c))
  | .dict d => .ok (d.map fun e => match e.1 with
    | .str s => .str s
    | .other repr => .other repr repr true)
  | _ => .error "TypeError: object is not iterable"

/-- `v.items()`. -/
def entriesOf : Value → Except String Mapping
  | .dict d => .ok d
  | _ => .error "AttributeError: object has no attribute 'items'"

/-- `v` as a key of a mapping. Numbers that are equal are kept apart unless they are printed
    alike. -/
def key : Value → Except String Key
  | .str s => .ok (.str s)
  | .list _ => .error "TypeError: unhashable type: 'list'"
  | .dict _ => .error "TypeError: unhashable type: 'dict'"
  | v => .ok (.other v.repr)

/-- An element of `dict(v)`. -/
def pair (v : Value) : Except String (Key × Value) := do
  match ← v.elems with
  | [k, w] => do
    let k ← k.key
    pure (k, w)
  | _ => .error "ValueError: dictionary update sequence element has the wrong length; 2 is required"

/-- `dict(v)`. -/
def toMapping : Value → Except String Mapping
  | .dict d => .ok d
  | v => do
    let l ← v.elems
    let pairs ← l.mapM pair
    pure (Dict.ofList pairs).items

/-- `f(**v)`: the arguments. -/
def kwargs : Value → Except String Mapping
  | .dict d => if d.all fun e => e.1.isText then .ok d else .error "TypeError: keywords must be strings"
  | _ => .error "TypeError: argument after ** must be a mapping"

/-- `v or \x7b\x7d`. -/
def orEmpty (v : Value) : Value := if v.truthy then v else .dict []

/-- `str(v or s)`. -/
def orText (v : Value) (s : String) : String := if v.truthy then v.print else s

/-- The entries of a value that is a mapping; of any other value, none. -/
def fields : Value → Mapping
  | .dict d => d
  | _ => []

/-- `v is None`. -/
def isNull : Value → Bool
  | .null => true
  | _ => false

theorem isNull_iff {v : Value} : v.isNull = true ↔ v = .null := by
  cases v <;> simp [Value.isNull]

theorem orText_str {s : String} (h : s ≠ "") (t : String) : (Value.str s).orText t = s := by
  simp [Value.orText, Value.truthy, Value.print, h]

theorem orEmpty_dict (d : Mapping) : (Value.dict d).orEmpty = .dict d := by
  cases d <;> rfl

/-- What is taken for a mapping is one, or is empty. -/
theorem fields_of_orEmpty {v : Value} {d : Mapping} (h : v.orEmpty = .dict d) : v.fields = d := by
  unfold Value.orEmpty at h
  split at h
  · rw [h]
    rfl
  · rename_i hfalsy
    rw [← Value.dict.inj h]
    cases v with
    | dict d => cases d with
      | nil => rfl
      | cons e d => exact absurd rfl hfalsy
    | _ => rfl

end Value

/-- A dataclass: its fields, with the defaults of those that have one. -/
structure DataClass where
  name : String
  fields : List (String × Option Value)
  nodup : (fields.map Prod.fst).Nodup := by decide

/-- An instance of a dataclass, as a mapping. -/
structure Record (cls : DataClass) where
  entries : Mapping
  keys_eq : entries.map Prod.fst = cls.fields.map fun f => .str f.1

namespace DataClass

variable {cls : DataClass}

/-- Whether the arguments have a name that is no field. -/
def unexpected (cls : DataClass) (kwargs : Mapping) : Bool :=
  kwargs.any fun e => e.1 ∉ cls.fields.map fun f => Key.str f.1

/-- Whether the arguments lack a field that has no default. -/
def lacking (cls : DataClass) (kwargs : Mapping) : Bool :=
  cls.fields.any fun f => f.2.isNone && !kwargs.has f.1

/-- The instance that the arguments make. -/
def instanceOf (cls : DataClass) (kwargs : Mapping) : Record cls where
  entries := cls.fields.map fun f => (.str f.1, kwargs.getD f.1 (f.2.getD .null))
  keys_eq := by rw [List.map_map]; rfl

/-- `cls(**kwargs)`. -/
def make (cls : DataClass) (kwargs : Mapping) : Except String (Record cls) :=
  if cls.unexpected kwargs then
    .error ("TypeError: " ++ cls.name ++ "() got an unexpected keyword argument")
  else if cls.lacking kwargs then
    .error ("TypeError: " ++ cls.name ++ "() missing a required argument")
  else .ok (cls.instanceOf kwargs)

theorem make_eq_ok {kwargs : Mapping} {r : Record cls} (h : cls.make kwargs = .ok r) :
    r = cls.instanceOf kwargs := by
  unfold make at h
  split at h
  · cases h
  · split at h
    · cases h
    · exact (Except.ok.inj h).symm

end DataClass

namespace Record

variable {cls : DataClass} (r : Record cls)

/-- The value of a field. -/
def get (name : String) : Value := r.entries.get name

/-- `dataclasses.asdict(r)`. -/
def toValue : Value := .dict r.entries

theorem nodup_keys : (r.entries.map Prod.fst).Nodup := by
  have hmap : (cls.fields.map fun f => Key.str f.1) = (cls.fields.map Prod.fst).map Key.str := by
    rw [List.map_map]
    rfl
  rw [r.keys_eq, hmap]
  exact cls.nodup.map fun _ _ h => Key.str.inj h

theorem mem_key_of_field {f : String × Option Value} (hf : f ∈ cls.fields) :
    Key.str f.1 ∈ r.entries.map Prod.fst := by
  rw [r.keys_eq]
  exact List.mem_map_of_mem hf

theorem has_field {f : String × Option Value} (hf : f ∈ cls.fields) : r.entries.has f.1 = true := by
  obtain ⟨e, he, hk⟩ := List.mem_map.1 (r.mem_key_of_field hf)
  rw [Mapping.has, ← hk]
  exact Value.isSome_lookup_of_mem he

/-- An instance is determined by the values of its fields. -/
theorem instanceOf_entries : cls.instanceOf r.entries = r := by
  have hvalue : ∀ e ∈ r.entries, ∀ v : Value, (r.entries.lookup e.1).getD v = e.2 := by
    intro e he v
    rw [(Dict.lookup_eq_some_iff_mem r.nodup_keys).2 he]
    rfl
  have hfields : (cls.instanceOf r.entries).entries =
      (r.entries.map Prod.fst).map fun k => (k, (r.entries.lookup k).getD .null) := by
    rw [r.keys_eq, List.map_map, DataClass.instanceOf]
    refine List.map_congr_left fun f hf => ?_
    obtain ⟨e, he, hk⟩ := List.mem_map.1 (r.mem_key_of_field hf)
    simp only [Function.comp_apply, Mapping.getD, ← hk, hvalue e he]
  have hentries : (cls.instanceOf r.entries).entries = r.entries := by
    rw [hfields, List.map_map]
    calc r.entries.map _ = r.entries.map id :=
          List.map_congr_left fun e he => by
            rw [Function.comp_apply, hvalue e he]
            rfl
      _ = r.entries := List.map_id _
  cases r
  exact Record.mk.injEq .. ▸ hentries

/-- What was stored of an instance makes it again. -/
theorem make_entries : cls.make r.entries = .ok r := by
  have hexpected : cls.unexpected r.entries = false := by
    rw [DataClass.unexpected, List.any_eq_false]
    intro e he
    rw [decide_eq_true_eq, not_not, ← r.keys_eq]
    exact List.mem_map_of_mem he
  have hpresent : cls.lacking r.entries = false := by
    rw [DataClass.lacking, List.any_eq_false]
    intro f hf
    rw [r.has_field hf, Bool.not_true, Bool.and_false]
    exact Bool.false_ne_true
  rw [DataClass.make, hexpected, hpresent, if_neg Bool.false_ne_true, if_neg Bool.false_ne_true,
    r.instanceOf_entries]

theorem all_isText : r.entries.all (fun e => e.1.isText) = true := by
  rw [List.all_eq_true]
  intro e he
  have hkey : e.1 ∈ cls.fields.map fun f => Key.str f.1 := r.keys_eq ▸ List.mem_map_of_mem he
  obtain ⟨f, -, hf⟩ := List.mem_map.1 hkey
  rw [← hf]
  rfl

theorem kwargs_toValue : r.toValue.kwargs = .ok r.entries := by
  rw [toValue, Value.kwargs, if_pos r.all_isText]

/-- Whether the values of an instance are documents that JSON can hold. -/
def IsPlain : Prop := ∀ e ∈ r.entries, e.2.isJson = true

variable {r}

theorem IsPlain.isJson (h : r.IsPlain) : r.toValue.isJson = true :=
  Value.isJson_dict.2 ⟨r.nodup_keys, fun e he => ⟨List.all_eq_true.1 r.all_isText e he, h e he⟩⟩

theorem IsPlain.get (h : r.IsPlain) (name : String) : (r.get name).isJson = true := by
  rw [Record.get, Mapping.get, Mapping.getD]
  cases hl : r.entries.lookup (.str name) with
  | none => rfl
  | some v => exact h (.str name, v) ((Dict.lookup_eq_some_iff_mem r.nodup_keys).1 hl)

end Record

/-- Whether the defaults of a dataclass are documents that JSON can hold. -/
def DataClass.PlainDefaults (cls : DataClass) : Prop :=
  ∀ f ∈ cls.fields, (f.2.getD .null).isJson = true

instance (cls : DataClass) : Decidable cls.PlainDefaults :=
  inferInstanceAs (Decidable (∀ f ∈ cls.fields, (f.2.getD .null).isJson = true))

/-- Plain arguments make a plain instance. -/
theorem DataClass.isPlain_of_make {cls : DataClass} {kwargs : Mapping} {r : Record cls}
    (hcls : cls.PlainDefaults) (h : cls.make kwargs = .ok r)
    (hargs : ∀ e ∈ kwargs, e.2.isJson = true) : r.IsPlain := by
  rw [make_eq_ok h]
  intro e he
  obtain ⟨f, hf, rfl⟩ := List.mem_map.1 he
  show ((kwargs.lookup (.str f.1)).getD _).isJson = true
  cases hl : kwargs.lookup (.str f.1) with
  | none => exact hcls f hf
  | some v =>
    obtain ⟨l₁, l₂, rfl, -⟩ := List.lookup_eq_some_iff.1 hl
    exact hargs (.str f.1, v) (by simp)
