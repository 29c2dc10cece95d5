import Dnlab.Lib.Dict
import Dnlab.Lib.Text
import Mathlib.Data.Int.Notation
import Mathlib.Data.List.Sort

/-!
# Documents

What a reader of YAML or JSON returns: scalars, lists and mappings. A mapping is
the list of its entries, in the order of the text; a repeated key counts with
its first entry. Values that only occur on paths that print them (dates, floats,
sets) are kept as they are printed (`Value.other`).

Two documents are equal as the language compares them (`Value.beq`): the order
of the entries of a mapping does not matter, and `True` is `1`.
-/

/-- A key of a mapping. -/
inductive Key
  | str (s : String)
  | other (repr : String)
  deriving DecidableEq

/-- A document. -/
inductive Value
  | null
  | bool (b : Bool)
  | int (n : ℤ)
  | str (s : String)
  | list (elems : List Value)
  | dict (entries : List (Key × Value))
  | other (str repr : String) (truthy : Bool)

/-- The entries of a mapping. -/
abbrev Mapping := List (Key × Value)

namespace Mapping

/-- `{key: value, …}` with texts for keys. -/
def ofFields (fields : List (String × Value)) : Mapping := fields.map fun e => (.str e.1, e.2)

/-- `key in d`. -/
def has (d : Mapping) (key : String) : Bool := (d.lookup (.str key)).isSome

/-- `d.get(key, v)`. -/
def getD (d : Mapping) (key : String) (v : Value) : Value := (d.lookup (.str key)).getD v

/-- `d.get(key)`. -/
def get (d : Mapping) (key : String) : Value := d.getD key .null

/-- `d[key] = v`. -/
def set (d : Mapping) (key : String) (v : Value) : Mapping := Dict.setItems (.str key) v d

/-- `d[key]`. -/
def item (d : Mapping) (key : String) : Except String Value :=
  match d.lookup (.str key) with
  | some v => .ok v
  | none => .error ("KeyError: " ++ Text.repr key)

theorem get_set (d : Mapping) (key key' : String) (v : Value) :
    (d.set key v).get key' = if key' = key then v else d.get key' := by
  rw [get, get, getD, getD, set, Dict.lookup_setItems]
  simp only [Key.str.injEq]
  split <;> rfl

end Mapping

namespace Value

/-- A list of texts. -/
def strs (l : List String) : Value := .list (l.map .str)

/-- `bool(v)`. -/
def truthy : Value → Bool
  | .null => false
  | .bool b => b
  | .int n => n ≠ 0
  | .str s => s ≠ ""
  | .list l => !l.isEmpty
  | .dict d => !d.isEmpty
  | .other _ _ b => b

/-- The text that a value is, or none. -/
def str? : Value → Option String
  | .str s => some s
  | _ => none

/-- `int(v)`, if that is a number; a float is known by how it is printed. -/
def toInt? : Value → Option ℤ
  | .int n => some n
  | .bool b => some (if b then 1 else 0)
  | .str s => Text.toInt? s
  | .other _ repr _ =>
    match Text.split '.' repr with
    | [whole, fraction] => if fraction.toList.all Char.isDigit then Text.toInt? whole else none
    | _ => none
  | _ => none

/-- Whether a value is one of some texts. -/
def isOneOf (v : Value) (texts : List String) : Bool := v.str?.any texts.contains

/-! ## Printing -/

/-- `repr` of a key. -/
def reprKey : Key → String
  | .str s => Text.repr s
  | .other repr => repr

mutual

/-- `repr(v)`. -/
def repr : Value → String
  | .null => "None"
  | .bool b => if b then "True" else "False"
  | .int n => toString n
  | .str s => Text.repr s
  | .list l => "[" ++ Text.join ", " (reprs l) ++ "]"
  | .dict d => "\x7b" ++ Text.join ", " (reprEntries d) ++ "\x7d"
  | .other _ r _ => r

/-- `repr` of the elements of a list. -/
def reprs : List Value → List String
  | [] => []
  | v :: l => repr v :: reprs l

/-- The entries of a mapping as they are printed. -/
def reprEntries : List (Key × Value) → List String
  | [] => []
  | (k, v) :: d => (reprKey k ++ ": " ++ repr v) :: reprEntries d

end

/-- `str(v)`. -/
def print : Value → String
  | .str s => s
  | .other s _ _ => s
  | v => v.repr

/-! ## Equality -/

mutual

/-- `v == w`. -/
def beq : Value → Value → Bool
  | .null, .null => true
  | .bool a, .bool b => a == b
  | .bool a, .int n => (if a then 1 else 0) == n
  | .int n, .bool a => n == if a then 1 else 0
  | .int m, .int n => m == n
  | .str s, .str t => s == t
  | .list l, .list m => beqList l m
  | .dict d, .dict e => beqDict [] d e && e.all fun x => (d.lookup x.1).isSome
  | .other s r t, .other s' r' t' => s == s' && r == r' && t == t'
  | _, _ => false

/-- Equality of lists. -/
def beqList : List Value → List Value → Bool
  | [], [] => true
  | v :: l, w :: m => beq v w && beqList l m
  | _, _ => false

/-- Whether `e` has the entries of the mapping, those aside whose key has been `seen`. -/
def beqDict (seen : List Key) : List (Key × Value) → List (Key × Value) → Bool
  | [], _ => true
  | (k, v) :: d, e =>
    (seen.contains k ||
      match e.lookup k with
      | some w => beq v w
      | none => false) && beqDict (k :: seen) d e

end

theorem lookup_append_cons {k : Key} {v : Value} {pre d : List (Key × Value)}
    (h : k ∉ pre.map Prod.fst) : (pre ++ (k, v) :: d).lookup k = some v := by
  have hnone : pre.lookup k = none := List.lookup_eq_none_iff.2 fun e he => by
    rw [bne_iff_ne]
    rintro rfl
    exact h (List.mem_map_of_mem he)
  rw [List.lookup_append, hnone, List.lookup_cons_self, Option.none_or]

theorem isSome_lookup_of_mem {e : Key × Value} {d : List (Key × Value)} (h : e ∈ d) :
    (d.lookup e.1).isSome := by
  by_contra hnone
  rw [Option.not_isSome_iff_eq_none, List.lookup_eq_none_iff] at hnone
  simpa using hnone e h

mutual

/-- A document is equal to itself. -/
theorem beq_self : ∀ v : Value, beq v v = true
  | .null => rfl
  | .bool b => beq_self_eq_true b
  | .int n => beq_self_eq_true n
  | .str s => beq_self_eq_true s
  | .list l => beqList_self l
  | .dict d => by
    rw [beq, Bool.and_eq_true, List.all_eq_true]
    exact ⟨beqDict_self [] [] d fun _ => id, fun _ => isSome_lookup_of_mem⟩
  | .other s r t => by simp [beq]

theorem beqList_self : ∀ l : List Value, beqList l l = true
  | [] => rfl
  | v :: l => by rw [beqList, beq_self v, beqList_self l, Bool.and_self]

/-- The rest of a mapping, when the keys before it have been seen. -/
theorem beqDict_self : ∀ (seen : List Key) (pre d : List (Key × Value)),
    (∀ k ∈ pre.map Prod.fst, k ∈ seen) → beqDict seen d (pre ++ d) = true
  | _, _, [], _ => rfl
  | seen, pre, (k, v) :: d, hpre => by
    rw [beqDict, Bool.and_eq_true, Bool.or_eq_true]
    constructor
    · by_cases hk : k ∈ seen
      · exact .inl (List.contains_iff_mem.2 hk)
      · rw [lookup_append_cons fun h => hk (hpre k h)]
        exact .inr (beq_self v)
    · have h := beqDict_self (k :: seen) (pre ++ [(k, v)]) d fun k' hk' => by
        rw [List.map_append, List.mem_append, List.map_singleton, List.mem_singleton] at hk'
        exact hk'.elim (fun h => List.mem_cons_of_mem _ (hpre k' h)) fun h => h ▸ List.mem_cons_self
      rwa [List.append_assoc] at h

end

end Value
