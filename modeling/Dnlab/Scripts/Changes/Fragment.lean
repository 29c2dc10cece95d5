import Dnlab.Lib.Value
import Dnlab.Lib.Except

/-!
# Change fragments

A fragment is a YAML file with one change, after `scripts/changes.py`.
`validateFragment` lists what is wrong with a document; a document without
problems is read as a `Fragment`.

* `validateFragment_eq_nil`: whether there are problems does not depend on the
  name that they are reported under;
* `id_of_validateFragment`: the name of the file of a valid fragment is its id.
-/

namespace Dnlab.Changes

/-- `sorted` of texts. -/
def sorted (l : List String) : List String := l.insertionSort (· ≤ ·)

/-! ## The types of a change -/

/-- `CHANGE_TYPES`. -/
inductive ChangeType
  | bugfix | feature | newVd | change | deprecation | removal | security | internal | none
  deriving DecidableEq

namespace ChangeType

/-- The types as they are written. -/
def text : ChangeType → String
  | .bugfix => "bugfix"
  | .feature => "feature"
  | .newVd => "new-vd"
  | .change => "change"
  | .deprecation => "deprecation"
  | .removal => "removal"
  | .security => "security"
  | .internal => "internal"
  | .none => "none"

/-- All types, in the order in which a problem lists them. -/
def all : List ChangeType :=
  [.bugfix, .feature, .newVd, .change, .deprecation, .removal, .security, .internal, .none]

/-- The type that is written so. -/
def ofText? (s : String) : Option ChangeType := all.find? fun t => t.text = s

/-- `TYPE_CATEGORIES`; the types that are not published have none. -/
def category : ChangeType → String
  | .feature => "Added"
  | .newVd => "New Virtual Devices"
  | .change => "Changed"
  | .deprecation => "Deprecated"
  | .removal => "Removed"
  | .bugfix => "Fixed"
  | .security => "Security"
  | .internal | .none => ""

end ChangeType

/-- `CATEGORY_ORDER`. -/
def categoryOrder : List String :=
  ["Added", "New Virtual Devices", "Changed", "Deprecated", "Removed", "Fixed", "Security", "Breaking"]

/-- `AUDIENCES`. -/
def audiences : List String := ["user", "admin", "operator", "developer"]

/-- `FRAGMENT_FIELDS`. -/
def fragmentFields : List String :=
  ["id", "type", "title", "description", "components", "audience", "visibility", "breaking",
    "upgrade_notes", "references", "vd", "reason"]

/-- `[a-z0-9]`. -/
def isLowerAlnum (c : Char) : Bool := c.isLower || c.isDigit

/-- `^[a-z0-9][a-z0-9-]{m,n}$`. -/
def isSlug (m n : ℕ) (s : String) : Bool :=
  match s.toList with
  | [] => false
  | c :: l => isLowerAlnum c && l.all (fun c => isLowerAlnum c || c = '-') &&
      m ≤ l.length && l.length ≤ n

/-- `ID_RE`. -/
def isId (s : String) : Bool := isSlug 5 79 s

/-- `COMPONENT_RE`. -/
def isComponent (s : String) : Bool := isSlug 1 39 s

/-! ## Validation -/

/-- `_nonempty_string`. -/
def nonemptyString (v : Value) : Bool := v.str?.any fun s => Text.stripSpaces s ≠ ""

/-- `_string_list`. -/
def stringList (v : Value) (nonempty : Bool) : Bool :=
  match v with
  | .list l => (!l.isEmpty || !nonempty) && l.all nonemptyString
  | _ => false

/-- The texts of a list of texts. -/
def strings : Value → List String
  | .list l => l.filterMap Value.str?
  | _ => []

/-- A problem, unless all is well. -/
def check (ok : Bool) (problem : String) : List String := if ok then [] else [problem]

/-- The keys of a mapping that are not known. Keys that are no texts cannot be joined. -/
def unknownKeys (d : Mapping) (known : List String) : Except String (List String) :=
  if d.all fun e => e.1 matches .str _ then
    .ok (sorted ((d.filterMap fun e => match e.1 with
      | .str s => some s
      | .other _ => none).dedup.filter (!known.contains ·)))
  else .error "TypeError: sequence item 0: expected str instance"

/-- The problems of a list of texts. -/
def listProblems (data : Mapping) (field : String) (nonempty : Bool)
    (elems : List String → List String) : List String :=
  let v := data.get field
  if stringList v nonempty then
    check (decide (strings v).Nodup) (field ++ " must not contain duplicates") ++ elems (strings v)
  else [field ++ " must be a " ++ (if nonempty then "non-empty " else "") ++ "string list"]

/-- The components that are not written as such. -/
def componentProblems (components : List String) : List String :=
  components.flatMap fun c => check (isComponent c) ("invalid component " ++ Text.repr c)

/-- The audiences that there are not. -/
def audienceProblems (audience : List String) : List String :=
  let invalid := sorted (audience.dedup.filter (!audiences.contains ·))
  check invalid.isEmpty ("invalid audience: " ++ Text.join ", " invalid)

/-- The problems of the id of a fragment in a file. -/
def idProblems (stem : String) (id : Value) : List String :=
  let problem := "id must match ^[a-z0-9][a-z0-9-]\x7b5,79\x7d$"
  match id.str? with
  | some s => if isId s then check (stem = s) ("filename must be " ++ s ++ ".yml") else [problem]
  | none => [problem]

/-- The problems of the virtual device of a fragment. -/
def vdProblems (isNewVd : Bool) (vd : Value) : Except String (List String) :=
  match isNewVd, vd with
  | true, .dict d => do
    let unknown ← unknownKeys d ["vendor", "platform"]
    pure (check unknown.isEmpty ("unknown vd fields: " ++ Text.join ", " unknown) ++
      ["vendor", "platform"].flatMap fun field =>
        check (nonemptyString (Mapping.get d field)) ("vd." ++ field ++ " must be a non-empty string"))
  | true, _ => pure ["new-vd fragments require vd.vendor and vd.platform"]
  | false, .null => pure []
  | false, _ => pure ["vd is only allowed for type new-vd"]

/-- Whether a value can be looked up in a set. -/
def hashable : Value → Bool
  | .list _ | .dict _ => false
  | _ => true

/-- What is wrong with a fragment in a file, without the name of the file. -/
def problems (stem : String) (data : Mapping) : Except String (List String) := do
  let unknown ← unknownKeys data fragmentFields
  let type := data.get "type"
  let visibility := data.get "visibility"
  let breaking := data.get "breaking"
  let typeText := type.print
  if !hashable type then throw "TypeError: unhashable type" else
  let vd ← vdProblems (type.isOneOf ["new-vd"]) (data.get "vd")
  pure (check unknown.isEmpty ("unknown fields: " ++ Text.join ", " unknown) ++
    idProblems stem (data.get "id") ++
    check (type.isOneOf (ChangeType.all.map ChangeType.text))
      ("type must be one of " ++ Text.join ", " (ChangeType.all.map ChangeType.text)) ++
    (["title", "description"].flatMap fun field =>
      check (nonemptyString (data.get field)) (field ++ " must be a non-empty string")) ++
    listProblems data "components" true componentProblems ++
    listProblems data "audience" true audienceProblems ++
    check (visibility.isOneOf ["public", "internal"]) "visibility must be public or internal" ++
    check (breaking matches .bool _) "breaking must be true or false" ++
    listProblems data "upgrade_notes" false (fun _ => []) ++
    listProblems data "references" false (fun _ => []) ++
    check (!breaking.truthy || (data.get "upgrade_notes").truthy)
      "breaking changes require at least one upgrade note" ++
    check (!type.isOneOf ["internal", "none"] || visibility.isOneOf ["internal"])
      (typeText ++ " fragments must use internal visibility") ++
    (if type.isOneOf ["none"] then
      check (nonemptyString (data.get "reason")) "none fragments require a reason" ++
        check (!breaking.truthy) "none fragments cannot be breaking"
    else check (!data.has "reason") "reason is only allowed for type none") ++
    vd)

/-- `validate_fragment`, for a fragment in a file. -/
def validateFragment (name stem : String) (data : Mapping) : Except String (List String) :=
  (problems stem data).map fun l => l.map (name ++ ": " ++ ·)

@[simp] theorem check_eq_nil {ok : Bool} {problem : String} : check ok problem = [] ↔ ok = true := by
  cases ok <;> simp [check]

/-- Whether a fragment is valid does not depend on the name that its problems are reported under. -/
theorem validateFragment_eq_nil {name stem : String} {data : Mapping} :
    validateFragment name stem data = .ok [] ↔ problems stem data = .ok [] := by
  rw [validateFragment, ExceptRules.map_eq_ok]
  constructor
  · rintro ⟨l, hl, hnil⟩
    rwa [List.map_eq_nil_iff.1 hnil] at hl
  · exact fun h => ⟨[], h, rfl⟩

/-- A valid fragment is named by its id. -/
theorem id_of_problems {stem : String} {data : Mapping} (h : problems stem data = .ok []) :
    data.get "id" = .str stem := by
  rw [problems] at h
  obtain ⟨unknown, -, h⟩ := ExceptRules.bind_eq_ok.1 h
  dsimp only at h
  split at h
  · cases h
  obtain ⟨vd, -, h⟩ := ExceptRules.bind_eq_ok.1 h
  have hid : idProblems stem (data.get "id") = [] := by
    have h := ExceptRules.pure_eq_ok.1 h
    simp only [List.append_eq_nil_iff] at h
    tauto
  rw [idProblems] at hid
  split at hid
  · split_ifs at hid
    rw [check_eq_nil, decide_eq_true_eq] at hid
    subst hid
    cases hv : data.get "id" <;> simp_all [Value.str?]
  · cases hid

/-! ## Fragments -/

/-- A change, as far as a release depends on it. -/
structure Fragment where
  id : String
  type : ChangeType
  title : String
  description : String
  components : List String
  audience : List String
  isPublic : Bool
  breaking : Bool
  upgradeNotes : List String
  references : List String
  vd : Value

/-- The fragment that a valid document is. -/
def Fragment.ofDoc (data : Mapping) : Fragment where
  id := (data.get "id").str?.getD ""
  type := ((data.get "type").str?.bind ChangeType.ofText?).getD .none
  title := (data.get "title").str?.getD ""
  description := (data.get "description").str?.getD ""
  components := strings (data.get "components")
  audience := strings (data.get "audience")
  isPublic := (data.get "visibility").isOneOf ["public"]
  breaking := (data.get "breaking").truthy
  upgradeNotes := strings (data.get "upgrade_notes")
  references := strings (data.get "references")
  vd := data.get "vd"

theorem ofDoc_id {stem : String} {data : Mapping} (h : problems stem data = .ok []) :
    (Fragment.ofDoc data).id = stem := by
  rw [Fragment.ofDoc, id_of_problems h]
  rfl

end Dnlab.Changes
