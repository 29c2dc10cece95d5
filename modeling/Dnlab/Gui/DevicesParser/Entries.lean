import Dnlab.Gui.DevicesParser

/-!
# The entries of the device catalogue

When the entry of a vendor or of a web interface survives an edit: what is read
of it is written as an entry that is read as the same and that its readers
cannot tell from the first one (`SameVendor`, `webuiItemOf`). It does just if it
is as the editor writes it (`CanonicalVendor`, `CanonicalWebui`).
-/

namespace Dnlab.DevicesParser

open DeviceCatalog

/-! ## What the readers can tell apart -/

/-- Two entries of a kind are the same to those that read them. -/
structure SameKind (defaults : Mapping) (kind : String) (entry entry' : Mapping) : Prop where
  listed : entry' = [] ↔ entry = []
  label : labelOf kind entry' = labelOf kind entry
  vendor : vendorOf defaults entry' = vendorOf defaults entry
  vendorShown : vendorShown defaults entry' = DeviceCatalog.vendorShown defaults entry
  type : typeOf defaults entry' = typeOf defaults entry
  typeShown : typeShown defaults entry' = DeviceCatalog.typeShown defaults entry
  deployKind : deployKindOf kind entry' = deployKindOf kind entry
  imagePatterns : imagePatternsOf entry' = imagePatternsOf entry
  mgmtIface : mgmtIfaceOf defaults entry' = mgmtIfaceOf defaults entry
  mgmtIfaceShown : mgmtIfaceShown defaults kind entry' =
    DeviceCatalog.mgmtIfaceShown defaults kind entry
  webui : webuiOf entry' = webuiOf entry
  other : ∀ name, name ∉ kindFields → entry'.get name = entry.get name

/-- Two entries of a vendor are the same to those that read them. -/
structure SameVendor (vendor : String) (entry entry' : Mapping) : Prop where
  listed : entry' = [] ↔ entry = []
  title : titleOf entry' vendor = titleOf entry vendor
  color : colorOf entry' = colorOf entry
  colorShown : colorShown entry' = DeviceCatalog.colorShown entry
  other : ∀ name, name ∉ vendorFields → entry'.get name = entry.get name

/-- Two paths of an icon are the same to those that read them. -/
structure SameIcon (path path' : Value) : Prop where
  read : path'.orText "" = path.orText ""
  shown : iconShown path' = iconShown path

/-- Two files list the same entries, and what `same` compares of them is the same. -/
structure SameTable (same : String → Value → Value → Prop) (table table' : Mapping) : Prop where
  keys : table'.map Prod.fst = table.map Prod.fst
  entries : ∀ key, same key (table.get key) (table'.get key)

/-- Two files mean the same to those that read them. -/
structure SameMeaning (file file' : Mapping) : Prop where
  defaults : part file' "defaults" = part file "defaults"
  metadata : ∀ name, name ∉ parts → file'.get name = file.get name
  vendors : SameTable (fun vendor v w => SameVendor vendor v.fields w.fields)
    (part file "vendors") (part file' "vendors")
  icons : SameTable (fun _ v w => SameIcon v w) (part file "icons") (part file' "icons")
  kinds : SameTable (fun kind v w => SameKind (part file "defaults") kind v.fields w.fields)
    (part file "kinds") (part file' "kinds")

/-- What was read of a file is written as a file that is read as the same data and that means the
    same. -/
def Survives (R : Coercion) (file : Mapping) (data : DevicesConfigData) : Prop :=
  ∃ file', serializeDevicesConfig data = .ok file' ∧ parseDevicesConfig R file' = .ok data ∧
    SameMeaning file file'

/-! ## Files as the editor writes them -/

/-- A text that is not empty and has no blanks around it. -/
def IsClean (s : String) : Prop := s ≠ "" ∧ Text.stripSpaces s = s

instance (s : String) : Decidable (IsClean s) :=
  inferInstanceAs (Decidable (s ≠ "" ∧ Text.stripSpaces s = s))

/-- The values that the patterns of an image are. -/
def patternValues : Value → List Value
  | .list l => l
  | .str s => if s = "" then [] else [.str s]
  | _ => []

/-- A web interface has the fields that the editor knows and no others, its port is a number, its
    path begins with a slash and its label is there. -/
structure CanonicalWebui (item : Mapping) : Prop where
  fields : ∀ e ∈ item, e.1 ∈ webuiFields.map Key.str
  port : ∃ n, item.get "port" = .int n
  path : ∀ s, item.get "path" = .str s → Text.startsWith s "/" = true
  label : ∃ s, item.get "label" = .str s ∧ IsClean s

/-- A text without blanks around it, or nothing that the browser shows where the readers have the
    default that the editor writes. -/
def CanonicalText (v fallback : Value) (written : String) : Prop :=
  (shown v = false ∧ fallback = .str written) ∨ ∃ s, v = .str s ∧ IsClean s

/-- The entry of a kind says what the editor would make up, and has no `null` that means something
    else than a field that is not there. -/
structure CanonicalKind (defaults : Mapping) (kind : String) (entry : Mapping) : Prop where
  listed : entry ≠ []
  label : CanonicalText (entry.get "label") (.str kind) kind
  vendor : CanonicalText (entry.get "vendor") (defaults.getD "vendor" (.str "generic")) "generic"
  type : CanonicalText (entry.get "type") (defaults.getD "type" (.str "router")) "router"
  deployKind : entry.get "deploy_kind" = .null ∨ IsClean (entry.get "deploy_kind").print ∧
    ((entry.get "deploy_kind").truthy = true ∨ (entry.get "deploy_kind").print = kind)
  imagePatterns : ∀ v ∈ patternValues (entry.get "image_patterns"), v ≠ .null ∧ IsClean v.print
  mgmtIface : ∀ v, entry.lookup (.str "mgmt_iface") = some v →
    (∃ s, v = .str s) ∨ (kind = "_real_net" ∨ kind = "_mgmt") ∧
      ((v = .null ∧ mgmtIfaceOf defaults [] = "") ∨ v ≠ .null ∧ (v.truthy = true ∨ v.print = ""))
  webui : ∀ l, entry.get "webui" = .list l → ∀ item ∈ l, CanonicalWebui item.fields
  other : ∀ e ∈ entry, e.2 = .null → e.1 ∈ kindFields.map Key.str

/-- The entry of a vendor is not empty, its title and its colour have no blanks around them, and
    nothing else in it is `null`. -/
structure CanonicalVendor (vendor : String) (entry : Mapping) : Prop where
  listed : entry ≠ []
  title : CanonicalText (entry.get "title") (.str vendor) vendor
  color : CanonicalText (entry.get "color") (.str "#888888") "#888888"
  other : ∀ e ∈ entry, e.2 = .null → e.1 ∈ vendorFields.map Key.str

/-- The path of an icon is a text without blanks around it. -/
def CanonicalIcon (path : Value) : Prop := ∃ s, path = .str s ∧ IsClean s

/-- A file is as the editor writes it. -/
structure Canonical (file : Mapping) : Prop where
  vendors : ∀ vendor v, (Key.str vendor, v) ∈ part file "vendors" →
    IsClean vendor ∧ CanonicalVendor vendor v.fields
  icons : ∀ type v, (Key.str type, v) ∈ part file "icons" → IsClean type ∧ CanonicalIcon v
  kinds : ∀ kind v, (Key.str kind, v) ∈ part file "kinds" →
    IsClean kind ∧ CanonicalKind (part file "defaults") kind v.fields

/-! ## Texts -/

theorem rejectEmpty_eq_ok {s label t : String} :
    rejectEmpty s label = .ok t ↔ t = Text.stripSpaces s ∧ t ≠ "" := by
  simp only [rejectEmpty]
  split
  · exact ⟨fun h => (by cases h), fun ⟨h, hne⟩ => absurd (h.trans ‹_›) hne⟩
  · refine ⟨fun h => ?_, fun ⟨h, _⟩ => h ▸ rfl⟩
    cases h
    exact ⟨rfl, ‹_›⟩

theorem isClean_of_rejectEmpty {s label t : String} (h : rejectEmpty s label = .ok t) :
    IsClean t := by
  obtain ⟨rfl, hne⟩ := rejectEmpty_eq_ok.1 h
  exact ⟨hne, Text.stripSpaces_stripSpaces s⟩

theorem IsClean.strip_ne {s : String} (h : IsClean s) : Text.stripSpaces s ≠ "" := by
  rw [h.2]
  exact h.1

theorem IsClean.rejectEmpty {s : String} (h : IsClean s) (label : String) :
    rejectEmpty s label = .ok s :=
  rejectEmpty_eq_ok.2 ⟨h.2.symm, h.1⟩

theorem validated_eq_ok {α : Type} {valid : α → Bool} {a b : α} :
    validated valid a = .ok b ↔ b = a ∧ valid a = true := by
  unfold validated
  split
  · exact ⟨fun h => (by cases h; exact ⟨rfl, ‹_›⟩), fun h => h.1 ▸ rfl⟩
  · exact ⟨fun h => (by cases h), fun h => absurd h.2 ‹_›⟩

theorem bounded_ne {least most : ℕ} {s : String} (h : bounded (least + 1) most s = true) :
    s ≠ "" := by
  rintro rfl
  simp [bounded] at h

theorem orShown_str {s : String} (h : s ≠ "") (v : Value) : orShown (.str s) v = .str s := by
  simp [orShown, shown, Value.truthy, h]

theorem truthy_of_shown_eq_false {v : Value} (h : shown v = false) : v.truthy = false := by
  cases v <;> simp_all [shown]

theorem isClean_of_eq {s : String} (h : s = Text.stripSpaces s) (hne : Text.stripSpaces s ≠ "") :
    IsClean s :=
  ⟨h ▸ hne, h.symm⟩

/-- What is written of a field is what the browser shows just if it is a text without blanks around
    it, or the default is written. -/
theorem canonicalText_iff (v fallback : Value) {written : String} (hwritten : IsClean written) :
    CanonicalText v fallback written ↔
      IsClean (v.orText written) ∧ orShown v fallback = .str (v.orText written) := by
  constructor
  · rintro (⟨h, rfl⟩ | ⟨s, rfl, hs⟩)
    · have horText : v.orText written = written := by
        rw [Value.orText, truthy_of_shown_eq_false h]
        rfl
      rw [horText, orShown, h]
      exact ⟨hwritten, rfl⟩
    · rw [Value.orText_str hs.1, orShown_str hs.1]
      exact ⟨hs, rfl⟩
  · rintro ⟨hclean, heq⟩
    rw [orShown] at heq
    cases h : shown v with
    | false =>
      rw [h, Value.orText, truthy_of_shown_eq_false h] at heq
      exact .inl ⟨h, heq⟩
    | true =>
      rw [if_pos h] at heq
      exact .inr ⟨_, heq, hclean⟩

/-- The services read what the browser shows. -/
theorem CanonicalText.orText_eq {defaults : Mapping} {v : Value} {name written : String}
    (h : CanonicalText v (defaults.getD name (.str written)) written) :
    v.orText ((defaults.get name).orText written) = v.orText written := by
  rcases h with ⟨h, hfallback⟩ | ⟨s, rfl, hs⟩
  · have hread : (defaults.get name).orText written = written := by
      rw [Mapping.get, Mapping.getD]
      rw [Mapping.getD] at hfallback
      cases hl : defaults.lookup (.str name) with
      | none => rfl
      | some w =>
        rw [hl, Option.getD_some] at hfallback
        rw [Option.getD_some, hfallback, Value.orText]
        split <;> rfl
    rw [hread]
  · rw [Value.orText_str hs.1, Value.orText_str hs.1]

/-! ## Mappings -/

/-- The fields that are there. -/
def present (fields : List (String × Option Value)) : Mapping :=
  fields.filterMap fun f => f.2.map (Key.str f.1, ·)

theorem lookup_present {fields : List (String × Option Value)} (h : (fields.map Prod.fst).Nodup)
    (name : String) : (present fields).lookup (.str name) = (fields.lookup name).join := by
  induction fields with
  | nil => rfl
  | cons f fields ih =>
    obtain ⟨name', v⟩ := f
    rw [List.map_cons, List.nodup_cons] at h
    by_cases hname : name = name'
    · subst hname
      rw [List.lookup_cons_self, Option.join_some]
      cases v with
      | some v => exact List.lookup_cons_self
      | none =>
        have htail := ih h.2
        rw [Dict.lookup_eq_none h.1] at htail
        exact htail
    · -- Whether the first field is written or not, it is another one.
      have hkey : (Key.str name == Key.str name') = false := by simpa using hname
      have hhead : (present ((name', v) :: fields)).lookup (.str name) =
          (present fields).lookup (.str name) := by
        cases v with
        | some v =>
          refine List.lookup_cons.trans ?_
          rw [hkey]
          rfl
        | none => rfl
      rw [hhead, ih h.2, List.lookup_cons, beq_false_of_ne hname]

theorem keys_present_subset {fields : List (String × Option Value)} {e : Key × Value}
    (he : e ∈ present fields) : ∃ f ∈ fields, e.1 = .str f.1 := by
  obtain ⟨f, hf, h⟩ := List.mem_filterMap.1 he
  obtain ⟨v, -, rfl⟩ := Option.map_eq_some_iff.1 h
  exact ⟨f, hf, rfl⟩

/-- A new field is added at the end. -/
theorem set_append_present {d : Mapping} {fields : List (String × Option Value)} {name : String}
    (hd : Key.str name ∉ d.map Prod.fst) (hfields : name ∉ fields.map Prod.fst) (v : Value) :
    (d ++ present fields).set name v = d ++ present (fields ++ [(name, some v)]) := by
  have hnew : Key.str name ∉ (d ++ present fields).map Prod.fst := by
    rw [List.map_append, List.mem_append]
    rintro (h | h)
    · exact hd h
    · obtain ⟨e, he, hkey⟩ := List.mem_map.1 h
      obtain ⟨f, hf, hname⟩ := keys_present_subset he
      rw [hname, Key.str.injEq] at hkey
      exact hfields (hkey ▸ List.mem_map_of_mem hf)
  rw [Mapping.set, Dict.setItems_of_notMem hnew, List.append_assoc]
  congr 1
  simp [present]

theorem set_present {d : Mapping} {name : String} (h : Key.str name ∉ d.map Prod.fst) (v : Value) :
    d.set name v = d ++ present [(name, some v)] := by
  rw [Mapping.set, Dict.setItems_of_notMem h]
  rfl

theorem lookup_dropNone {d : Mapping} (hd : (d.map Prod.fst).Nodup) (key : Key) :
    (dropNone d).lookup key = (d.lookup key).filter fun v => !v.isNull := by
  induction d with
  | nil => rfl
  | cons e d ih =>
    obtain ⟨key', v⟩ := e
    rw [List.map_cons, List.nodup_cons] at hd
    by_cases hkey : key = key'
    · subst hkey
      rw [List.lookup_cons_self]
      cases hv : v.isNull with
      | false => simp [dropNone, Option.filter, hv]
      | true =>
        have htail := ih hd.2
        rw [Dict.lookup_eq_none hd.1] at htail
        rw [dropNone, List.filter_cons_of_neg (by simp [hv]), Option.filter, hv]
        exact htail
    · have hne : (key == key') = false := beq_false_of_ne hkey
      have htail := ih hd.2
      rw [List.lookup_cons, hne]
      cases hv : v.isNull <;> simpa [dropNone, hv, hne, List.lookup_cons] using htail

theorem get_dropNone {d : Mapping} (hd : (d.map Prod.fst).Nodup) (name : String) :
    (dropNone d).get name = d.get name := by
  rw [Mapping.get, Mapping.get, Mapping.getD, Mapping.getD, lookup_dropNone hd]
  cases h : d.lookup (.str name) with
  | none => rfl
  | some v => cases v <;> rfl

theorem dropNone_eq_self_iff {d : Mapping} : dropNone d = d ↔ ∀ e ∈ d, e.2 ≠ .null := by
  rw [dropNone, List.filter_eq_self]
  refine forall₂_congr fun e _ => ?_
  rw [Bool.not_eq_true', ← Bool.not_eq_true, Value.isNull_iff]

/-- What is known by its key is looked up, whatever else there is. -/
theorem lookup_without {names : List String} {d : Mapping} {name : String} (h : name ∉ names) :
    (without names d).lookup (.str name) = d.lookup (.str name) := by
  have hkeep : Key.str name ∉ names.map Key.str := by simpa using h
  induction d with
  | nil => rfl
  | cons e d ih =>
    obtain ⟨key, v⟩ := e
    by_cases hkey : Key.str name = key
    · subst hkey
      rw [without, List.filter_cons_of_pos (by simpa using h), List.lookup_cons_self,
        List.lookup_cons_self]
    · have hne : (Key.str name == key) = false := beq_false_of_ne hkey
      rw [List.lookup_cons, hne, ← ih, without, List.filter_cons]
      split
      · rw [List.lookup_cons, hne]
        rfl
      · rfl

theorem mem_without {names : List String} {d : Mapping} {e : Key × Value} :
    e ∈ without names d ↔ e ∈ d ∧ e.1 ∉ names.map Key.str := by
  rw [without, List.mem_filter, decide_eq_true_eq]

theorem nodup_without {names : List String} {d : Mapping} (h : (d.map Prod.fst).Nodup) :
    ((without names d).map Prod.fst).Nodup :=
  h.sublist (List.filter_sublist.map Prod.fst)

/-! ## Vendors -/

section Vendor

variable {vendor : String} {raw : Mapping} {v : VendorEntry}

/-- The entry that is written of a vendor. -/
def VendorEntry.written (v : VendorEntry) : Mapping :=
  dropNone v.extra ++ present [("title", some (.str (Text.stripSpaces v.title))),
    ("color", some (.str (Text.stripSpaces v.color)))]

theorem validateColor_eq_ok {s label t : String} (h : validateColor s label = .ok t) :
    t = Text.stripSpaces s ∧ t ≠ "" := by
  obtain ⟨t', ht, h⟩ := ExceptRules.bind_eq_ok.1 h
  split at h
  · cases h
    exact rejectEmpty_eq_ok.1 ht
  · cases h

/-- What is neither `null` nor among the new fields is written as it was. -/
theorem dropNone_append_present {d : Mapping} {fields : List (String × Option Value)} :
    dropNone (d ++ present fields) =
      dropNone d ++ present (fields.map fun f => (f.1, f.2.filter fun v => !v.isNull)) := by
  rw [dropNone, List.filter_append, dropNone]
  congr 1
  induction fields with
  | nil => rfl
  | cons f fields ih =>
    obtain ⟨name, v⟩ := f
    cases v with
    | none => exact ih
    | some v => cases hv : v.isNull <;> simp_all [present, Option.filter]

theorem vendorToMapping_eq_ok (hextra : ∀ e ∈ v.extra, e.1 ∉ vendorFields.map Key.str) {w : Value}
    (h : vendorToMapping v = .ok w) :
    w = .dict v.written ∧ Text.stripSpaces v.title ≠ "" ∧ Text.stripSpaces v.color ≠ "" := by
  obtain ⟨title, htitle, h⟩ := ExceptRules.bind_eq_ok.1 h
  obtain ⟨color, hcolor, h⟩ := ExceptRules.bind_eq_ok.1 h
  obtain ⟨rfl, htitle⟩ := rejectEmpty_eq_ok.1 htitle
  obtain ⟨rfl, hcolor⟩ := validateColor_eq_ok hcolor
  refine ⟨?_, htitle, hcolor⟩
  rw [← Except.ok.inj h, VendorEntry.written]
  have hnew : ∀ name ∈ vendorFields, Key.str name ∉ v.extra.map Prod.fst := by
    intro name hname hmem
    obtain ⟨e, he, hkey⟩ := List.mem_map.1 hmem
    exact hextra e he (hkey ▸ List.mem_map_of_mem hname)
  rw [set_present (hnew "title" (by decide)), set_append_present (hnew "color" (by decide)) (by simp)]
  exact congrArg Value.dict dropNone_append_present

theorem lookup_written_of_known {extra : Mapping} {names : List String}
    {fields : List (String × Option Value)} (hextra : ∀ e ∈ extra, e.1 ∉ names.map Key.str)
    (hfields : (fields.map Prod.fst).Nodup) {name : String} (hname : name ∈ names) :
    (dropNone extra ++ present fields).lookup (.str name) = (fields.lookup name).join := by
  have hnone : (dropNone extra).lookup (.str name) = none := by
    refine Dict.lookup_eq_none fun hmem => ?_
    obtain ⟨e, he, hkey⟩ := List.mem_map.1 hmem
    exact hextra e (List.mem_of_mem_filter he) (hkey ▸ List.mem_map_of_mem hname)
  rw [List.lookup_append, hnone, Option.none_or, lookup_present hfields]

theorem get_written_of_other (names : List String) {extra : Mapping}
    {fields : List (String × Option Value)} (hnodup : (extra.map Prod.fst).Nodup)
    (hfields : ∀ f ∈ fields, f.1 ∈ names) {name : String} (hname : name ∉ names) :
    Mapping.get (dropNone extra ++ present fields) name = extra.get name := by
  have hnone : (present fields).lookup (.str name) = none := by
    refine Dict.lookup_eq_none fun hmem => ?_
    obtain ⟨e, he, hkey⟩ := List.mem_map.1 hmem
    obtain ⟨f, hf, hf'⟩ := keys_present_subset he
    rw [hf', Key.str.injEq] at hkey
    exact hname (hkey ▸ hfields f hf)
  rw [Mapping.get, Mapping.getD, List.lookup_append, hnone, Option.or_none]
  exact get_dropNone hnodup name

theorem without_written {extra : Mapping} {names : List String}
    {fields : List (String × Option Value)} (hextra : ∀ e ∈ extra, e.1 ∉ names.map Key.str)
    (hfields : ∀ f ∈ fields, f.1 ∈ names) :
    without names (dropNone extra ++ present fields) = dropNone extra := by
  have hkept : without names (dropNone extra) = dropNone extra := by
    rw [without, List.filter_eq_self]
    intro e he
    rw [decide_eq_true_eq]
    exact hextra e (List.mem_of_mem_filter he)
  have hdropped : without names (present fields) = [] := by
    rw [without, List.filter_eq_nil_iff]
    intro e he
    obtain ⟨f, hf, hkey⟩ := keys_present_subset he
    rw [decide_eq_true_eq, not_not, hkey]
    exact List.mem_map_of_mem (hfields f hf)
  rw [without, List.filter_append, ← without, ← without, hkept, hdropped, List.append_nil]

theorem get_written_of_known {extra : Mapping} {names : List String}
    {fields : List (String × Option Value)} (hextra : ∀ e ∈ extra, e.1 ∉ names.map Key.str)
    (hfields : (fields.map Prod.fst).Nodup) {name : String} (hname : name ∈ names) :
    Mapping.get (dropNone extra ++ present fields) name =
      ((fields.lookup name).join).getD .null := by
  rw [Mapping.get, Mapping.getD, lookup_written_of_known hextra hfields hname]

theorem mem_null_iff {names : List String} {d : Mapping} : dropNone (without names d) = without names d ↔
    ∀ e ∈ d, e.2 = .null → e.1 ∈ names.map Key.str := by
  rw [dropNone_eq_self_iff]
  refine ⟨fun h e he hnull => ?_, fun h e he hnull => ?_⟩
  · by_contra hkey
    exact h e (mem_without.2 ⟨he, hkey⟩) hnull
  · exact (mem_without.1 he).2 (h e (mem_without.1 he).1 hnull)

theorem get_written_vendor (hextra : ∀ e ∈ v.extra, e.1 ∉ vendorFields.map Key.str) :
    v.written.get "title" = .str (Text.stripSpaces v.title) ∧
      v.written.get "color" = .str (Text.stripSpaces v.color) :=
  ⟨get_written_of_known hextra (by simp) (by decide),
    get_written_of_known hextra (by simp) (by decide)⟩

theorem ne_nil_of_get {d : Mapping} {name s : String} (h : d.get name = .str s) : d ≠ [] := by
  rintro rfl
  cases h

/-- What is read of the entry that was written of a vendor. -/
theorem vendorEntry_written (hextra : ∀ e ∈ v.extra, e.1 ∉ vendorFields.map Key.str)
    (htitle : Text.stripSpaces v.title ≠ "") (hcolor : Text.stripSpaces v.color ≠ "") :
    vendorEntry vendor v.written = validated VendorEntry.valid {
      id := vendor
      title := Text.stripSpaces v.title
      color := Text.stripSpaces v.color
      extra := dropNone v.extra } := by
  obtain ⟨ht, hc⟩ := get_written_vendor hextra
  have hwithout : without vendorFields v.written = dropNone v.extra :=
    without_written hextra (by simp [vendorFields])
  rw [vendorEntry, ht, hc, Value.orText_str htitle, Value.orText_str hcolor, hwithout]

theorem sameVendor_written_iff (hraw : (raw.map Prod.fst).Nodup)
    (hextra : v.extra = without vendorFields raw) (htitle : Text.stripSpaces v.title ≠ "")
    (hcolor : Text.stripSpaces v.color ≠ "") : SameVendor vendor raw v.written ↔
      raw ≠ [] ∧ titleOf raw vendor = .str (Text.stripSpaces v.title) ∧
        colorOf raw = Text.stripSpaces v.color ∧
        colorShown raw = .str (Text.stripSpaces v.color) := by
  have hextra' : ∀ e ∈ v.extra, e.1 ∉ vendorFields.map Key.str :=
    fun e he => (mem_without.1 (hextra ▸ he)).2
  obtain ⟨ht, hc⟩ := get_written_vendor hextra'
  have hne : v.written ≠ [] := ne_nil_of_get ht
  have htitle' : titleOf v.written vendor = .str (Text.stripSpaces v.title) := by
    rw [titleOf, ht, orShown_str htitle]
  have hcolor' : colorOf v.written = Text.stripSpaces v.color := by
    rw [colorOf, hc, Value.orText_str hcolor]
  have hshown : colorShown v.written = .str (Text.stripSpaces v.color) := by
    rw [colorShown, hc, orShown_str hcolor]
  refine ⟨fun h => ⟨fun hnil => hne (h.listed.2 hnil), ?_, ?_, ?_⟩, fun ⟨hraw', ht', hc', hs'⟩ => {
    listed := ⟨fun hnil => absurd hnil hne, fun hnil => absurd hnil hraw'⟩
    title := by rw [htitle', ht']
    color := by rw [hcolor', hc']
    colorShown := by rw [hshown, hs']
    other := fun name hname => ?_ }⟩
  · rw [← h.title, htitle']
  · rw [← h.color, hcolor']
  · rw [← h.colorShown, hshown]
  · rw [VendorEntry.written, get_written_of_other vendorFields
      (hextra ▸ nodup_without hraw) (by simp [vendorFields]) hname, hextra, Mapping.get, Mapping.getD,
      lookup_without hname]
    rfl

/-- The entry of a vendor survives just if it is as the editor writes it. -/
theorem vendor_survives_iff (hraw : (raw.map Prod.fst).Nodup) (hvendor : IsClean vendor)
    (h : vendorEntry vendor raw = .ok v) (hcolor : ∃ c, validateColor v.color v.id = .ok c) :
    (∃ w, vendorToMapping v = .ok w ∧ vendorFromMapping vendor w.orEmpty = .ok v ∧
      SameVendor vendor raw w.fields) ↔ CanonicalVendor vendor raw := by
  obtain ⟨hv, hvalid⟩ := validated_eq_ok.1 h
  have htitle : v.title = (raw.get "title").orText vendor := congrArg VendorEntry.title hv
  have hcolorOf : v.color = colorOf raw := congrArg VendorEntry.color hv
  have hextra : v.extra = without vendorFields raw := congrArg VendorEntry.extra hv
  have hextra' : ∀ e ∈ v.extra, e.1 ∉ vendorFields.map Key.str :=
    fun e he => (mem_without.1 (hextra ▸ he)).2
  have hlabel := canonicalText_iff (raw.get "title") (.str vendor) hvendor
  have hcolorKept := canonicalText_iff (raw.get "color") (.str "#888888")
    (show IsClean "#888888" by decide)
  rw [← htitle] at hlabel
  rw [show (raw.get "color").orText "#888888" = v.color from hcolorOf.symm] at hcolorKept
  constructor
  · rintro ⟨w, hw, hread, hsame⟩
    obtain ⟨rfl, ht, hc⟩ := vendorToMapping_eq_ok hextra' hw
    rw [Value.orEmpty_dict] at hread
    -- The entry that is read back is the one that was written.
    have hread' := validated_eq_ok.1 ((vendorEntry_written hextra' ht hc).symm.trans hread)
    have ht' : v.title = Text.stripSpaces v.title := congrArg VendorEntry.title hread'.1
    have hc' : v.color = Text.stripSpaces v.color := congrArg VendorEntry.color hread'.1
    have he' : v.extra = dropNone v.extra := congrArg VendorEntry.extra hread'.1
    obtain ⟨hne, htitleOf, -, hcolorShown⟩ := (sameVendor_written_iff hraw hextra ht hc).1 hsame
    rw [← ht'] at htitleOf
    rw [← hc'] at hcolorShown
    refine ⟨hne, hlabel.2 ⟨isClean_of_eq ht' ht, htitleOf⟩,
      hcolorKept.2 ⟨isClean_of_eq hc' hc, hcolorShown⟩, mem_null_iff.1 ?_⟩
    rw [← hextra, ← he']
  · intro hcanon
    obtain ⟨ht, htitleOf⟩ := hlabel.1 hcanon.title
    obtain ⟨hc, hcolorShown⟩ := hcolorKept.1 hcanon.color
    have he : dropNone v.extra = v.extra := by
      rw [hextra]
      exact mem_null_iff.2 hcanon.other
    have hsucceeds : ExceptRules.Succeeds (vendorToMapping v) :=
      .bind ⟨_, ht.rejectEmpty _⟩ fun _ _ => .bind hcolor fun _ _ => .pure _
    obtain ⟨w, hw⟩ := hsucceeds
    obtain ⟨rfl, htne, hcne⟩ := vendorToMapping_eq_ok hextra' hw
    refine ⟨_, hw, ?_,
      (sameVendor_written_iff hraw hextra htne hcne).2 ⟨hcanon.listed, ?_, ?_, ?_⟩⟩
    · rw [Value.orEmpty_dict]
      refine (vendorEntry_written hextra' htne hcne).trans ?_
      rw [ht.2, hc.2, he, htitle, hcolorOf, hextra]
      exact h
    · rw [ht.2]
      exact htitleOf
    · rw [hc.2, hcolorOf]
    · rw [hc.2]
      exact hcolorShown

end Vendor

/-! ## Web interfaces -/

section Webui

variable {R : Coercion} {kind : String} {item : Value} {args : Mapping} {w : WebuiEntry}

/-- A path with a slash in front. -/
def slashed (path : String) : String := if Text.startsWith path "/" then path else "/" ++ path

/-- The entry that is written of a web interface. -/
def WebuiEntry.written (w : WebuiEntry) : Mapping :=
  .ofFields [("scheme", .str w.scheme), ("port", .int w.port), ("path", .str (slashed w.path)),
    ("label", .str (Text.stripSpaces w.label))]

theorem slashed_eq_self_iff {path : String} : slashed path = path ↔
    Text.startsWith path "/" = true := by
  unfold slashed
  split
  · exact ⟨fun _ => ‹_›, fun _ => rfl⟩
  · refine ⟨fun h => ?_, fun h => absurd h ‹_›⟩
    have hlen := congrArg String.length h
    rw [String.length_append] at hlen
    simp at hlen

theorem slashed_ne (path : String) : slashed path ≠ "" := by
  unfold slashed
  split
  · rintro rfl
    exact absurd ‹Text.startsWith "" "/" = true› (by decide)
  · intro h
    have hlen := congrArg String.length h
    rw [String.length_append] at hlen
    simp at hlen

theorem webuiToMapping_eq_ok {v : Value} : webuiToMapping kind w = .ok v ↔
    v = .dict w.written ∧ Text.stripSpaces w.label ≠ "" := by
  rw [webuiToMapping, ExceptRules.bind_eq_ok]
  constructor
  · rintro ⟨label, hlabel, h⟩
    obtain ⟨rfl, hne⟩ := rejectEmpty_eq_ok.1 hlabel
    exact ⟨(Except.ok.inj h).symm, hne⟩
  · rintro ⟨rfl, hne⟩
    exact ⟨_, rejectEmpty_eq_ok.2 ⟨rfl, hne⟩, rfl⟩

/-- What is read of the entry that was written of a web interface. -/
theorem webuiEntry_written : webuiEntry R (.dict w.written) = validated WebuiEntry.valid
    { w with path := slashed w.path, label := Text.stripSpaces w.label } := by
  have hport : portField R w.written = .ok w.port := by
    have hget : (w.written.lookup (.str "port")).bind R.toInt = some w.port := R.toInt_int w.port
    rw [portField, hget]
  have hkwargs : (Value.dict w.written).kwargs = .ok w.written := rfl
  have hscheme : textField w.written "scheme" "https" = .ok w.scheme := rfl
  have hpath : textField w.written "path" "/" = .ok (slashed w.path) := rfl
  have hlabel : textField w.written "label" "Web UI" = .ok (Text.stripSpaces w.label) := rfl
  rw [webuiEntry, hkwargs]
  show (textField w.written "scheme" "https" >>= fun scheme => portField R w.written >>= fun port =>
    textField w.written "path" "/" >>= fun path => textField w.written "label" "Web UI" >>= fun label =>
      validated WebuiEntry.valid { scheme := scheme, port := port, path := path, label := label }) = _
  rw [hscheme, hport, hpath, hlabel]
  rfl

theorem textField_eq_ok {name default s : String} : textField args name default = .ok s ↔
    args.lookup (.str name) = none ∧ s = default ∨ args.lookup (.str name) = some (.str s) := by
  unfold textField
  split
  · rename_i hnone
    rw [hnone]
    simp only [Except.ok.injEq, true_and, reduceCtorEq, or_false]
    exact eq_comm
  · rename_i hsome
    rw [hsome]
    simp only [Except.ok.injEq, reduceCtorEq, false_and, Option.some.injEq, Value.str.injEq, false_or]
  · rename_i hne h
    constructor
    · exact fun h => (by cases h)
    · rintro (⟨hnone, -⟩ | hsome)
      · rw [h] at hnone
        cases hnone
      · rw [h] at hsome
        exact absurd (Option.some.inj hsome) (hne s)

theorem eq_of_textField {name default s t : String} (h : textField args name default = .ok s)
    (hget : args.get name = .str t) : s = t := by
  rw [Mapping.get, Mapping.getD] at hget
  rcases textField_eq_ok.1 h with ⟨hnone, -⟩ | hsome
  · rw [hnone] at hget
    cases hget
  · rw [hsome] at hget
    exact Value.str.inj hget

/-- What is read of the entry of a web interface. -/
theorem webuiEntry_eq_ok (h : webuiEntry R item = .ok w) : ∃ args : Mapping, item = .dict args ∧
    textField args "scheme" "https" = .ok w.scheme ∧ portField R args = .ok w.port ∧
    textField args "path" "/" = .ok w.path ∧ textField args "label" "Web UI" = .ok w.label ∧
    w.valid = true := by
  obtain ⟨args, hargs, h⟩ := ExceptRules.bind_eq_ok.1 h
  obtain ⟨scheme, hscheme, h⟩ := ExceptRules.bind_eq_ok.1 h
  obtain ⟨port, hport, h⟩ := ExceptRules.bind_eq_ok.1 h
  obtain ⟨path, hpath, h⟩ := ExceptRules.bind_eq_ok.1 h
  obtain ⟨label, hlabel, h⟩ := ExceptRules.bind_eq_ok.1 h
  obtain ⟨rfl, hvalid⟩ := validated_eq_ok.1 h
  refine ⟨args, ?_, hscheme, hport, hpath, hlabel, hvalid⟩
  cases item with
  | dict d =>
    rw [Value.kwargs] at hargs
    split at hargs
    · rw [Except.ok.inj hargs]
    · cases hargs
  | _ => cases hargs

theorem WebuiEntry.scheme_of_valid (h : w.valid = true) : w.scheme = "http" ∨ w.scheme = "https" := by
  simp only [WebuiEntry.valid, Bool.and_eq_true, List.contains_iff_mem] at h
  simpa using h.1.1.1

/-- How the entry that was written of a web interface is shown. -/
theorem webuiItemOf_written (hvalid : w.valid = true) (hlabel : Text.stripSpaces w.label ≠ "") :
    webuiItemOf w.written = w.written := by
  have hscheme : w.scheme ≠ "" := by
    rcases WebuiEntry.scheme_of_valid hvalid with h | h <;> rw [h] <;> decide
  have hgetScheme : w.written.get "scheme" = .str w.scheme := rfl
  have hgetPort : w.written.get "port" = .int w.port := rfl
  have hgetPath : w.written.get "path" = .str (slashed w.path) := rfl
  have hgetLabel : w.written.get "label" = .str (Text.stripSpaces w.label) := rfl
  have hrest : (w.written.filter fun e => e.1 ∉ webuiFields.map Key.str) = [] := rfl
  simp only [webuiItemOf, hgetScheme, hgetPort, hgetPath, hgetLabel, hrest, orShown_str hscheme,
    orShown_str (slashed_ne w.path), orShown_str hlabel, List.append_nil]
  rfl

/-- How the scheme of a web interface is shown. -/
theorem orShown_scheme (h : textField args "scheme" "https" = .ok w.scheme) (hvalid : w.valid = true) :
    orShown (args.get "scheme") (.str "https") = .str w.scheme := by
  have hscheme : w.scheme ≠ "" := by
    rcases WebuiEntry.scheme_of_valid hvalid with h | h <;> rw [h] <;> decide
  rcases textField_eq_ok.1 h with ⟨hnone, hs⟩ | hsome
  · rw [Mapping.get, Mapping.getD, hnone, hs]
    rfl
  · rw [Mapping.get, Mapping.getD, hsome]
    exact orShown_str hscheme _

/-- The entry of a web interface survives just if it is as the editor writes it. -/
theorem webui_survives_iff (h : webuiEntry R item = .ok w) :
    (Text.stripSpaces w.label ≠ "" ∧ webuiEntry R (.dict w.written) = .ok w ∧
      webuiItemOf w.written = webuiItemOf item.fields) ↔ CanonicalWebui item.fields := by
  obtain ⟨args, rfl, hscheme, hport, hpath, hlabel, hvalid⟩ := webuiEntry_eq_ok h
  rw [webuiEntry_written, Value.fields]
  have hshown := orShown_scheme hscheme hvalid
  constructor
  · rintro ⟨hne, hread, hsame⟩
    obtain ⟨hw, -⟩ := validated_eq_ok.1 hread
    have hslash : slashed w.path = w.path := (congrArg WebuiEntry.path hw).symm
    have hclean : IsClean w.label := isClean_of_eq (congrArg WebuiEntry.label hw) hne
    rw [webuiItemOf_written hvalid hne, webuiItemOf, hshown] at hsame
    simp only [WebuiEntry.written, Mapping.ofFields, List.map_cons, List.map_nil, List.cons_append,
      List.nil_append, List.cons.injEq, Prod.mk.injEq, true_and] at hsame
    obtain ⟨hportShown, -, hlabelShown, hrest⟩ := hsame
    refine ⟨fun e he => ?_, ⟨_, hportShown.symm⟩, fun s hs => ?_, ?_⟩
    · by_contra hkey
      exact List.filter_eq_nil_iff.1 hrest.symm e he (by simpa using hkey)
    · rw [← eq_of_textField hpath hs]
      exact slashed_eq_self_iff.1 hslash
    · rcases textField_eq_ok.1 hlabel with ⟨hnone, hdefault⟩ | hsome
      · -- A label that is made up here is not the one that the browser makes up.
        have hget : args.get "label" = .null := by
          rw [Mapping.get, Mapping.getD, hnone]
          rfl
        rw [hget, hclean.2, hdefault, orShown, if_neg (by decide), Value.str.injEq] at hlabelShown
        have hhead := congrArg (fun s : String => s.toList.head?) hlabelShown
        rcases WebuiEntry.scheme_of_valid hvalid with hs | hs <;>
          simp [hs, Value.print, String.toList_append] at hhead
      · exact ⟨w.label, by rw [Mapping.get, Mapping.getD, hsome]; rfl, hclean⟩
  · intro hcanon
    obtain ⟨s, hs, hclean⟩ := hcanon.label
    obtain rfl := eq_of_textField hlabel hs
    obtain ⟨n, hn⟩ := hcanon.port
    have hn' : n = w.port := by
      rw [Mapping.get, Mapping.getD] at hn
      cases hl : args.lookup (.str "port") with
      | none =>
        rw [hl] at hn
        cases hn
      | some v =>
        rw [hl, Option.getD_some] at hn
        rw [portField, hl, hn, Option.bind_some, R.toInt_int] at hport
        exact Except.ok.inj hport
    rw [hn'] at hn
    have hslash : slashed w.path = w.path := by
      rw [slashed_eq_self_iff]
      rcases textField_eq_ok.1 hpath with ⟨-, hdefault⟩ | hsome
      · rw [hdefault]
        decide
      · exact hcanon.path w.path (by rw [Mapping.get, Mapping.getD, hsome]; rfl)
    have hshownPath : orShown (args.get "path") (.str "/") = .str w.path := by
      rcases textField_eq_ok.1 hpath with ⟨hnone, hdefault⟩ | hsome
      · rw [Mapping.get, Mapping.getD, hnone, hdefault]
        rfl
      · rw [Mapping.get, Mapping.getD, hsome]
        exact orShown_str (hslash ▸ slashed_ne w.path) _
    have hrest : (args.filter fun e => e.1 ∉ webuiFields.map Key.str) = [] := by
      rw [List.filter_eq_nil_iff]
      intro e he
      rw [decide_eq_true_eq, not_not]
      exact hcanon.fields e he
    refine ⟨hclean.strip_ne, validated_eq_ok.2 ⟨?_, ?_⟩, ?_⟩
    · rw [hslash, hclean.2]
    · rw [hslash, hclean.2]
      exact hvalid
    · rw [webuiItemOf_written hvalid hclean.strip_ne, webuiItemOf, hshown, hshownPath, hn, hs,
        orShown_str hclean.1, hrest, List.append_nil, WebuiEntry.written, hslash, hclean.2]

end Webui

end Dnlab.DevicesParser
