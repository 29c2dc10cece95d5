import Dnlab.Gui.DevicesParser.Entries

/-!
# The kinds of the device catalogue

When the entry of a kind survives an edit (`kind_survives_iff`). The fields of
an entry that is written (`DeviceKindEntry.written`) are those that are there;
what is read of it has neither blanks nor `null` (`kindEntry_written`).
-/

namespace Dnlab.DevicesParser

open DeviceCatalog

/-! ## Kinds -/

section Kind

variable {R : Coercion} {defaults : Mapping} {kind : String} {raw : Mapping} {k : DeviceKindEntry}

/-- The fields that are written of a kind, those that there are. -/
def DeviceKindEntry.fields (k : DeviceKindEntry) : List (String × Option Value) := [
  ("label", some (.str (Text.stripSpaces k.label))),
  ("vendor", some (.str (Text.stripSpaces k.vendor))),
  ("type", some (.str (Text.stripSpaces k.type))),
  ("deploy_kind", if k.deployKind.getD "" = "" then none
    else some (.str (Text.stripSpaces (k.deployKind.getD "")))),
  ("image_patterns", if k.imagePatterns = [] then none
    else some (.strs (k.imagePatterns.map Text.stripSpaces))),
  ("mgmt_iface", k.mgmtIface.map .str),
  ("webui", if k.webui = [] then none
    else some (.list (k.webui.map fun w => .dict w.written)))]

/-- The entry that is written of a kind. -/
def DeviceKindEntry.written (k : DeviceKindEntry) : Mapping := dropNone k.extra ++ present k.fields

/-- Nothing that is written of a kind is blank. -/
structure DeviceKindEntry.Writable (k : DeviceKindEntry) : Prop where
  label : Text.stripSpaces k.label ≠ ""
  vendor : Text.stripSpaces k.vendor ≠ ""
  type : Text.stripSpaces k.type ≠ ""
  deployKind : k.deployKind.getD "" ≠ "" → Text.stripSpaces (k.deployKind.getD "") ≠ ""
  imagePatterns : ∀ p ∈ k.imagePatterns, Text.stripSpaces p ≠ ""
  webui : ∀ w ∈ k.webui, Text.stripSpaces w.label ≠ ""

theorem setDeployKind_eq_ok {d d' : Mapping} : setDeployKind k d = .ok d' ↔
    d' = (if k.deployKind.getD "" = "" then d
      else d.set "deploy_kind" (.str (Text.stripSpaces (k.deployKind.getD "")))) ∧
      (k.deployKind.getD "" ≠ "" → Text.stripSpaces (k.deployKind.getD "") ≠ "") := by
  by_cases hne : k.deployKind.getD "" = ""
  · rw [setDeployKind, if_pos hne, if_pos hne, ExceptRules.pure_eq_ok]
    exact ⟨fun h => ⟨h.symm, fun hne' => absurd hne hne'⟩, fun h => h.1.symm⟩
  · rw [setDeployKind, if_neg hne, if_neg hne, ExceptRules.bind_eq_ok]
    constructor
    · rintro ⟨s, hs, h⟩
      obtain ⟨rfl, hs⟩ := rejectEmpty_eq_ok.1 hs
      exact ⟨(Except.ok.inj h).symm, fun _ => hs⟩
    · rintro ⟨rfl, hs⟩
      exact ⟨_, rejectEmpty_eq_ok.2 ⟨rfl, hs hne⟩, rfl⟩

theorem setImagePatterns_eq_ok {d d' : Mapping} : setImagePatterns k d = .ok d' ↔
    d' = (if k.imagePatterns = [] then d
      else d.set "image_patterns" (.strs (k.imagePatterns.map Text.stripSpaces))) ∧
      ∀ p ∈ k.imagePatterns, Text.stripSpaces p ≠ "" := by
  by_cases hnil : k.imagePatterns = []
  · rw [setImagePatterns, if_pos hnil, if_pos hnil, hnil, ExceptRules.pure_eq_ok]
    exact ⟨fun h => ⟨h.symm, List.forall_mem_nil _⟩, fun h => h.1.symm⟩
  · rw [setImagePatterns, if_neg hnil, if_neg hnil, ExceptRules.bind_eq_ok]
    have hstrip : ∀ p q, rejectEmpty p (k.kind ++ ".image_patterns") = .ok q ↔
        q = Text.stripSpaces p ∧ Text.stripSpaces p ≠ "" :=
      fun p q => rejectEmpty_eq_ok.trans (and_congr_right fun h => by rw [h])
    have hmap := fun ps => ExceptRules.mapM_eq_ok_map (l := k.imagePatterns) (m := ps) hstrip
    constructor
    · rintro ⟨ps, hps, h⟩
      obtain ⟨rfl, hne⟩ := (hmap ps).1 hps
      exact ⟨(Except.ok.inj h).symm, hne⟩
    · rintro ⟨rfl, hps⟩
      exact ⟨_, (hmap _).2 ⟨rfl, hps⟩, rfl⟩

theorem setWebui_eq_ok {d d' : Mapping} : setWebui k d = .ok d' ↔
    d' = (if k.webui = [] then d
      else d.set "webui" (.list (k.webui.map fun w => .dict w.written))) ∧
      ∀ w ∈ k.webui, Text.stripSpaces w.label ≠ "" := by
  by_cases hnil : k.webui = []
  · rw [setWebui, if_pos hnil, if_pos hnil, hnil, ExceptRules.pure_eq_ok]
    exact ⟨fun h => ⟨h.symm, List.forall_mem_nil _⟩, fun h => h.1.symm⟩
  · rw [setWebui, if_neg hnil, if_neg hnil, ExceptRules.bind_eq_ok]
    have hwritten : ∀ w v, webuiToMapping k.kind w = .ok v ↔
        v = .dict w.written ∧ Text.stripSpaces w.label ≠ "" := fun _ _ => webuiToMapping_eq_ok
    have hmap := fun ws => ExceptRules.mapM_eq_ok_map (l := k.webui) (m := ws) hwritten
    constructor
    · rintro ⟨ws, hws, h⟩
      obtain ⟨rfl, hne⟩ := (hmap ws).1 hws
      exact ⟨(Except.ok.inj h).symm, hne⟩
    · rintro ⟨rfl, hws⟩
      exact ⟨_, (hmap _).2 ⟨rfl, hws⟩, rfl⟩

theorem present_concat_none {d : Mapping} {fields : List (String × Option Value)} {name : String} :
    d ++ present (fields ++ [(name, none)]) = d ++ present fields := by
  simp [present]

/-- A new field that may be there is added at the end. -/
theorem ite_set_append_present {c : Prop} [Decidable c] {d : Mapping}
    {fields : List (String × Option Value)} {name : String} {v : Value}
    (hd : Key.str name ∉ d.map Prod.fst) (hfields : name ∉ fields.map Prod.fst) :
    (if c then d ++ present fields else (d ++ present fields).set name v) =
      d ++ present (fields ++ [(name, if c then none else some v)]) := by
  split
  · exact present_concat_none.symm
  · exact set_append_present hd hfields v

theorem kindToMapping_eq_ok (hextra : ∀ e ∈ k.extra, e.1 ∉ kindFields.map Key.str) {w : Value} :
    kindToMapping k = .ok w ↔ w = .dict k.written ∧ k.Writable := by
  have hnew : ∀ name ∈ kindFields, Key.str name ∉ k.extra.map Prod.fst := by
    intro name hname hmem
    obtain ⟨e, he, hkey⟩ := List.mem_map.1 hmem
    exact hextra e he (hkey ▸ List.mem_map_of_mem hname)
  -- The fields of the editor come after all others, in the order in which they are set.
  have hbase : ∀ a b c : Value, ((k.extra.set "label" a).set "vendor" b).set "type" c =
      k.extra ++ present [("label", some a), ("vendor", some b), ("type", some c)] := by
    intro a b c
    rw [set_present (hnew "label" (by decide)), set_append_present (hnew "vendor" (by decide)) (by simp),
      set_append_present (hnew "type" (by decide)) (by simp)]
    rfl
  have hset : ∀ {fields : List (String × Option Value)} {name : String} (v : Value),
      name ∈ kindFields → name ∉ fields.map Prod.fst →
      (k.extra ++ present fields).set name v = k.extra ++ present (fields ++ [(name, some v)]) :=
    fun v hname hfields => set_append_present (hnew _ hname) hfields v
  have hite : ∀ {c : Prop} [Decidable c] {fields : List (String × Option Value)} {name : String}
      {v : Value}, name ∈ kindFields → name ∉ fields.map Prod.fst →
      (if c then k.extra ++ present fields else (k.extra ++ present fields).set name v) =
        k.extra ++ present (fields ++ [(name, if c then none else some v)]) :=
    fun hname hfields => ite_set_append_present (hnew _ hname) hfields
  simp only [kindToMapping, ExceptRules.bind_eq_ok, rejectEmpty_eq_ok, setDeployKind_eq_ok,
    setImagePatterns_eq_ok, setWebui_eq_ok, ExceptRules.pure_eq_ok, and_assoc, exists_eq_left, hbase]
  rw [hite (by decide) (by simp), hite (by decide) (by simp), hset _ (by decide) (by simp),
    hite (by decide) (by simp), dropNone_append_present]
  -- Of the optional fields, those are dropped that are null.
  have hfilter : ∀ {c : Prop} [Decidable c] {v : Value}, v.isNull = false →
      (if c then none else some v).filter (fun v => !v.isNull) = if c then none else some v := by
    intro c _ v hv
    split
    · rfl
    · rw [Option.filter_some_pos (by rw [hv]; rfl)]
  have hmgmt : (some ((k.mgmtIface.map Value.str).getD .null)).filter (fun v => !v.isNull) =
      k.mgmtIface.map .str := by
    cases k.mgmtIface <;> rfl
  have hdeploy := hfilter (c := k.deployKind.getD "" = "")
    (v := .str (Text.stripSpaces (k.deployKind.getD ""))) rfl
  have hpatterns := hfilter (c := k.imagePatterns = [])
    (v := .strs (k.imagePatterns.map Text.stripSpaces)) rfl
  have hwebui := hfilter (c := k.webui = []) (v := .list (k.webui.map fun w => .dict w.written)) rfl
  simp only [List.cons_append, List.nil_append, List.map_cons, List.map_nil, hmgmt, hdeploy,
    hpatterns, hwebui]
  constructor
  · rintro ⟨hlabel, hvendor, htype, hdeploy, hpatterns, hwebui, rfl⟩
    exact ⟨rfl, hlabel, hvendor, htype, hdeploy, hpatterns, hwebui⟩
  · rintro ⟨rfl, h⟩
    exact ⟨h.label, h.vendor, h.type, h.deployKind, h.imagePatterns, h.webui, rfl⟩

/-! ### What is read of the entry that was written -/

theorem get_written (hextra : ∀ e ∈ k.extra, e.1 ∉ kindFields.map Key.str) {name : String}
    (hname : name ∈ kindFields) : k.written.get name = ((k.fields.lookup name).join).getD .null :=
  get_written_of_known hextra (by simp [DeviceKindEntry.fields]) hname

/-- The entry that was written of a kind is read as the entry without blanks, slashes in front of the
    paths, and without what is `null`. -/
theorem kindEntry_written (hextra : ∀ e ∈ k.extra, e.1 ∉ kindFields.map Key.str) (h : k.Writable) :
    kindEntry R kind k.written = (do
      let webui ← k.webui.mapM fun w => webuiEntry R (.dict w.written)
      validated DeviceKindEntry.valid {
        kind := kind
        label := Text.stripSpaces k.label
        vendor := Text.stripSpaces k.vendor
        type := Text.stripSpaces k.type
        deployKind := if k.deployKind.getD "" = "" then none
          else some (Text.stripSpaces (k.deployKind.getD ""))
        imagePatterns := k.imagePatterns.map Text.stripSpaces
        mgmtIface := k.mgmtIface
        webui := webui
        extra := dropNone k.extra }) := by
  have hlabel : k.written.get "label" = .str (Text.stripSpaces k.label) :=
    get_written hextra (by decide)
  have hvendor : k.written.get "vendor" = .str (Text.stripSpaces k.vendor) :=
    get_written hextra (by decide)
  have htype : k.written.get "type" = .str (Text.stripSpaces k.type) :=
    get_written hextra (by decide)
  have hdeploy : optionalText (k.written.get "deploy_kind") = if k.deployKind.getD "" = "" then none
      else some (Text.stripSpaces (k.deployKind.getD "")) := by
    rw [get_written hextra (by decide)]
    show optionalText ((if _ then none else some _ : Option Value).getD .null) = _
    split <;> rfl
  have hpatterns : patternsFrom kind (k.written.get "image_patterns") =
      .ok (k.imagePatterns.map Text.stripSpaces) := by
    rw [get_written hextra (by decide)]
    show patternsFrom kind ((if _ then none else some _ : Option Value).getD .null) = _
    split
    · rename_i hnil
      rw [hnil]
      rfl
    · show Except.ok ((List.map Value.str _).filterMap optionalText) = _
      have hsome : optionalText ∘ Value.str = some := rfl
      rw [List.filterMap_map, hsome, List.filterMap_some]
  have hmgmt : optionalText (k.written.get "mgmt_iface") = k.mgmtIface := by
    rw [get_written hextra (by decide)]
    show optionalText ((k.mgmtIface.map Value.str).getD .null) = _
    cases k.mgmtIface <;> rfl
  have hwebui : webuiItems kind (k.written.get "webui") =
      .ok (k.webui.map fun w => .dict w.written) := by
    rw [get_written hextra (by decide)]
    show webuiItems kind ((if _ then none else some _ : Option Value).getD .null) = _
    split
    · rename_i hnil
      rw [hnil]
      rfl
    · rfl
  have hwithout : without kindFields k.written = dropNone k.extra :=
    without_written hextra (by simp [DeviceKindEntry.fields, kindFields])
  rw [kindEntry, hpatterns, hwebui, hlabel, hvendor, htype, hdeploy, hmgmt, hwithout,
    Value.orText_str h.label, Value.orText_str h.vendor, Value.orText_str h.type]
  show (k.webui.map fun w => Value.dict w.written).mapM (webuiEntry R) >>= _ = _
  rw [List.mapM_map]
  rfl

/-- What the readers make of the entry that was written of a kind. -/
theorem sameKind_written_iff (hraw : (raw.map Prod.fst).Nodup)
    (hextra : k.extra = without kindFields raw) (h : k.Writable) :
    SameKind defaults kind raw k.written ↔ raw ≠ [] ∧
      labelOf kind raw = .str (Text.stripSpaces k.label) ∧
      vendorOf defaults raw = Text.stripSpaces k.vendor ∧
      vendorShown defaults raw = .str (Text.stripSpaces k.vendor) ∧
      typeOf defaults raw = Text.stripSpaces k.type ∧
      typeShown defaults raw = .str (Text.stripSpaces k.type) ∧
      deployKindOf kind raw = (if k.deployKind.getD "" = "" then kind
        else Text.stripSpaces (k.deployKind.getD "")) ∧
      imagePatternsOf raw = k.imagePatterns.map (fun p => Text.lower (Text.stripSpaces p)) ∧
      mgmtIfaceOf defaults raw = k.mgmtIface.getD (mgmtIfaceOf defaults []) ∧
      mgmtIfaceShown defaults kind raw = mgmtShown defaults kind (k.mgmtIface.map .str) ∧
      webuiOf raw = k.webui.map fun w => webuiItemOf w.written := by
  have hextra' : ∀ e ∈ k.extra, e.1 ∉ kindFields.map Key.str :=
    fun e he => (mem_without.1 (hextra ▸ he)).2
  have hget : k.written.get "label" = .str (Text.stripSpaces k.label) :=
    get_written hextra' (by decide)
  have hne : k.written ≠ [] := ne_nil_of_get hget
  have hlabel : labelOf kind k.written = .str (Text.stripSpaces k.label) := by
    rw [labelOf, hget, orShown_str h.label]
  have hvendor : vendorOf defaults k.written = Text.stripSpaces k.vendor ∧
      vendorShown defaults k.written = .str (Text.stripSpaces k.vendor) := by
    have hget : k.written.get "vendor" = .str (Text.stripSpaces k.vendor) :=
      get_written hextra' (by decide)
    rw [vendorOf, vendorShown, hget, Value.orText_str h.vendor, orShown_str h.vendor]
    exact ⟨rfl, rfl⟩
  have htype : typeOf defaults k.written = Text.stripSpaces k.type ∧
      typeShown defaults k.written = .str (Text.stripSpaces k.type) := by
    have hget : k.written.get "type" = .str (Text.stripSpaces k.type) :=
      get_written hextra' (by decide)
    rw [typeOf, typeShown, hget, Value.orText_str h.type, orShown_str h.type]
    exact ⟨rfl, rfl⟩
  have hdeploy : deployKindOf kind k.written = if k.deployKind.getD "" = "" then kind
      else Text.stripSpaces (k.deployKind.getD "") := by
    rw [deployKindOf, get_written hextra' (by decide)]
    show ((if _ then none else some _ : Option Value).getD .null).orText kind = _
    split
    · rfl
    · exact Value.orText_str (h.deployKind ‹_›) kind
  have hpatterns : imagePatternsOf k.written =
      k.imagePatterns.map fun p => Text.lower (Text.stripSpaces p) := by
    have hget : k.written.get "image_patterns" = (if k.imagePatterns = [] then none
        else some (.strs (k.imagePatterns.map Text.stripSpaces)) : Option Value).getD .null :=
      get_written hextra' (by decide)
    unfold imagePatternsOf
    rw [hget]
    by_cases hnil : k.imagePatterns = []
    · rw [if_pos hnil, hnil]
      rfl
    · rw [if_neg hnil]
      show ((k.imagePatterns.map Text.stripSpaces).map Value.str).map _ = _
      rw [List.map_map, List.map_map]
      rfl
  have hlookup : k.written.lookup (.str "mgmt_iface") = k.mgmtIface.map .str :=
    (lookup_written_of_known hextra' (by simp [DeviceKindEntry.fields]) (by decide)).trans rfl
  have hmgmtShown : mgmtIfaceShown defaults kind k.written =
      mgmtShown defaults kind (k.mgmtIface.map .str) := by
    rw [mgmtIfaceShown, hlookup]
  have hmgmt : mgmtIfaceOf defaults k.written = k.mgmtIface.getD (mgmtIfaceOf defaults []) := by
    rw [mgmtIfaceOf, Mapping.has, Mapping.get, Mapping.getD, hlookup]
    cases k.mgmtIface with
    | none => rfl
    | some s => by_cases hs : s = "" <;> simp [Value.orText, Value.truthy, Value.print, hs]
  have hwebui : webuiOf k.written = k.webui.map fun w => webuiItemOf w.written := by
    have hget : k.written.get "webui" = (if k.webui = [] then none
        else some (.list (k.webui.map fun w => .dict w.written)) : Option Value).getD .null :=
      get_written hextra' (by decide)
    unfold webuiOf
    rw [hget]
    by_cases hnil : k.webui = []
    · rw [if_pos hnil, hnil]
      rfl
    · rw [if_neg hnil]
      show (k.webui.map fun w => Value.dict w.written).map _ = _
      rw [List.map_map]
      rfl
  constructor
  · intro hsame
    exact ⟨fun hnil => hne (hsame.listed.2 hnil), hsame.label ▸ hlabel, hsame.vendor ▸ hvendor.1,
      hsame.vendorShown ▸ hvendor.2, hsame.type ▸ htype.1, hsame.typeShown ▸ htype.2,
      hsame.deployKind ▸ hdeploy, hsame.imagePatterns ▸ hpatterns, hsame.mgmtIface ▸ hmgmt,
      hsame.mgmtIfaceShown ▸ hmgmtShown, hsame.webui ▸ hwebui⟩
  · rintro ⟨hraw', hlabel', hvendor', hvendorShown', htype', htypeShown', hdeploy', hpatterns',
      hmgmt', hmgmtShown', hwebui'⟩
    exact {
      listed := ⟨fun hnil => absurd hnil hne, fun hnil => absurd hnil hraw'⟩
      label := hlabel.trans hlabel'.symm
      vendor := hvendor.1.trans hvendor'.symm
      vendorShown := hvendor.2.trans hvendorShown'.symm
      type := htype.1.trans htype'.symm
      typeShown := htype.2.trans htypeShown'.symm
      deployKind := hdeploy.trans hdeploy'.symm
      imagePatterns := hpatterns.trans hpatterns'.symm
      mgmtIface := hmgmt.trans hmgmt'.symm
      mgmtIfaceShown := hmgmtShown.trans hmgmtShown'.symm
      webui := hwebui.trans hwebui'.symm
      other := fun name hname => by
        rw [DeviceKindEntry.written, get_written_of_other kindFields
          (hextra ▸ nodup_without hraw) (by simp [DeviceKindEntry.fields, kindFields]) hname, hextra,
          Mapping.get, Mapping.getD, lookup_without hname]
        rfl }

/-! ### Fields that are kept -/

/-- What is read of the entry that was written of a kind is the kind. -/
structure DeviceKindEntry.Stable (R : Coercion) (k : DeviceKindEntry) : Prop where
  label : IsClean k.label
  vendor : IsClean k.vendor
  type : IsClean k.type
  deployKind : ∀ s, k.deployKind = some s → IsClean s
  imagePatterns : ∀ p ∈ k.imagePatterns, IsClean p
  webui : ∀ w ∈ k.webui, Text.stripSpaces w.label ≠ "" ∧ webuiEntry R (.dict w.written) = .ok w
  extra : dropNone k.extra = k.extra

theorem optional_stripped_iff {o : Option String}
    (hne : o.getD "" ≠ "" → Text.stripSpaces (o.getD "") ≠ "") :
    (if o.getD "" = "" then none else some (Text.stripSpaces (o.getD ""))) = o ↔
      ∀ s, o = some s → IsClean s := by
  cases o with
  | none => simp
  | some s =>
    rw [Option.getD_some] at hne ⊢
    by_cases hs : s = ""
    · rw [if_pos hs]
      exact ⟨fun h => (by cases h), fun h => absurd hs (h s rfl).1⟩
    · rw [if_neg hs, Option.some.injEq]
      refine ⟨fun h t ht => ?_, fun h => (h s rfl).2⟩
      rw [← Option.some.inj ht]
      exact ⟨hs, h⟩

theorem kindEntry_written_iff (hkind : k.kind = kind) (hvalid : k.valid = true)
    (hextra : ∀ e ∈ k.extra, e.1 ∉ kindFields.map Key.str) :
    (k.Writable ∧ kindEntry R kind k.written = .ok k) ↔ k.Stable R := by
  constructor
  · rintro ⟨hw, h⟩
    rw [kindEntry_written hextra hw] at h
    obtain ⟨webui, hwebui, h⟩ := ExceptRules.bind_eq_ok.1 h
    obtain ⟨hk, -⟩ := validated_eq_ok.1 h
    have hwebui' : k.webui = webui := congrArg DeviceKindEntry.webui hk
    rw [← hwebui', ExceptRules.mapM_eq_ok_self] at hwebui
    have hpatterns : k.imagePatterns = k.imagePatterns.map Text.stripSpaces :=
      congrArg DeviceKindEntry.imagePatterns hk
    exact {
      label := isClean_of_eq (congrArg DeviceKindEntry.label hk) hw.label
      vendor := isClean_of_eq (congrArg DeviceKindEntry.vendor hk) hw.vendor
      type := isClean_of_eq (congrArg DeviceKindEntry.type hk) hw.type
      deployKind := (optional_stripped_iff hw.deployKind).1
        (congrArg DeviceKindEntry.deployKind hk).symm
      imagePatterns := fun p hp => by
        have heq : ∀ p ∈ k.imagePatterns, Text.stripSpaces p = id p :=
          List.map_inj_left.1 (hpatterns.symm.trans (List.map_id _).symm)
        exact isClean_of_eq (heq p hp).symm (hw.imagePatterns p hp)
      webui := fun w hw' => ⟨hw.webui w hw', hwebui w hw'⟩
      extra := (congrArg DeviceKindEntry.extra hk).symm }
  · intro h
    have hdeploy : k.deployKind.getD "" ≠ "" → Text.stripSpaces (k.deployKind.getD "") ≠ "" := by
      cases hd : k.deployKind with
      | none => exact fun hne => absurd rfl hne
      | some s => exact fun _ => (h.deployKind s hd).strip_ne
    have hw : k.Writable := {
      label := h.label.strip_ne
      vendor := h.vendor.strip_ne
      type := h.type.strip_ne
      deployKind := hdeploy
      imagePatterns := fun p hp => (h.imagePatterns p hp).strip_ne
      webui := fun w hw => (h.webui w hw).1 }
    refine ⟨hw, ?_⟩
    have hpatterns : k.imagePatterns.map Text.stripSpaces = k.imagePatterns :=
      (List.map_congr_left fun p hp => (h.imagePatterns p hp).2).trans (List.map_id _)
    rw [kindEntry_written hextra hw, ExceptRules.mapM_eq_ok_self.2 fun w hw => (h.webui w hw).2, h.label.2,
      h.vendor.2, h.type.2, (optional_stripped_iff hdeploy).2 h.deployKind, hpatterns, h.extra, ← hkind]
    exact validated_eq_ok.2 ⟨rfl, hvalid⟩

theorem deployKind_kept_iff (kind : String) (v : Value) :
    (v = .null ∨ IsClean v.print ∧ (v.truthy = true ∨ v.print = kind)) ↔
      (∀ s, optionalText v = some s → IsClean s) ∧ v.orText kind =
        (if (optionalText v).getD "" = "" then kind
          else Text.stripSpaces ((optionalText v).getD "")) := by
  by_cases hv : v = .null
  · subst hv
    simp [optionalText, Value.isNull, Value.orText, Value.truthy]
  · have hsome : optionalText v = some v.print :=
      if_neg fun hnull => hv (Value.isNull_iff.1 hnull)
    rw [hsome, Option.getD_some]
    constructor
    · rintro (hnull | ⟨hclean, htext⟩)
      · exact absurd hnull hv
      · refine ⟨fun s hs => Option.some.inj hs ▸ hclean, ?_⟩
        rw [if_neg hclean.1, hclean.2, Value.orText]
        split
        · rfl
        · exact (htext.resolve_left ‹_›).symm
    · rintro ⟨hclean, htext⟩
      have hprint := hclean _ rfl
      rw [if_neg hprint.1, hprint.2, Value.orText] at htext
      refine .inr ⟨hprint, ?_⟩
      by_cases ht : v.truthy = true
      · exact .inl ht
      · rw [if_neg ht] at htext
        exact .inr htext.symm

theorem filterMap_optionalText_length {l : List Value} :
    (l.filterMap optionalText).length = l.length ↔ ∀ v ∈ l, v ≠ .null := by
  induction l with
  | nil => simp
  | cons v l ih =>
    rw [List.forall_mem_cons, ← ih]
    by_cases hv : v = .null
    · subst hv
      have hle := List.length_filterMap_le optionalText l
      simp only [List.filterMap_cons_none (show optionalText .null = none from rfl), List.length_cons,
        ne_eq, not_true_eq_false, false_and, iff_false]
      omega
    · have hsome : optionalText v = some v.print := if_neg fun hnull => hv (Value.isNull_iff.1 hnull)
      rw [List.filterMap_cons_some hsome, List.length_cons, List.length_cons, Nat.add_right_cancel_iff]
      exact (and_iff_right hv).symm

theorem filterMap_optionalText {l : List Value} (h : ∀ v ∈ l, v ≠ .null) :
    l.filterMap optionalText = l.map Value.print := by
  induction l with
  | nil => rfl
  | cons v l ih =>
    obtain ⟨hv, hl⟩ := List.forall_mem_cons.1 h
    have hsome : optionalText v = some v.print := if_neg fun hnull => hv (Value.isNull_iff.1 hnull)
    rw [List.filterMap_cons_some hsome, List.map_cons, ih hl]

theorem imagePatterns_kept_iff {l : Mapping} {ps : List String}
    (h : patternsFrom kind (l.get "image_patterns") = .ok ps) :
    (∀ v ∈ patternValues (l.get "image_patterns"), v ≠ .null ∧ IsClean v.print) ↔
      (∀ p ∈ ps, IsClean p) ∧
        imagePatternsOf l = ps.map fun p => Text.lower (Text.stripSpaces p) := by
  unfold imagePatternsOf
  generalize l.get "image_patterns" = v at h ⊢
  cases v with
  | list values =>
    cases h
    show (∀ v ∈ values, v ≠ .null ∧ IsClean v.print) ↔ _
    constructor
    · intro hall
      have hnull : ∀ v ∈ values, v ≠ .null := fun v hv => (hall v hv).1
      rw [filterMap_optionalText hnull, List.map_map]
      refine ⟨fun p hp => ?_, List.map_congr_left fun v hv => ?_⟩
      · obtain ⟨v, hv, rfl⟩ := List.mem_map.1 hp
        exact (hall v hv).2
      · rw [Function.comp_apply, (hall v hv).2.2]
    · rintro ⟨hclean, heq⟩
      have hnull : ∀ v ∈ values, v ≠ .null := by
        have hlen := congrArg List.length heq
        rw [List.length_map, List.length_map] at hlen
        exact filterMap_optionalText_length.1 hlen.symm
      rw [filterMap_optionalText hnull] at hclean
      exact fun v hv => ⟨hnull v hv, hclean _ (List.mem_map_of_mem hv)⟩
  | str s =>
    cases h
    by_cases hs : s = ""
    · simp [patternValues, hs]
    · have hvalues : patternValues (.str s) = [.str s] := if_neg hs
      rw [hvalues, if_neg hs]
      show _ ↔ _ ∧ (if s = "" then [] else [Text.lower s]) = _
      rw [if_neg hs]
      simp only [List.mem_singleton, forall_eq, List.map_cons, List.map_nil, List.cons.injEq, and_true]
      constructor
      · rintro ⟨-, hclean⟩
        have hs : Text.stripSpaces s = s := hclean.2
        rw [hs]
        exact ⟨hclean, rfl⟩
      · rintro ⟨hclean, -⟩
        exact ⟨fun hnull => (by cases hnull), hclean⟩
  | _ =>
    have hnil : ps = [] := by
      rw [patternsFrom] at h
      · split at h
        · cases h
        · exact (Except.ok.inj h).symm
      all_goals simp
    simp [patternValues, hnil]

theorem mgmtIface_read_iff (defaults raw : Mapping) : (∀ v, raw.lookup (.str "mgmt_iface") = some v →
      (v = .null ∧ mgmtIfaceOf defaults [] = "") ∨ v ≠ .null ∧ (v.truthy = true ∨ v.print = "")) ↔
    mgmtIfaceOf defaults raw =
      (optionalText (raw.get "mgmt_iface")).getD (mgmtIfaceOf defaults []) := by
  cases hl : raw.lookup (.str "mgmt_iface") with
  | none =>
    have hread : mgmtIfaceOf defaults raw = mgmtIfaceOf defaults [] := by
      simp [mgmtIfaceOf, Mapping.has, hl]
    rw [hread, Mapping.get, Mapping.getD, hl]
    exact ⟨fun _ => rfl, fun _ v hv => (by cases hv)⟩
  | some v =>
    have hread : mgmtIfaceOf defaults raw = v.orText "" := by
      simp [mgmtIfaceOf, Mapping.has, Mapping.get, Mapping.getD, hl]
    rw [hread, Mapping.get, Mapping.getD, hl, Option.getD_some]
    simp only [Option.some.injEq, forall_eq']
    by_cases hv : v = .null
    · subst hv
      simp only [true_and, ne_eq, not_true_eq_false, false_and, or_false]
      exact eq_comm
    · have hsome : optionalText v = some v.print := if_neg fun hnull => hv (Value.isNull_iff.1 hnull)
      rw [hsome, Option.getD_some, Value.orText]
      by_cases ht : v.truthy = true
      · simp [hv, ht]
      · rw [if_neg ht]
        simp only [hv, ht, false_and, false_or, ne_eq, not_false_eq_true, true_and, Bool.false_eq_true]
        exact eq_comm

/-- A management interface is shown as it was just if it is a text, or the browser shows none for
    the kind. -/
theorem mgmtIface_shown_iff (defaults : Mapping) (kind : String) (raw : Mapping) :
    mgmtIfaceShown defaults kind raw =
        mgmtShown defaults kind ((optionalText (raw.get "mgmt_iface")).map .str) ↔
      ∀ v, raw.lookup (.str "mgmt_iface") = some v →
        (∃ s, v = .str s) ∨ kind = "_real_net" ∨ kind = "_mgmt" := by
  have hget : raw.get "mgmt_iface" = (raw.lookup (.str "mgmt_iface")).getD .null := rfl
  rw [mgmtIfaceShown, mgmtShown, mgmtShown, hget]
  by_cases hkind : kind = "_real_net" ∨ kind = "_mgmt"
  · rw [if_pos hkind, if_pos hkind]
    exact iff_of_true rfl fun _ _ => .inr hkind
  · rw [if_neg hkind, if_neg hkind]
    cases hl : raw.lookup (.str "mgmt_iface") with
    | none => exact iff_of_true rfl fun v hv => (by cases hv)
    | some v =>
      simp only [Option.getD_some, Option.some.injEq, forall_eq', hkind, or_false]
      by_cases hv : v = .null
      · -- Whatever the default is, it is shown.
        subst hv
        refine iff_of_false (fun h => ?_) fun ⟨s, hs⟩ => (by cases hs)
        have hnone : optionalText .null = none := rfl
        rw [hnone, Option.map_none, Option.getD_none, orShown] at h
        split at h
        · rename_i hshown
          rw [← h] at hshown
          exact absurd hshown (by decide)
        · cases h
      · have hsome : optionalText v = some v.print := if_neg fun hnull => hv (Value.isNull_iff.1 hnull)
        rw [hsome, Option.map_some, Option.getD_some]
        constructor
        · exact fun h => ⟨_, h⟩
        · rintro ⟨s, rfl⟩
          rfl

/-- A management interface is kept just if it is a text; if the browser shows none for the kind, it
    may also be missing, where the default is not to have one, or else print as it is read. -/
theorem mgmtIface_kept_iff (defaults : Mapping) (kind : String) (raw : Mapping) :
    (∀ v, raw.lookup (.str "mgmt_iface") = some v →
      (∃ s, v = .str s) ∨ (kind = "_real_net" ∨ kind = "_mgmt") ∧
        ((v = .null ∧ mgmtIfaceOf defaults [] = "") ∨
          v ≠ .null ∧ (v.truthy = true ∨ v.print = ""))) ↔
    mgmtIfaceOf defaults raw =
        (optionalText (raw.get "mgmt_iface")).getD (mgmtIfaceOf defaults []) ∧
      mgmtIfaceShown defaults kind raw =
        mgmtShown defaults kind ((optionalText (raw.get "mgmt_iface")).map .str) := by
  rw [← mgmtIface_read_iff, mgmtIface_shown_iff, ← forall_and]
  refine forall_congr' fun v => ?_
  rw [← imp_and]
  refine imp_congr_right fun _ => ?_
  constructor
  · rintro (⟨s, rfl⟩ | ⟨hkind, hread⟩)
    · refine ⟨.inr ⟨by simp, ?_⟩, .inl ⟨s, rfl⟩⟩
      by_cases hs : s = "" <;> simp [Value.truthy, Value.print, hs]
    · exact ⟨hread, .inr hkind⟩
  · rintro ⟨hread, htext | hkind⟩
    · exact .inl htext
    · exact .inr ⟨hkind, hread⟩

theorem webui_kept_iff {items : List Value} {ws : List WebuiEntry}
    (hitems : webuiItems kind (raw.get "webui") = .ok items)
    (hws : items.mapM (webuiEntry R) = .ok ws) :
    (∀ l, raw.get "webui" = .list l → ∀ item ∈ l, CanonicalWebui item.fields) ↔
      (∀ w ∈ ws, Text.stripSpaces w.label ≠ "" ∧ webuiEntry R (.dict w.written) = .ok w) ∧
        webuiOf raw = ws.map fun w => webuiItemOf w.written := by
  have hread : webuiOf raw = items.map (fun item => webuiItemOf item.fields) ∧
      ((∀ l, raw.get "webui" = .list l → ∀ item ∈ l, CanonicalWebui item.fields) ↔
        ∀ item ∈ items, CanonicalWebui item.fields) := by
    unfold webuiOf
    generalize raw.get "webui" = v at hitems
    cases v with
    | list l =>
      cases hitems
      exact ⟨rfl, fun h => h _ rfl, fun h l hl => Value.list.inj hl ▸ h⟩
    | _ =>
      have hnil : items = [] := by
        rw [webuiItems] at hitems
        · split at hitems
          · cases hitems
          · exact (Except.ok.inj hitems).symm
        · simp
      subst hnil
      exact ⟨rfl, fun _ => List.forall_mem_nil _, fun _ l hl => (by cases hl)⟩
  rw [hread.1, hread.2]
  have hall := ExceptRules.mapM_eq_ok.1 hws
  clear hread hitems hws
  induction hall with
  | nil => simp
  | @cons item w items ws hitem _ ih =>
    rw [List.forall_mem_cons, List.forall_mem_cons, List.map_cons, List.map_cons, List.cons.injEq,
      ← webui_survives_iff hitem]
    constructor
    · rintro ⟨⟨hne, hread, hsame⟩, hrest⟩
      obtain ⟨hrest, heq⟩ := ih.1 hrest
      exact ⟨⟨⟨hne, hread⟩, hrest⟩, hsame.symm, heq⟩
    · rintro ⟨⟨⟨hne, hread⟩, hrest⟩, hsame, heq⟩
      exact ⟨⟨hne, hread, hsame.symm⟩, ih.2 ⟨hrest, heq⟩⟩

/-- What is read of the entry of a kind. -/
theorem kindEntry_eq_ok (h : kindEntry R kind raw = .ok k) : ∃ items,
    patternsFrom kind (raw.get "image_patterns") = .ok k.imagePatterns ∧
    webuiItems kind (raw.get "webui") = .ok items ∧ items.mapM (webuiEntry R) = .ok k.webui ∧
    k.valid = true ∧ k = { k with
      kind := kind
      label := (raw.get "label").orText kind
      vendor := (raw.get "vendor").orText "generic"
      type := (raw.get "type").orText "router"
      deployKind := optionalText (raw.get "deploy_kind")
      mgmtIface := optionalText (raw.get "mgmt_iface")
      extra := without kindFields raw } := by
  obtain ⟨imagePatterns, hpatterns, h⟩ := ExceptRules.bind_eq_ok.1 h
  obtain ⟨items, hitems, h⟩ := ExceptRules.bind_eq_ok.1 h
  obtain ⟨webui, hwebui, h⟩ := ExceptRules.bind_eq_ok.1 h
  obtain ⟨rfl, hvalid⟩ := validated_eq_ok.1 h
  exact ⟨items, hpatterns, hitems, hwebui, hvalid, rfl⟩

/-- The entry of a kind survives just if it is as the editor writes it. -/
theorem kind_survives_iff (hraw : (raw.map Prod.fst).Nodup) (hkind : IsClean kind)
    (h : kindEntry R kind raw = .ok k) :
    (∃ w, kindToMapping k = .ok w ∧ kindFromMapping R kind w.orEmpty = .ok k ∧
      SameKind defaults kind raw w.fields) ↔ CanonicalKind defaults kind raw := by
  obtain ⟨items, hpatterns, hitems, hwebui, hvalid, hk⟩ := kindEntry_eq_ok h
  have hname : k.kind = kind := congrArg DeviceKindEntry.kind hk
  have hlabel : k.label = (raw.get "label").orText kind := congrArg DeviceKindEntry.label hk
  have hvendor : k.vendor = (raw.get "vendor").orText "generic" := congrArg DeviceKindEntry.vendor hk
  have htype : k.type = (raw.get "type").orText "router" := congrArg DeviceKindEntry.type hk
  have hdeploy : k.deployKind = optionalText (raw.get "deploy_kind") :=
    congrArg DeviceKindEntry.deployKind hk
  have hmgmt : k.mgmtIface = optionalText (raw.get "mgmt_iface") :=
    congrArg DeviceKindEntry.mgmtIface hk
  have hextra : k.extra = without kindFields raw := congrArg DeviceKindEntry.extra hk
  have hextra' : ∀ e ∈ k.extra, e.1 ∉ kindFields.map Key.str :=
    fun e he => (mem_without.1 (hextra ▸ he)).2
  have hlabelKept := canonicalText_iff (raw.get "label") (.str kind) hkind
  have hdeployKept := deployKind_kept_iff kind (raw.get "deploy_kind")
  have hpatternsKept := imagePatterns_kept_iff hpatterns
  have hmgmtKept := mgmtIface_kept_iff defaults kind raw
  have hwebuiKept := webui_kept_iff hitems hwebui
  have hvendorKept := canonicalText_iff (raw.get "vendor")
    (defaults.getD "vendor" (.str "generic")) (show IsClean "generic" by decide)
  have htypeKept := canonicalText_iff (raw.get "type")
    (defaults.getD "type" (.str "router")) (show IsClean "router" by decide)
  rw [← hlabel] at hlabelKept
  rw [← hvendor] at hvendorKept
  rw [← htype] at htypeKept
  rw [← hdeploy] at hdeployKept
  rw [← hmgmt] at hmgmtKept
  constructor
  · rintro ⟨w, hw, hread, hsame⟩
    obtain ⟨rfl, hwritable⟩ := (kindToMapping_eq_ok hextra').1 hw
    rw [Value.orEmpty_dict] at hread
    have hstable := (kindEntry_written_iff hname hvalid hextra').1 ⟨hwritable, hread⟩
    obtain ⟨hne, hl, -, hv, -, ht, hd, hp, hm, hms, hws⟩ :=
      (sameKind_written_iff hraw hextra hwritable).1 hsame
    rw [hstable.label.2] at hl
    rw [hstable.vendor.2] at hv
    rw [hstable.type.2] at ht
    exact {
      listed := hne
      label := hlabelKept.2 ⟨hstable.label, hl⟩
      vendor := hvendorKept.2 ⟨hstable.vendor, hv⟩
      type := htypeKept.2 ⟨hstable.type, ht⟩
      deployKind := hdeployKept.2 ⟨hstable.deployKind, hd⟩
      imagePatterns := hpatternsKept.2 ⟨hstable.imagePatterns, hp⟩
      mgmtIface := hmgmtKept.2 ⟨hm, hms⟩
      webui := hwebuiKept.2 ⟨hstable.webui, hws⟩
      other := mem_null_iff.1 (hextra ▸ hstable.extra) }
  · intro hcanon
    have hl := hlabelKept.1 hcanon.label
    have hv := hvendorKept.1 hcanon.vendor
    have ht := htypeKept.1 hcanon.type
    have hm := hmgmtKept.1 hcanon.mgmtIface
    have hd := hdeployKept.1 hcanon.deployKind
    have hp := hpatternsKept.1 hcanon.imagePatterns
    have hws := hwebuiKept.1 hcanon.webui
    have hstable : k.Stable R := {
      label := hl.1
      vendor := hv.1
      type := ht.1
      deployKind := hd.1
      imagePatterns := hp.1
      webui := hws.1
      extra := hextra ▸ mem_null_iff.2 hcanon.other }
    obtain ⟨hwritable, hread⟩ := (kindEntry_written_iff hname hvalid hextra').2 hstable
    refine ⟨.dict k.written, (kindToMapping_eq_ok hextra').2 ⟨rfl, hwritable⟩, ?_,
      (sameKind_written_iff hraw hextra hwritable).2 ⟨hcanon.listed, ?_, ?_, ?_, ?_, ?_, hd.2, hp.2,
        hm.1, hm.2, hws.2⟩⟩
    · rw [Value.orEmpty_dict]
      exact hread
    · rw [hstable.label.2]
      exact hl.2
    · rw [hstable.vendor.2, hvendor]
      exact hcanon.vendor.orText_eq
    · rw [hstable.vendor.2]
      exact hv.2
    · rw [hstable.type.2, htype]
      exact hcanon.type.orText_eq
    · rw [hstable.type.2]
      exact ht.2

end Kind

end Dnlab.DevicesParser
