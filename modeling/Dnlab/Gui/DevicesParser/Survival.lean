import Dnlab.Gui.DevicesParser.Kinds

/-!
# What survives an edit of the device catalogue

A file that the parser accepts survives being read, written and read again
(`Survives`) just if it is as the editor writes it (`survives_iff`): each of its
tables survives if its entries do (`table_survives_iff`).

A file need not be: a kind that has no management interface says so with `null`,
which is not written.
-/

namespace Dnlab.DevicesParser

open DeviceCatalog

/-! ## Tables -/

section Table

variable {α : Type} {read : String → Value → Except String α} {nameOf : α → String} {label : String}
  {write : α → Except String Value} {same : String → Value → Value → Prop} {table : Mapping}
  {entries : List α}

/-- An entry under its name. -/
def writeEntry (nameOf : α → String) (label : String) (write : α → Except String Value) (a : α) :
    Except String (Key × Value) := do
  let key ← rejectEmpty (nameOf a) label
  let value ← write a
  pure (Key.str key, value)

theorem writeEntry_eq_ok {a : α} {p : Key × Value} : writeEntry nameOf label write a = .ok p ↔
    p.1 = .str (Text.stripSpaces (nameOf a)) ∧ Text.stripSpaces (nameOf a) ≠ "" ∧
      write a = .ok p.2 := by
  constructor
  · intro h
    obtain ⟨key, hkey, h⟩ := ExceptRules.bind_eq_ok.1 h
    obtain ⟨value, hvalue, h⟩ := ExceptRules.bind_eq_ok.1 h
    obtain ⟨rfl, hne⟩ := rejectEmpty_eq_ok.1 hkey
    cases Except.ok.inj h
    exact ⟨rfl, hne, hvalue⟩
  · obtain ⟨key, value⟩ := p
    rintro ⟨rfl, hne, hvalue⟩
    exact ExceptRules.bind_eq_ok.2 ⟨_, rejectEmpty_eq_ok.2 ⟨rfl, hne⟩,
      ExceptRules.bind_eq_ok.2 ⟨value, hvalue, rfl⟩⟩

/-- What is related forth and back is related element by element. -/
theorem exists_of_forall₂ {β γ : Type} {p : β → α → Prop} {q : α → γ → Prop} {r : γ → α → Prop}
    {l : List β} {m : List α} {n : List γ} (hp : List.Forall₂ p l m) (hq : List.Forall₂ q m n)
    (hr : List.Forall₂ r n m) : ∀ x ∈ l, ∃ y z, z ∈ n ∧ p x y ∧ q y z ∧ r z y := by
  induction hp generalizing n with
  | nil => exact List.forall_mem_nil _
  | cons hxy _ ih =>
    obtain - | ⟨hyz, hq⟩ := hq
    obtain - | ⟨hzy, hr⟩ := hr
    refine List.forall_mem_cons.2 ⟨⟨_, _, List.mem_cons_self, hxy, hyz, hzy⟩, fun x hx => ?_⟩
    obtain ⟨y, z, hz, h⟩ := ih hq hr x hx
    exact ⟨y, z, List.mem_cons_of_mem _ hz, h⟩

theorem get_eq_of_mem {d : Mapping} (hd : (d.map Prod.fst).Nodup) {key : String} {v : Value}
    (h : (Key.str key, v) ∈ d) : d.get key = v := by
  rw [Mapping.get, Mapping.getD, (Dict.lookup_eq_some_iff_mem hd).2 h]
  rfl

/-- Names without blanks are written as they are. -/
theorem keys_of_clean (hname : ∀ key v a, read key v = .ok a → nameOf a = key)
    {pairs : List (Key × Value)} (hclean : ∀ key v, (Key.str key, v) ∈ table → IsClean key)
    (htext : ∀ e ∈ table, e.1.isText = true)
    (hread : List.Forall₂ (fun e a => read e.1.print e.2 = .ok a) table entries)
    (hwrite : List.Forall₂ (fun a p => writeEntry nameOf label write a = .ok p) entries pairs) :
    pairs.map Prod.fst = table.map Prod.fst := by
  induction hread generalizing pairs with
  | nil =>
    obtain - | _ := hwrite
    rfl
  | @cons e a table entries hea _ ih =>
    obtain - | ⟨hp, hwrite⟩ := hwrite
    obtain ⟨key, v⟩ := e
    obtain ⟨s, rfl⟩ : ∃ s, key = .str s := by
      cases key with
      | str s => exact ⟨s, rfl⟩
      | other r => exact absurd (htext _ List.mem_cons_self) (by simp [Key.isText])
    rw [List.map_cons, List.map_cons, (writeEntry_eq_ok.1 hp).1, hname _ _ _ hea, Key.print,
      (hclean s v List.mem_cons_self).2, ih (fun key v h => hclean key v (List.mem_cons_of_mem _ h))
        (fun e he => htext e (List.mem_cons_of_mem _ he)) hwrite]

/-- The entries that are written of a table. -/
theorem exists_written (hnull : ∀ key, same key .null .null)
    (hname : ∀ key v a, read key v = .ok a → nameOf a = key)
    (htext : ∀ e ∈ table, e.1.isText = true)
    (hread : List.Forall₂ (fun e a => read e.1.print e.2 = .ok a) table entries)
    (hall : ∀ key v, (Key.str key, v) ∈ table → IsClean key ∧ ∃ a w, read key v = .ok a ∧
      write a = .ok w ∧ read key w = .ok a ∧ same key v w) :
    ∃ pairs, List.Forall₂ (fun a p => writeEntry nameOf label write a = .ok p) entries pairs ∧
      List.Forall₂ (fun p a => read p.1.print p.2 = .ok a) pairs entries ∧
      ∀ key, same key (table.get key) (Mapping.get pairs key) := by
  induction hread with
  | nil => exact ⟨[], .nil, .nil, hnull⟩
  | @cons e a table entries hea _ ih =>
    obtain ⟨key, v⟩ := e
    obtain ⟨s, rfl⟩ : ∃ s, key = .str s := by
      cases key with
      | str s => exact ⟨s, rfl⟩
      | other r => exact absurd (htext _ List.mem_cons_self) (by simp [Key.isText])
    obtain ⟨pairs, hwrite, hback, hsame⟩ := ih (fun e he => htext e (List.mem_cons_of_mem _ he))
      fun key v h => hall key v (List.mem_cons_of_mem _ h)
    obtain ⟨hclean, a', w, ha', hw, hwa, hvw⟩ := hall s v List.mem_cons_self
    have haa : a' = a := Except.ok.inj (ha'.symm.trans hea)
    rw [haa] at hw hwa
    have hnameOf : nameOf a = s := hname _ _ _ hea
    refine ⟨(.str s, w) :: pairs, .cons (writeEntry_eq_ok.2 ⟨?_, ?_, hw⟩) hwrite, .cons hwa hback,
      fun key => ?_⟩
    · rw [hnameOf, hclean.2]
    · rw [hnameOf]
      exact hclean.strip_ne
    · simp only [Mapping.get, Mapping.getD, List.lookup_cons]
      by_cases hkey : key = s
      · subst hkey
        rw [beq_self_eq_true]
        exact hvw
      · rw [beq_false_of_ne fun h => hkey (Key.str.inj h)]
        exact hsame key

/-- A table survives just if each of its entries does, under a name without blanks around it. -/
theorem table_survives_iff (label : String) (nameOf : α → String) (write : α → Except String Value)
    (same : String → Value → Value → Prop) (hnull : ∀ key, same key .null .null)
    (hname : ∀ key v a, read key v = .ok a → nameOf a = key)
    (hnodup : (table.map Prod.fst).Nodup) (htext : ∀ e ∈ table, e.1.isText = true)
    (hentries : readTable read table = .ok entries) :
    (∃ table', writeTable (fun a => rejectEmpty (nameOf a) label) write entries = .ok table' ∧
      readTable read table' = .ok entries ∧ SameTable same table table') ↔
    ∀ key v, (Key.str key, v) ∈ table → IsClean key ∧ ∃ a w, read key v = .ok a ∧
      write a = .ok w ∧ read key w = .ok a ∧ same key v w := by
  have hread := ExceptRules.mapM_eq_ok.1 hentries
  constructor
  · rintro ⟨table', hwrite, hback, hsame⟩
    obtain ⟨pairs, hpairs, heq⟩ := ExceptRules.bind_eq_ok.1 hwrite
    have hpairs' : List.Forall₂ (fun a p => writeEntry nameOf label write a = .ok p) entries pairs :=
      ExceptRules.mapM_eq_ok.1 hpairs
    have heq' : (Dict.ofList pairs).items = table' := Except.ok.inj heq
    have hclean : ∀ key v, (Key.str key, v) ∈ table → IsClean key := by
      intro key v h
      have hkey : Key.str key ∈ table.map Prod.fst := List.mem_map_of_mem h
      rw [← hsame.keys, ← heq'] at hkey
      obtain ⟨p, hp, hpk⟩ := List.mem_map.1 (Dict.mem_keys_ofList.1 hkey)
      obtain ⟨a, -, ha⟩ := ExceptRules.forall₂_exists hpairs' hp
      obtain ⟨hp1, hne, -⟩ := writeEntry_eq_ok.1 ha
      rw [hp1, Key.str.injEq] at hpk
      exact hpk ▸ ⟨hne, Text.stripSpaces_stripSpaces _⟩
    have hkeys := keys_of_clean hname hclean htext hread hpairs'
    have htable : table' = pairs := by
      rw [← heq', Dict.items_ofList_of_nodup (hkeys ▸ hnodup)]
    subst htable
    have hback' := ExceptRules.mapM_eq_ok.1 hback
    intro key v h
    obtain ⟨a, p, hp, hva, hap, hpa⟩ := exists_of_forall₂ hread hpairs' hback' _ h
    obtain ⟨hp1, -, hw⟩ := writeEntry_eq_ok.1 hap
    have hpk : p.1 = .str key := by
      rw [hp1, hname _ _ _ hva]
      exact congrArg Key.str (hclean key v h).2
    refine ⟨hclean key v h, a, p.2, hva, hw, ?_, ?_⟩
    · rw [hpk] at hpa
      exact hpa
    · have hget := hsame.entries key
      rw [get_eq_of_mem hnodup h, get_eq_of_mem (v := p.2) (hkeys ▸ hnodup) (by rw [← hpk]; exact hp)] at hget
      exact hget
  · intro hall
    obtain ⟨pairs, hwrite, hback, hsame⟩ := exists_written hnull hname htext hread hall
    have hkeys := keys_of_clean hname (fun key v h => (hall key v h).1) htext hread hwrite
    refine ⟨pairs, ExceptRules.bind_eq_ok.2 ⟨pairs, ExceptRules.mapM_eq_ok.2 hwrite, ?_⟩,
      ExceptRules.mapM_eq_ok.2 hback, hkeys, hsame⟩
    exact congrArg Except.ok (Dict.items_ofList_of_nodup (hkeys ▸ hnodup))

end Table

/-! ## Files -/

section File

variable {R : Coercion} {file : Mapping} {data : DevicesConfigData}

theorem mapping_eq_ok {name : String} {d : Mapping} (h : mapping file name = .ok d) :
    d = part file name ∧ (file.get name).orEmpty = .dict d := by
  unfold mapping at h
  split at h
  · rename_i d' heq
    cases h
    exact ⟨by rw [part, heq]; rfl, heq⟩
  · cases h

/-- What is read of a file. -/
theorem parseDevicesConfig_eq_ok : parseDevicesConfig R file = .ok data ↔
    (∃ vendors icons kinds, mapping file "vendors" = .ok vendors ∧ mapping file "icons" = .ok icons ∧
      mapping file "kinds" = .ok kinds ∧
      readTable (fun id value => vendorFromMapping id value.orEmpty) vendors = .ok data.vendors ∧
      readTable iconEntry icons = .ok data.icons ∧
      readTable (fun kind value => kindFromMapping R kind value.orEmpty) kinds = .ok data.kinds) ∧
    mapping file "defaults" = .ok data.defaults ∧ data.metadata = without parts file ∧
    validateDevicesModel data = .ok () := by
  simp only [parseDevicesConfig, ExceptRules.bind_eq_ok, ExceptRules.pure_eq_ok]
  constructor
  · rintro ⟨vs, hvs, is, his, ks, hks, ds, hds, vendors, hv, icons, hi, kinds, hk, u, hvalid, rfl⟩
    exact ⟨⟨vs, is, ks, hvs, his, hks, hv, hi, hk⟩, hds, rfl, hvalid⟩
  · rintro ⟨⟨vs, is, ks, hvs, his, hks, hv, hi, hk⟩, hds, hmeta, hvalid⟩
    obtain ⟨defaults, vendors, icons, kinds, metadata⟩ := data
    obtain rfl : metadata = without parts file := hmeta
    exact ⟨vs, hvs, is, his, ks, hks, defaults, hds, vendors, hv, icons, hi, kinds, hk, (), hvalid,
      rfl⟩

/-- The file that is written of some tables. -/
def DevicesConfigData.written (data : DevicesConfigData) (vendors icons kinds : Mapping) : Mapping :=
  data.metadata ++ present [("defaults", some (.dict data.defaults)), ("vendors", some (.dict vendors)),
    ("icons", some (.dict icons)), ("kinds", some (.dict kinds))]

theorem serializeDevicesConfig_eq_ok (hmeta : data.metadata = without parts file)
    (hvalid : validateDevicesModel data = .ok ()) {file' : Mapping} :
    serializeDevicesConfig data = .ok file' ↔ ∃ vendors icons kinds,
      writeTable (fun v => rejectEmpty v.id "vendor id") vendorToMapping data.vendors = .ok vendors ∧
      writeTable (fun i => rejectEmpty i.type "icon type")
        (fun i => (rejectEmpty i.path (i.type ++ ".path")).map .str) data.icons = .ok icons ∧
      writeTable (fun k => rejectEmpty k.kind "kind") kindToMapping data.kinds = .ok kinds ∧
      file' = data.written vendors icons kinds := by
  have hnew : ∀ name ∈ parts, Key.str name ∉ data.metadata.map Prod.fst := by
    intro name hname hmem
    rw [hmeta] at hmem
    obtain ⟨e, he, hkey⟩ := List.mem_map.1 hmem
    exact (mem_without.1 he).2 (hkey ▸ List.mem_map_of_mem hname)
  have hset : ∀ a b c d : Value, (((data.metadata.set "defaults" a).set "vendors" b).set "icons" c).set
      "kinds" d = data.metadata ++ present [("defaults", some a), ("vendors", some b),
        ("icons", some c), ("kinds", some d)] := by
    intro a b c d
    rw [set_present (hnew "defaults" (by decide)), set_append_present (hnew "vendors" (by decide)) (by simp),
      set_append_present (hnew "icons" (by decide)) (by simp),
      set_append_present (hnew "kinds" (by decide)) (by simp)]
    rfl
  simp only [serializeDevicesConfig, ExceptRules.bind_eq_ok, ExceptRules.pure_eq_ok, hset]
  constructor
  · rintro ⟨-, -, vendors, hv, icons, hi, kinds, hk, rfl⟩
    exact ⟨vendors, icons, kinds, hv, hi, hk, rfl⟩
  · rintro ⟨vendors, icons, kinds, hv, hi, hk, rfl⟩
    exact ⟨(), hvalid, vendors, hv, icons, hi, kinds, hk, rfl⟩

section Written

variable {vendors icons kinds : Mapping}

theorem get_written_part (hmeta : data.metadata = without parts file) {name : String}
    (hname : name ∈ parts) : (data.written vendors icons kinds).get name =
      ((List.lookup name [("defaults", some (Value.dict data.defaults)),
        ("vendors", some (.dict vendors)), ("icons", some (.dict icons)),
        ("kinds", some (.dict kinds))]).join).getD .null := by
  have hnone : data.metadata.lookup (.str name) = none := by
    refine Dict.lookup_eq_none fun hmem => ?_
    obtain ⟨e, he, hkey⟩ := List.mem_map.1 hmem
    rw [hmeta] at he
    exact (mem_without.1 he).2 (hkey ▸ List.mem_map_of_mem hname)
  rw [Mapping.get, Mapping.getD, DevicesConfigData.written, List.lookup_append, hnone, Option.none_or,
    lookup_present (by simp)]

theorem part_written (vendors icons kinds : Mapping) (hmeta : data.metadata = without parts file) :
    part (data.written vendors icons kinds) "defaults" = data.defaults ∧
      part (data.written vendors icons kinds) "vendors" = vendors ∧
      part (data.written vendors icons kinds) "icons" = icons ∧
      part (data.written vendors icons kinds) "kinds" = kinds := by
  refine ⟨?_, ?_, ?_, ?_⟩ <;>
    · rw [part, get_written_part hmeta (by decide)]
      show (Value.dict _).orEmpty.fields = _
      rw [Value.orEmpty_dict]
      rfl

theorem get_written_other (hmeta : data.metadata = without parts file) {name : String}
    (hname : name ∉ parts) : (data.written vendors icons kinds).get name = file.get name := by
  have hnone : (present [("defaults", some (Value.dict data.defaults)), ("vendors", some (.dict vendors)),
      ("icons", some (.dict icons)), ("kinds", some (.dict kinds))]).lookup (.str name) = none := by
    refine Dict.lookup_eq_none fun hmem => ?_
    simp only [present, List.filterMap_cons, Option.map_some, List.filterMap_nil, List.map_cons,
      List.map_nil, List.mem_cons, Key.str.injEq, List.not_mem_nil, or_false] at hmem
    exact hname (by simpa [parts] using hmem)
  rw [Mapping.get, Mapping.getD, DevicesConfigData.written, List.lookup_append, hnone, Option.or_none,
    hmeta, lookup_without hname]
  rfl

/-- What is read of the file that is written of some tables. -/
theorem parse_written_iff (hmeta : data.metadata = without parts file)
    (hvalid : validateDevicesModel data = .ok ()) :
    parseDevicesConfig R (data.written vendors icons kinds) = .ok data ↔
      readTable (fun id value => vendorFromMapping id value.orEmpty) vendors = .ok data.vendors ∧
      readTable iconEntry icons = .ok data.icons ∧
      readTable (fun kind value => kindFromMapping R kind value.orEmpty) kinds = .ok data.kinds := by
  have hpart : ∀ name d, (data.written vendors icons kinds).get name = .dict d →
      mapping (data.written vendors icons kinds) name = .ok d := by
    intro name d hget
    rw [mapping, hget, Value.orEmpty_dict]
  have hv := hpart "vendors" vendors (get_written_part hmeta (by decide))
  have hi := hpart "icons" icons (get_written_part hmeta (by decide))
  have hk := hpart "kinds" kinds (get_written_part hmeta (by decide))
  have hd := hpart "defaults" data.defaults (get_written_part hmeta (by decide))
  have hmeta' : data.metadata = without parts (data.written vendors icons kinds) := by
    have hkept : without parts data.metadata = data.metadata := by
      rw [hmeta, without, without, List.filter_filter]
      simp
    have hdropped : without parts (present [("defaults", some (Value.dict data.defaults)),
        ("vendors", some (.dict vendors)), ("icons", some (.dict icons)),
        ("kinds", some (.dict kinds))]) = [] := by
      simp [without, present, parts]
    rw [DevicesConfigData.written, without, List.filter_append, ← without, ← without, hkept, hdropped,
      List.append_nil]
  rw [parseDevicesConfig_eq_ok]
  constructor
  · rintro ⟨⟨vs, is, ks, hvs, his, hks, h⟩, -⟩
    rw [hv] at hvs
    rw [hi] at his
    rw [hk] at hks
    cases hvs
    cases his
    cases hks
    exact h
  · intro h
    exact ⟨⟨vendors, icons, kinds, hv, hi, hk, h⟩, hd, hmeta', hvalid⟩

end Written

theorem vendorEntry_of_orEmpty {vendor : String} {v : Value} {a : VendorEntry}
    (h : vendorFromMapping vendor v.orEmpty = .ok a) : vendorEntry vendor v.fields = .ok a := by
  unfold vendorFromMapping at h
  split at h
  · rename_i d heq
    rw [Value.fields_of_orEmpty heq]
    exact h
  · cases h

theorem kindEntry_of_orEmpty {kind : String} {v : Value} {a : DeviceKindEntry}
    (h : kindFromMapping R kind v.orEmpty = .ok a) : kindEntry R kind v.fields = .ok a := by
  unfold kindFromMapping at h
  split at h
  · rename_i d heq
    rw [Value.fields_of_orEmpty heq]
    exact h
  · cases h

theorem nodup_fields {v : Value} (h : v.isJson = true) : (v.fields.map Prod.fst).Nodup := by
  cases v with
  | dict d => exact (Value.isJson_dict.1 h).1
  | _ => exact List.nodup_nil

/-- The parts of a file of JSON. -/
theorem part_of_isJson (hfile : (Value.dict file).isJson = true) (name : String) :
    ((part file name).map Prod.fst).Nodup ∧
      ∀ e ∈ part file name, e.1.isText = true ∧ (e.2.fields.map Prod.fst).Nodup := by
  have hget : (file.get name).isJson = true := by
    rw [Mapping.get, Mapping.getD]
    cases hl : file.lookup (.str name) with
    | none => rfl
    | some v =>
      obtain ⟨hnodup, hall⟩ := Value.isJson_dict.1 hfile
      exact (hall _ ((Dict.lookup_eq_some_iff_mem hnodup).1 hl)).2
  have horEmpty : (file.get name).orEmpty.isJson = true := by
    unfold Value.orEmpty
    split
    · exact hget
    · rfl
  rw [part]
  generalize (file.get name).orEmpty = v at horEmpty
  cases v with
  | dict d =>
    obtain ⟨hnodup, hall⟩ := Value.isJson_dict.1 horEmpty
    exact ⟨hnodup, fun e he => ⟨(hall e he).1, nodup_fields (hall e he).2⟩⟩
  | _ => exact ⟨List.nodup_nil, List.forall_mem_nil _⟩

/-- The colours of vendors that were checked are colours. -/
theorem color_of_vendorIds {vendors : List VendorEntry} {ids ids' : List String}
    (h : vendors.foldlM (fun ids vendor =>
      if vendor.id ∈ ids then .error ("duplicate vendor: " ++ vendor.id)
      else do
        let _ ← validateColor vendor.color vendor.id
        pure (vendor.id :: ids)) ids = .ok ids') :
    ∀ v ∈ vendors, ∃ c, validateColor v.color v.id = .ok c := by
  induction vendors generalizing ids with
  | nil => exact List.forall_mem_nil _
  | cons v vendors ih =>
    rw [List.foldlM_cons] at h
    obtain ⟨ids₁, hv, h⟩ := ExceptRules.bind_eq_ok.1 h
    split at hv
    · cases hv
    · obtain ⟨c, hc, -⟩ := ExceptRules.bind_eq_ok.1 hv
      exact List.forall_mem_cons.2 ⟨⟨c, hc⟩, ih h⟩

theorem icon_survives_iff {type : String} {v : Value} {i : IconEntry} (h : iconEntry type v = .ok i) :
    (∃ w, (rejectEmpty i.path (i.type ++ ".path")).map Value.str = .ok w ∧ iconEntry type w = .ok i ∧
      SameIcon v w) ↔ CanonicalIcon v := by
  obtain ⟨rfl, hvalid⟩ := validated_eq_ok.1 h
  constructor
  · rintro ⟨w, hw, hread, hsame⟩
    obtain ⟨path, hpath, rfl⟩ := ExceptRules.map_eq_ok.1 hw
    have hclean := isClean_of_rejectEmpty hpath
    have hshown := hsame.shown
    rw [iconShown, iconShown, orShown_str hclean.1, orShown] at hshown
    split at hshown
    · exact ⟨path, hshown.symm, hclean⟩
    · exact absurd (Value.str.inj hshown) hclean.1
  · rintro ⟨path, rfl, hclean⟩
    exact ⟨.str path, ExceptRules.map_eq_ok.2 ⟨_, hclean.rejectEmpty _, rfl⟩, h, rfl, rfl⟩

theorem exists_read {α : Type} {read : String → Value → Except String α} {table : Mapping}
    {entries : List α} (h : readTable read table = .ok entries) {key : String} {v : Value}
    (hmem : (Key.str key, v) ∈ table) : ∃ a ∈ entries, read key v = .ok a :=
  ExceptRules.forall₂_exists' (ExceptRules.mapM_eq_ok.1 h) hmem

/-- What is read of a catalogue is written as a file that is read as the same data and means the
    same to all who read it, just if the file is as the editor writes it. -/
theorem survives_iff (hfile : (Value.dict file).isJson = true)
    (h : parseDevicesConfig R file = .ok data) : Survives R file data ↔ Canonical file := by
  obtain ⟨⟨vs, is, ks, hvs, his, hks, hvendors, hicons, hkinds⟩, hdefaults, hmeta, hvalid⟩ :=
    parseDevicesConfig_eq_ok.1 h
  obtain ⟨rfl, -⟩ := mapping_eq_ok hvs
  obtain ⟨rfl, -⟩ := mapping_eq_ok his
  obtain ⟨rfl, -⟩ := mapping_eq_ok hks
  obtain ⟨hdefaults, -⟩ := mapping_eq_ok hdefaults
  have hcolors : ∀ v ∈ data.vendors, ∃ c, validateColor v.color v.id = .ok c := by
    obtain ⟨ids, hids, -⟩ := ExceptRules.bind_eq_ok.1 hvalid
    exact color_of_vendorIds hids
  obtain ⟨hvNodup, hvText⟩ := part_of_isJson hfile "vendors"
  obtain ⟨hiNodup, hiText⟩ := part_of_isJson hfile "icons"
  obtain ⟨hkNodup, hkText⟩ := part_of_isJson hfile "kinds"
  have hvTable := table_survives_iff "vendor id" VendorEntry.id vendorToMapping
    (fun vendor v w => SameVendor vendor v.fields w.fields)
    (fun _ => ⟨Iff.rfl, rfl, rfl, rfl, fun _ _ => rfl⟩)
    (fun key v a ha => congrArg VendorEntry.id (validated_eq_ok.1 (vendorEntry_of_orEmpty ha)).1)
    hvNodup (fun e he => (hvText e he).1) hvendors
  have hiTable := table_survives_iff "icon type" IconEntry.type
    (fun i => (rejectEmpty i.path (i.type ++ ".path")).map .str)
    (fun _ v w => SameIcon v w) (fun _ => ⟨rfl, rfl⟩)
    (fun key v a ha => congrArg IconEntry.type (validated_eq_ok.1 ha).1) hiNodup
    (fun e he => (hiText e he).1) hicons
  have hkTable := table_survives_iff "kind" DeviceKindEntry.kind kindToMapping
    (fun kind v w => SameKind (part file "defaults") kind v.fields w.fields)
    (fun _ => ⟨Iff.rfl, rfl, rfl, rfl, rfl, rfl, rfl, rfl, rfl, rfl, rfl, fun _ _ => rfl⟩)
    (fun key v a ha => by
      obtain ⟨-, -, -, -, -, hk⟩ := kindEntry_eq_ok (kindEntry_of_orEmpty ha)
      exact congrArg DeviceKindEntry.kind hk)
    hkNodup (fun e he => (hkText e he).1) hkinds
  constructor
  · rintro ⟨file', hwrite, hread, hsame⟩
    obtain ⟨tv, ti, tk, hv, hi, hk, rfl⟩ := (serializeDevicesConfig_eq_ok hmeta hvalid).1 hwrite
    obtain ⟨hv', hi', hk'⟩ := (parse_written_iff hmeta hvalid).1 hread
    obtain ⟨-, hpv, hpi, hpk⟩ := part_written tv ti tk hmeta
    have hsv := hsame.vendors
    have hsi := hsame.icons
    have hsk := hsame.kinds
    rw [hpv] at hsv
    rw [hpi] at hsi
    rw [hpk] at hsk
    refine ⟨fun vendor v hmem => ?_, fun type v hmem => ?_, fun kind v hmem => ?_⟩
    · obtain ⟨hclean, a, w, ha, hkept⟩ := hvTable.1 ⟨tv, hv, hv', hsv⟩ vendor v hmem
      obtain ⟨b, hb, hread⟩ := exists_read hvendors hmem
      have hab : b = a := Except.ok.inj (hread.symm.trans ha)
      exact ⟨hclean, (vendor_survives_iff (hvText _ hmem).2 hclean (vendorEntry_of_orEmpty ha)
        (hcolors a (hab ▸ hb))).1 ⟨w, hkept⟩⟩
    · obtain ⟨hclean, a, w, ha, hkept⟩ := hiTable.1 ⟨ti, hi, hi', hsi⟩ type v hmem
      exact ⟨hclean, (icon_survives_iff ha).1 ⟨w, hkept⟩⟩
    · obtain ⟨hclean, a, w, ha, hkept⟩ := hkTable.1 ⟨tk, hk, hk', hsk⟩ kind v hmem
      exact ⟨hclean, (kind_survives_iff (hkText _ hmem).2 hclean (kindEntry_of_orEmpty ha)).1
        ⟨w, hkept⟩⟩
  · intro hcanon
    obtain ⟨tv, hv, hv', hsv⟩ := hvTable.2 fun vendor v hmem => by
      obtain ⟨hclean, hcanon⟩ := hcanon.vendors vendor v hmem
      obtain ⟨a, ha, hread⟩ := exists_read hvendors hmem
      obtain ⟨w, hkept⟩ := (vendor_survives_iff (hvText _ hmem).2 hclean (vendorEntry_of_orEmpty hread)
        (hcolors a ha)).2 hcanon
      exact ⟨hclean, a, w, hread, hkept⟩
    obtain ⟨ti, hi, hi', hsi⟩ := hiTable.2 fun type v hmem => by
      obtain ⟨hclean, hcanon⟩ := hcanon.icons type v hmem
      obtain ⟨a, ha, hread⟩ := exists_read hicons hmem
      obtain ⟨w, hkept⟩ := (icon_survives_iff hread).2 hcanon
      exact ⟨hclean, a, w, hread, hkept⟩
    obtain ⟨tk, hk, hk', hsk⟩ := hkTable.2 fun kind v hmem => by
      obtain ⟨hclean, hcanon⟩ := hcanon.kinds kind v hmem
      obtain ⟨a, ha, hread⟩ := exists_read hkinds hmem
      obtain ⟨w, hkept⟩ := (kind_survives_iff (hkText _ hmem).2 hclean
        (kindEntry_of_orEmpty hread)).2 hcanon
      exact ⟨hclean, a, w, hread, hkept⟩
    obtain ⟨hpd, hpv, hpi, hpk⟩ := part_written tv ti tk hmeta
    refine ⟨data.written tv ti tk, (serializeDevicesConfig_eq_ok hmeta hvalid).2
      ⟨tv, ti, tk, hv, hi, hk, rfl⟩, (parse_written_iff hmeta hvalid).2 ⟨hv', hi', hk'⟩, {
        defaults := hpd.trans hdefaults
        metadata := fun name hname => get_written_other hmeta hname
        vendors := by
          rw [hpv]
          exact hsv
        icons := by
          rw [hpi]
          exact hsi
        kinds := by
          rw [hpk]
          exact hsk }⟩

end File

/-! ### A bridge, with or without a management interface -/

/-- A library that takes only numbers for numbers. -/
def strict : Coercion where
  toInt v := match v with
    | .int n => some n
    | _ => none
  toInt_int _ := rfl

/-- A catalogue of one kind, with some more fields. -/
def bridgeFile (more : List (String × Value)) : Mapping :=
  .ofFields [
    ("defaults", .dict (Mapping.ofFields [("mgmt_iface", .str "eth0")])),
    ("vendors", .dict (Mapping.ofFields [("linux", .dict (Mapping.ofFields
      [("title", .str "Linux"), ("color", .str "#4a4a4a")]))])),
    ("kinds", .dict (Mapping.ofFields [("bridge", .dict (Mapping.ofFields
      ([("label", .str "Bridge"), ("vendor", .str "linux"), ("type", .str "switch")] ++ more)))]))]

theorem survives_bridgeFile : ∃ data, parseDevicesConfig strict (bridgeFile []) = .ok data ∧
    Survives strict (bridgeFile []) data := by
  obtain ⟨data, hdata⟩ := ExceptRules.exists_of_isSome
    (show (parseDevicesConfig strict (bridgeFile [])).toOption.isSome = true by decide +kernel)
  refine ⟨data, hdata, (survives_iff (by decide +kernel) hdata).2 ⟨?_, ?_, ?_⟩⟩
  · intro vendor v h
    obtain ⟨hkey, rfl⟩ := Prod.mk.inj (List.mem_singleton.1 h)
    obtain rfl := Key.str.inj hkey
    refine ⟨by decide, by simp [Value.fields, Mapping.ofFields], .inr ⟨"Linux", rfl, by decide⟩,
      .inr ⟨"#4a4a4a", rfl, by decide⟩, fun e he hnull => ?_⟩
    obtain rfl | rfl := List.mem_pair.1 he <;> cases hnull
  · intro type v h
    cases h
  · intro kind v h
    obtain ⟨hkey, rfl⟩ := Prod.mk.inj (List.mem_singleton.1 h)
    obtain rfl := Key.str.inj hkey
    refine ⟨by decide, by simp [Value.fields, Mapping.ofFields], .inr ⟨"Bridge", rfl, by decide⟩,
      .inr ⟨"linux", rfl, by decide⟩, .inr ⟨"switch", rfl, by decide⟩, .inl rfl,
      List.forall_mem_nil _,
      fun v hv => (by cases hv), fun l hl => (by cases hl), fun e he hnull => ?_⟩
    have he' : e ∈ [(Key.str "label", Value.str "Bridge"), (.str "vendor", .str "linux"),
      (.str "type", .str "switch")] := he
    simp only [List.mem_cons, List.not_mem_nil, or_false] at he'
    obtain rfl | rfl | rfl := he' <;> cases hnull

/-- A bridge that has no management interface is written as one that has the default. -/
theorem not_survives_bridgeFile : ¬∀ (R : Coercion) (file : Mapping) (data : DevicesConfigData),
    (Value.dict file).isJson = true → parseDevicesConfig R file = .ok data → Survives R file data := by
  intro hall
  have hrun : (parseDevicesConfig strict (bridgeFile [("mgmt_iface", .null)]) >>= fun data =>
      serializeDevicesConfig data >>= fun file' => pure (mgmtIfaceOf
        (part (bridgeFile [("mgmt_iface", .null)]) "defaults")
        ((part file' "kinds").get "bridge").fields)).toOption = some "eth0" := by decide +kernel
  obtain ⟨data, hdata⟩ := ExceptRules.exists_of_isSome
    (show (parseDevicesConfig strict (bridgeFile [("mgmt_iface", .null)])).toOption.isSome = true by
      decide +kernel)
  obtain ⟨file', hwrite, -, hsame⟩ := hall strict _ data (by decide +kernel) hdata
  rw [hdata] at hrun
  have hrun' : (serializeDevicesConfig data >>= fun file' => pure (mgmtIfaceOf
      (part (bridgeFile [("mgmt_iface", .null)]) "defaults")
      ((part file' "kinds").get "bridge").fields)).toOption = some "eth0" := hrun
  rw [hwrite] at hrun'
  have hread := (hsame.kinds.entries "bridge").mgmtIface
  have hraw : mgmtIfaceOf (part (bridgeFile [("mgmt_iface", .null)]) "defaults")
      ((part (bridgeFile [("mgmt_iface", .null)]) "kinds").get "bridge").fields = "" := by
    decide +kernel
  rw [hraw, Option.some.inj hrun'] at hread
  exact absurd hread (by decide)

end Dnlab.DevicesParser
