import Dnlab.Lib.Record

/-!
# The device catalogue

What the services of the GUI read in `devices.json`, after `device_catalog.py`,
the reader of the management interface of `capture_service.py`, and
`device_catalog.js`. The file is read as it stands: each reader has its own
defaults for what an entry lacks.

The parts of the catalogue that are looked up by a key (the kinds, the vendors,
the icons, the defaults) are objects.
-/

namespace Dnlab.DeviceCatalog

/-- `catalog.get(name) or \x7b\x7d`. -/
def part (catalog : Mapping) (name : String) : Mapping := (catalog.get name).orEmpty.fields

/-- `kind_entry`. -/
def kindEntry (catalog : Mapping) (kind : String) : Mapping :=
  ((part catalog "kinds").get kind).fields

section Readers

variable (defaults : Mapping) (kind : String) (entry : Mapping)

/-! ## What is read of the entry of a kind -/

/-- The kind that is deployed. -/
def deployKindOf : String := (entry.get "deploy_kind").orText kind

/-- The vendor. -/
def vendorOf : String := (entry.get "vendor").orText ((defaults.get "vendor").orText "generic")

/-- The type. -/
def typeOf : String := (entry.get "type").orText ((defaults.get "type").orText "router")

/-- The fragments by which an image is recognised. -/
def imagePatternsOf : List String :=
  match entry.get "image_patterns" with
  | .list l => l.map fun pattern => Text.lower pattern.print
  | .str s => if s = "" then [] else [Text.lower s]
  | _ => []

/-- The management interface, as the entry names it; of a device that has none, the empty text. -/
def mgmtIfaceOf : String :=
  (if entry.has "mgmt_iface" then entry.get "mgmt_iface"
    else defaults.getD "mgmt_iface" (.str "eth0")).orText ""

/-- `Boolean(v)`, in the browser. -/
def shown : Value → Bool
  | .list _ | .dict _ => true
  | v => v.truthy

/-- `v || w`, in the browser. -/
def orShown (v w : Value) : Value := if shown v then v else w

/-- The vendor, in the browser. -/
def vendorShown : Value := orShown (entry.get "vendor") (defaults.getD "vendor" (.str "generic"))

/-- The type, in the browser. -/
def typeShown : Value := orShown (entry.get "type") (defaults.getD "type" (.str "router"))

/-- The management interface that the browser shows for one that an entry names, if it names one:
    `null` of a device that has none. -/
def mgmtShown (mgmt : Option Value) : Value :=
  if kind = "_real_net" ∨ kind = "_mgmt" then .null
  else mgmt.getD (orShown (defaults.get "mgmt_iface") (.str "eth0"))

/-- The management interface, in the browser. -/
def mgmtIfaceShown : Value := mgmtShown defaults kind (entry.lookup (.str "mgmt_iface"))

/-- The label. -/
def labelOf : Value := orShown (entry.get "label") (.str kind)

/-- The fields of an entry of the web interfaces. -/
def webuiFields : List String := ["scheme", "port", "path", "label"]

/-- A web interface, with the defaults of the browser and whatever else its entry has. -/
def webuiItemOf (item : Mapping) : Mapping :=
  let scheme := orShown (item.get "scheme") (.str "https")
  let port := item.get "port"
  .ofFields [("scheme", scheme), ("port", port), ("path", orShown (item.get "path") (.str "/")),
    ("label", orShown (item.get "label") (.str (scheme.print ++ ":" ++ port.print)))] ++
    item.filter fun e => e.1 ∉ webuiFields.map Key.str

/-- The web interfaces. -/
def webuiOf : List Mapping :=
  match entry.get "webui" with
  | .list l => l.map fun item => webuiItemOf item.fields
  | _ => []

/-! ## What is read of the entry of a vendor -/

/-- The title of a vendor. -/
def titleOf (vendor : String) : Value := orShown (entry.get "title") (.str vendor)

/-- The colour of a vendor. -/
def colorOf : String := (entry.get "color").orText "#888888"

/-- The colour of a vendor, in the browser. -/
def colorShown : Value := orShown (entry.get "color") (.str "#888888")

/-- The path of an icon, in the browser. -/
def iconShown (path : Value) : Value := orShown path (.str "")

end Readers

section Catalog

variable (catalog : Mapping)

/-! ## Kinds -/

/-- `deploy_kind`. -/
def deployKind (kind : String) : String := deployKindOf kind (kindEntry catalog kind)

/-- `default_env`. -/
def defaultEnv (kind : String) : Mapping :=
  (Dict.ofList (((kindEntry catalog kind).get "env").fields.filterMap fun e =>
    if e.2.isNull then none else some (Key.str e.1.print, Value.str e.2.print))).items

/-- `resource_schema`. -/
def resourceSchema (kind : String) : Mapping := ((kindEntry catalog kind).get "resources").fields

/-- `kind_vendor`. -/
def kindVendor (kind : String) : String := vendorOf (part catalog "defaults") (kindEntry catalog kind)

/-- `kind_type`. -/
def kindType (kind : String) : String := typeOf (part catalog "defaults") (kindEntry catalog kind)

/-- `has_deploy_kind_alias`. -/
def hasDeployKindAlias (kind : String) : Bool :=
  kind ≠ "" && deployKind catalog kind ≠ "" && deployKind catalog kind ≠ kind

/-! ## Vendors and icons -/

/-- The entry that a vendor has, or else the default vendor. -/
def vendorEntry (vendor : String) : Mapping :=
  let vendors := part catalog "vendors"
  let entry := vendors.get vendor
  if entry.truthy then entry.fields
  else (vendors.get (((part catalog "defaults").get "vendor").orText "generic")).fields

/-- `vendor_color`. -/
def vendorColor (vendor : String) : String := colorOf (vendorEntry catalog vendor)

/-- `icon_path`. -/
def iconPath (iconType : String) : String :=
  let icons := part catalog "icons"
  (icons.get iconType).orText
    ((icons.get (((part catalog "defaults").get "type").orText "router")).orText "")

/-! ## Images -/

/-- `resolve_image_kind`: the first kind that has a pattern which the last two parts of the
    repository contain. -/
def resolveImageKind (repository : String) : Option String :=
  let parts := Text.split '/' (Text.lower repository)
  let base := parts.getLastD ""
  let fullBase := Text.join "/" (parts.drop (parts.length - 2))
  (part catalog "kinds").findSome? fun e =>
    if (imagePatternsOf e.2.fields).any fun fragment =>
        fragment ≠ "" && (Text.contains fullBase fragment || Text.contains base fragment) then
      some e.1.print
    else none

/-- The first kind that names another one to be deployed. -/
def aliasOf (deployKind : String) : Option String :=
  (part catalog "kinds").findSome? fun e =>
    let named := e.2.fields.get "deploy_kind"
    if named.truthy ∧ named.print = deployKind then some e.1.print else none

/-- `gui_kind_for_deploy_kind`. -/
def guiKindForDeployKind (deployKind image : String) : Option String :=
  let other :=
    if kindEntry catalog deployKind ≠ [] then none else aliasOf catalog deployKind
  match if image = "" then none else resolveImageKind catalog image with
  | some matched =>
    if deployKindOf matched (kindEntry catalog matched) = deployKind then some matched else other
  | none => other

/-! ## Features of a node -/

/-- `node_features_for_kind`. -/
def nodeFeaturesForKind (kind : String) : Mapping :=
  let features := (catalog.get "node_features").fields
  let enabled :=
    match ((kindEntry catalog kind).get "node_features") with
    | .list l => l
    | .str s => if s = "" then [] else [.str s]
    | _ => []
  (Dict.ofList (enabled.filterMap fun key =>
    match features.get key.print with
    | .dict cfg => some (Key.str key.print, Value.dict cfg)
    | _ => none)).items

/-- The keys that the items of a feature allow. -/
def allowedKeys (cfg : Mapping) : List String :=
  match cfg.get "ui" with
  | .dict ui =>
    match Mapping.get ui "type", Mapping.get ui "items" with
    | .str "checkbox-list", .list items =>
      items.filterMap fun item =>
        if (item.fields.get "key").isNull then none else some (item.fields.get "key").print
    | _, _ => []
  | _ => []

/-- What is kept of the state of a feature. -/
def cleanFeature (cfg : Mapping) (state : Value) : Mapping :=
  (Dict.ofList (state.fields.filterMap fun e =>
    if e.1.print ∈ allowedKeys cfg then some (Key.str e.1.print, Value.bool e.2.truthy)
    else none)).items

/-- `clean_node_features_state`. -/
def cleanNodeFeaturesState (kind : String) (state : Value) : Mapping :=
  (Dict.ofList (state.fields.filterMap fun e =>
    match cleanFeature ((nodeFeaturesForKind catalog kind).get e.1.print).fields e.2 with
    | [] => none
    | kept => some (Key.str e.1.print, Value.dict kept))).items

/-- `node_features_sidecar_for_kind`. -/
def nodeFeaturesSidecarForKind (kind : String) (state : Value) : Mapping :=
  (cleanNodeFeaturesState catalog kind state).map fun e =>
    (e.1, .dict (Mapping.ofFields ([("state", e.2)] ++
      match ((nodeFeaturesForKind catalog kind).get e.1.print).fields.get "materialize" with
      | .dict materialize => [("materialize", .dict materialize)]
      | _ => [])))

/-! ## Management interfaces -/

/-- `_norm_iface`. -/
def normIface (value : String) : String :=
  Text.keep (fun c => c.isDigit || c.isLower) (Text.lower value)

/-- `s.replace(p, r)`, on characters; `skip` of them belong to an occurrence already. -/
def replaceChars (p r : List Char) : (skip : ℕ) → List Char → List Char
  | _, [] => []
  | skip + 1, _ :: l => replaceChars p r skip l
  | 0, c :: l =>
    if p.isPrefixOf (c :: l) then r ++ replaceChars p r (p.length - 1) l
    else c :: replaceChars p r 0 l

/-- `_fmt_iface`. -/
def fmtIface (fmt : String) (n i : ℕ) : String :=
  .ofList (replaceChars ['\x7b', 'i', '\x7d'] (toString i).toList 0
    (replaceChars ['\x7b', 'n', '\x7d'] (toString n).toList 0 fmt.toList))

/-- The interface of the container that is the interface `mgmt` of the device. -/
def linuxIface (interfaces : Mapping) (mgmt : String) : Except String String := do
  let linuxFmt := (interfaces.get "linux_fmt").orText "eth\x7bn\x7d"
  let vendorFmt := (interfaces.get "vendor_fmt").orText linuxFmt
  let count ←
    if (interfaces.get "count").truthy then
      match (interfaces.get "count").toInt? with
      | some n => .ok n.toNat
      | none => .error "ValueError: invalid literal for int() with base 10"
    else .ok 8
  let found := (List.range count).find? fun i =>
    normIface (fmtIface linuxFmt (i + 1) i) = normIface mgmt ∨
      normIface (fmtIface vendorFmt (i + 1) i) = normIface mgmt
  pure ((found.map fun i => fmtIface linuxFmt (i + 1) i).getD mgmt)

/-- `_mgmt_linux_iface_for_kind`. -/
def mgmtLinuxIfaceForKind (kind : String) : Except String String :=
  let entry := kindEntry catalog kind
  let mgmt := mgmtIfaceOf (part catalog "defaults") entry
  if mgmt = "" then .ok ""
  else
    match entry.get "interfaces" with
    | .dict interfaces => linuxIface interfaces mgmt
    | _ => .ok mgmt

end Catalog

end Dnlab.DeviceCatalog
