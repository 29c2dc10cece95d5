import Dnlab.Gui.DeviceCatalog

/-!
# The editor of the device catalogue

How the administration page reads `devices.json` and writes it back, after
`devices_parser.py`. A file is here the object that its text stands for.

What checks the fields of an entry (their types and the bounds on their length)
is the validation library; it takes a number for a port from more than numbers,
which is a parameter (`Coercion`).
-/

namespace Dnlab.DevicesParser

open DeviceCatalog (webuiFields)

/-- What the validation library takes for a number: a number, and what else it converts. -/
structure Coercion where
  toInt : Value → Option ℤ
  toInt_int : ∀ n, toInt (.int n) = some n

/-! ## Entries -/

/-- Whether the length of a text is within bounds. -/
def bounded (least most : ℕ) (s : String) : Bool :=
  decide (least ≤ s.length) && decide (s.length ≤ most)

/-- A model, if its fields are valid. -/
def validated {α : Type} (valid : α → Bool) (a : α) : Except String α :=
  if valid a then .ok a else .error "ValidationError"

/-- `VendorEntry`. -/
structure VendorEntry where
  id : String
  title : String
  color : String
  extra : Mapping

/-- The bounds on the fields of a vendor. -/
def VendorEntry.valid (v : VendorEntry) : Bool :=
  bounded 1 128 v.id && bounded 1 128 v.title && bounded 0 16 v.color

/-- `IconEntry`. -/
structure IconEntry where
  type : String
  path : String

/-- The bounds on the fields of an icon. -/
def IconEntry.valid (i : IconEntry) : Bool := bounded 1 128 i.type && bounded 1 4096 i.path

/-- `WebuiEntry`. -/
structure WebuiEntry where
  scheme : String
  port : ℤ
  path : String
  label : String

/-- The bounds on the fields of a web interface. -/
def WebuiEntry.valid (w : WebuiEntry) : Bool :=
  ["http", "https"].contains w.scheme && decide (1 ≤ w.port ∧ w.port ≤ 65535) &&
    bounded 0 512 w.path && bounded 0 128 w.label

/-- `DeviceKindEntry`. -/
structure DeviceKindEntry where
  kind : String
  label : String
  vendor : String
  type : String
  deployKind : Option String
  imagePatterns : List String
  mgmtIface : Option String
  webui : List WebuiEntry
  extra : Mapping

/-- The bounds on the fields of a kind. -/
def DeviceKindEntry.valid (k : DeviceKindEntry) : Bool :=
  bounded 1 128 k.kind && bounded 1 128 k.label && bounded 1 128 k.vendor && bounded 1 128 k.type &&
    k.deployKind.all (bounded 0 128) && k.mgmtIface.all (bounded 0 256)

/-- `DevicesConfigData`. -/
structure DevicesConfigData where
  defaults : Mapping
  vendors : List VendorEntry
  icons : List IconEntry
  kinds : List DeviceKindEntry
  metadata : Mapping

/-! ## Checks -/

/-- `reject_empty`. -/
def rejectEmpty (value label : String) : Except String String :=
  let clean := Text.stripSpaces value
  if clean = "" then .error (label ++ " is required") else .ok clean

/-- A digit of a colour. -/
def isHexDigit (c : Char) : Bool :=
  c.isDigit || (decide ('a' ≤ c) && decide (c ≤ 'f')) || (decide ('A' ≤ c) && decide (c ≤ 'F'))

/-- Whether a text is a colour, `#RRGGBB`. -/
def isHexColor (s : String) : Bool :=
  match s.toList with
  | '#' :: digits => digits.length == 6 && digits.all isHexDigit
  | _ => false

/-- `_validate_color`. -/
def validateColor (value label : String) : Except String String := do
  let color ← rejectEmpty value (label ++ ".color")
  if isHexColor color then pure color else .error (label ++ ".color must be #RRGGBB")

/-- The ids of the vendors, each of which is there once. -/
def vendorIds (vendors : List VendorEntry) : Except String (List String) :=
  vendors.foldlM (fun ids vendor =>
    if vendor.id ∈ ids then .error ("duplicate vendor: " ++ vendor.id)
    else do
      let _ ← validateColor vendor.color vendor.id
      pure (vendor.id :: ids)) []

/-- The types of the icons, each of which is there once. -/
def iconTypes (icons : List IconEntry) : Except String (List String) :=
  icons.foldlM (fun types icon =>
    if icon.type ∈ types then .error ("duplicate icon type: " ++ icon.type)
    else pure (icon.type :: types)) []

/-- The kinds, each of which is there once, with a vendor and a type that are known. -/
def kindIds (vendors types : List String) (kinds : List DeviceKindEntry) :
    Except String (List String) :=
  kinds.foldlM (fun ids kind =>
    if kind.kind ∈ ids then .error ("duplicate kind: " ++ kind.kind)
    else if vendors ≠ [] ∧ kind.vendor ∉ vendors then
      .error (kind.kind ++ ": unknown vendor " ++ kind.vendor)
    else if types ≠ [] ∧ kind.type ∉ types then
      .error (kind.kind ++ ": unknown type " ++ kind.type)
    else pure (kind.kind :: ids)) []

/-- `_validate_devices_model`. -/
def validateDevicesModel (data : DevicesConfigData) : Except String Unit := do
  let vendors ← vendorIds data.vendors
  let types ← iconTypes data.icons
  let _ ← kindIds vendors types data.kinds
  pure ()

/-! ## Reading -/

/-- The parts of the file that the editor knows. -/
def parts : List String := ["defaults", "vendors", "icons", "kinds"]

/-- The fields of a vendor that the editor knows. -/
def vendorFields : List String := ["title", "color"]

/-- The fields of a kind that the editor knows. -/
def kindFields : List String :=
  ["label", "vendor", "type", "deploy_kind", "image_patterns", "mgmt_iface", "webui"]

/-- The entries of a mapping whose keys are not among some names. -/
def without (names : List String) (d : Mapping) : Mapping :=
  d.filter fun e => e.1 ∉ names.map Key.str

/-- `_mapping`. -/
def mapping (raw : Mapping) (key : String) : Except String Mapping :=
  match (raw.get key).orEmpty with
  | .dict d => .ok d
  | _ => .error ("devices." ++ key ++ " must be an object")

/-- What is read of the object of a vendor. -/
def vendorEntry (id : String) (raw : Mapping) : Except String VendorEntry :=
  validated VendorEntry.valid {
    id := id
    title := (raw.get "title").orText id
    color := (raw.get "color").orText "#888888"
    extra := without vendorFields raw }

/-- `_vendor_from_mapping`. -/
def vendorFromMapping (id : String) (value : Value) : Except String VendorEntry :=
  match value with
  | .dict raw => vendorEntry id raw
  | _ => .error ("vendor " ++ id ++ " must be an object")

/-- `IconEntry(type=…, path=…)`. -/
def iconEntry (type : String) (path : Value) : Except String IconEntry :=
  validated IconEntry.valid { type := type, path := path.print }

/-- A text field of an entry, with its default. -/
def textField (args : Mapping) (name default : String) : Except String String :=
  match args.lookup (.str name) with
  | none => .ok default
  | some (.str s) => .ok s
  | some _ => .error "ValidationError"

/-- The port of an entry. -/
def portField (R : Coercion) (args : Mapping) : Except String ℤ :=
  match (args.lookup (.str "port")).bind R.toInt with
  | some n => .ok n
  | none => .error "ValidationError"

/-- `WebuiEntry(**item)`. -/
def webuiEntry (R : Coercion) (item : Value) : Except String WebuiEntry := do
  let args ← item.kwargs
  let scheme ← textField args "scheme" "https"
  let port ← portField R args
  let path ← textField args "path" "/"
  let label ← textField args "label" "Web UI"
  validated WebuiEntry.valid { scheme := scheme, port := port, path := path, label := label }

/-- `str(v)` of what is not `None`. -/
def optionalText (v : Value) : Option String := if v.isNull then none else some v.print

/-- The patterns of an image. -/
def patternsFrom (kind : String) (v : Value) : Except String (List String) :=
  match v with
  | .list l => .ok (l.filterMap optionalText)
  | .str s => .ok (if s = "" then [] else [s])
  | v => if v.truthy then .error (kind ++ ".image_patterns must be a list") else .ok []

/-- The entries of the web interfaces. -/
def webuiItems (kind : String) (v : Value) : Except String (List Value) :=
  match v with
  | .list l => .ok l
  | v => if v.truthy then .error (kind ++ ".webui must be a list") else .ok []

/-- What is read of the object of a kind. -/
def kindEntry (R : Coercion) (kind : String) (raw : Mapping) : Except String DeviceKindEntry := do
  let imagePatterns ← patternsFrom kind (raw.get "image_patterns")
  let items ← webuiItems kind (raw.get "webui")
  let webui ← items.mapM (webuiEntry R)
  validated DeviceKindEntry.valid {
    kind := kind
    label := (raw.get "label").orText kind
    vendor := (raw.get "vendor").orText "generic"
    type := (raw.get "type").orText "router"
    deployKind := optionalText (raw.get "deploy_kind")
    imagePatterns := imagePatterns
    mgmtIface := optionalText (raw.get "mgmt_iface")
    webui := webui
    extra := without kindFields raw }

/-- `_kind_from_mapping`. -/
def kindFromMapping (R : Coercion) (kind : String) (value : Value) :
    Except String DeviceKindEntry :=
  match value with
  | .dict raw => kindEntry R kind raw
  | _ => .error ("kind " ++ kind ++ " must be an object")

/-- `[read(key, value) for key, value in table.items()]`. -/
def readTable {α : Type} (read : String → Value → Except String α) (table : Mapping) :
    Except String (List α) :=
  table.mapM fun e => read e.1.print e.2

/-- `parse_devices_config`. -/
def parseDevicesConfig (R : Coercion) (raw : Mapping) : Except String DevicesConfigData := do
  let vendorsRaw ← mapping raw "vendors"
  let iconsRaw ← mapping raw "icons"
  let kindsRaw ← mapping raw "kinds"
  let defaults ← mapping raw "defaults"
  let vendors ← readTable (fun id value => vendorFromMapping id value.orEmpty) vendorsRaw
  let icons ← readTable iconEntry iconsRaw
  let kinds ← readTable (fun kind value => kindFromMapping R kind value.orEmpty) kindsRaw
  let data : DevicesConfigData := {
    defaults := defaults
    vendors := vendors
    icons := icons
    kinds := kinds
    metadata := without parts raw }
  validateDevicesModel data
  pure data

/-! ## Writing -/

/-- `_drop_none`. -/
def dropNone (data : Mapping) : Mapping := data.filter fun e => !e.2.isNull

/-- The entry of a vendor. -/
def vendorToMapping (v : VendorEntry) : Except String Value := do
  let title ← rejectEmpty v.title (v.id ++ ".title")
  let color ← validateColor v.color v.id
  pure (.dict (dropNone ((v.extra.set "title" (.str title)).set "color" (.str color))))

/-- The entry of a web interface. -/
def webuiToMapping (kind : String) (port : WebuiEntry) : Except String Value := do
  let label ← rejectEmpty port.label (kind ++ ".webui.label")
  pure (.dict (Mapping.ofFields [
    ("scheme", .str port.scheme),
    ("port", .int port.port),
    ("path", .str (if Text.startsWith port.path "/" then port.path else "/" ++ port.path)),
    ("label", .str label)]))

/-- The kind that is deployed, if there is one. -/
def setDeployKind (k : DeviceKindEntry) (data : Mapping) : Except String Mapping :=
  if k.deployKind.getD "" = "" then pure data
  else do
    let deployKind ← rejectEmpty (k.deployKind.getD "") (k.kind ++ ".deploy_kind")
    pure (data.set "deploy_kind" (.str deployKind))

/-- The patterns of the image, if there are any. -/
def setImagePatterns (k : DeviceKindEntry) (data : Mapping) : Except String Mapping :=
  if k.imagePatterns = [] then pure data
  else do
    let patterns ← k.imagePatterns.mapM (rejectEmpty · (k.kind ++ ".image_patterns"))
    pure (data.set "image_patterns" (.strs patterns))

/-- The web interfaces, if there are any. -/
def setWebui (k : DeviceKindEntry) (data : Mapping) : Except String Mapping :=
  if k.webui = [] then pure data
  else do
    let ports ← k.webui.mapM (webuiToMapping k.kind)
    pure (data.set "webui" (.list ports))

/-- `_kind_to_mapping`. -/
def kindToMapping (k : DeviceKindEntry) : Except String Value := do
  let label ← rejectEmpty k.label (k.kind ++ ".label")
  let vendor ← rejectEmpty k.vendor (k.kind ++ ".vendor")
  let type ← rejectEmpty k.type (k.kind ++ ".type")
  let data := ((k.extra.set "label" (.str label)).set "vendor" (.str vendor)).set "type" (.str type)
  let data ← setDeployKind k data
  let data ← setImagePatterns k data
  let data ← setWebui k (data.set "mgmt_iface" ((k.mgmtIface.map Value.str).getD .null))
  pure (.dict (dropNone data))

/-- `\x7bname(entry): write(entry) for entry in entries\x7d`. -/
def writeTable {α : Type} (name : α → Except String String) (write : α → Except String Value)
    (entries : List α) : Except String Mapping := do
  let pairs ← entries.mapM fun entry => do
    let key ← name entry
    let value ← write entry
    pure (Key.str key, value)
  pure (Dict.ofList pairs).items

/-- `serialize_devices_config`. -/
def serializeDevicesConfig (data : DevicesConfigData) : Except String Mapping := do
  validateDevicesModel data
  let vendors ← writeTable (fun v => rejectEmpty v.id "vendor id") vendorToMapping data.vendors
  let icons ← writeTable (fun i => rejectEmpty i.type "icon type")
    (fun i => (rejectEmpty i.path (i.type ++ ".path")).map .str) data.icons
  let kinds ← writeTable (fun k => rejectEmpty k.kind "kind") kindToMapping data.kinds
  pure ((((data.metadata.set "defaults" (.dict data.defaults)).set "vendors" (.dict vendors)).set
    "icons" (.dict icons)).set "kinds" (.dict kinds))

end Dnlab.DevicesParser
