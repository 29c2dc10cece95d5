import Dnlab.Models.Clab
import Dnlab.Models.State
import Dnlab.Services.WarmLinks
import Dnlab.Models.Schedule
import Dnlab.Utils.Naming

/-!
# Topology files

The single-node topologies of a plan, after `services/generator.py`. A first
pass names the host-side end of every link of the plan (`microHostEndpoints`),
each host on its own; a second pass writes, for each device, the links it is an
end of, and then its warm ports that no link takes (`buildMicroClabDict`).
-/

namespace Dnlab

namespace Yaml

mutual

/-- `repr(value)` of a YAML value. -/
def repr : Yaml → String
  | .null => "None"
  | .bool b => if b then "True" else "False"
  | .int i => toString i
  | .str s => Text.repr s
  | .seq l => "[" ++ Text.join ", " (reprs l) ++ "]"
  | .map l => "\x7b" ++ Text.join ", " (reprEntries l) ++ "\x7d"

/-- The elements of a sequence, as `repr` prints them. -/
def reprs : List Yaml → List String
  | [] => []
  | v :: l => repr v :: reprs l

/-- The entries of a mapping, as `repr` prints them. -/
def reprEntries : List (String × Yaml) → List String
  | [] => []
  | (k, v) :: l => (Text.repr k ++ ": " ++ repr v) :: reprEntries l

end

/-- `str(value)` of a YAML value. -/
def text : Yaml → String
  | .str s => s
  | v => v.repr

/-- `type(value).__name__`. -/
def typeName : Yaml → String
  | .null => "NoneType"
  | .bool _ => "bool"
  | .int _ => "int"
  | .str _ => "str"
  | .seq _ => "list"
  | .map _ => "dict"

/-- `list(value or [])`: the characters of a text, the keys of a mapping; a number that is not zero
    cannot be gone through. -/
def elements : Yaml → Except Err (List Yaml)
  | .null | .bool false | .int 0 => .ok []
  | .str s => .ok (s.toList.map fun c => .str (String.singleton c))
  | .seq l => .ok l
  | .map l => .ok (l.map fun (k, _) => .str k)
  | v => .error ⟨.other, "'" ++ v.typeName ++ "' object is not iterable"⟩

end Yaml

namespace Generator

open WarmLinks (nodeOf isEnabled)

/-! ## Nodes -/

/-- Whether an image keeps its data in a directory of the host. -/
def needsPersistBind (image : String) : Bool :=
  let image := Text.stripSpaces image
  if image = "" then false
  else if Text.endsWith (Text.afterLast ':' image) "-dnlab" then true
  else
    let repo := if Text.contains image ":" then
        Text.removeEnd image (":" ++ Text.afterLast ':' image)
      else image
    Text.startsWith (Text.afterLast '/' repo) "dnlab_"

/-- The host directory of a device's data. -/
def persistDirForNode (lab vd persistId root : String) : String :=
  let base := String.ofList (root.toList.reverse.dropWhile (· == '/')).reverse
  base ++ "/" ++ lab ++ "/" ++ Text.orElse persistId vd

/-- `re.sub(r"[^A-Za-z0-9_.-]+", "_", value).strip("._")`. -/
def safePathPart (value : String) : String :=
  let isPathChar (c : Char) : Bool := Text.isAlnum c || "_.-".toList.contains c
  let l := Text.replaceRuns (!isPathChar ·) '_' false value.toList
  let isEdge (c : Char) : Bool := c == '.' || c == '_'
  .ofList ((l.dropWhile isEdge).reverse.dropWhile isEdge).reverse

/-- The path of a generated file of a device. -/
def nodeAssetPath (topoName nodeName filename : String) : String :=
  "/tmp/dnlab-assets/" ++ Text.orElse (safePathPart topoName) "lab" ++ "/" ++
    Text.orElse (safePathPart nodeName) "node" ++ "/" ++
    Text.orElse (safePathPart filename) filename

/-- `any(b.endswith(suffix) for b in l)`, which looks at no element after the first that does. -/
def anyEndsWith (suffix : String) : List Yaml → Except Err Bool
  | [] => .ok false
  | .str s :: l => if Text.endsWith s suffix then .ok true else anyEndsWith suffix l
  | v :: _ => .error ⟨.other, "'" ++ v.typeName ++ "' object has no attribute 'endswith'"⟩

/-- `node_dict.get(key)`. -/
def fieldOf (d : Dict String Yaml) (key : String) : Yaml := d.getD key .null

/-- The environment of a device, without what the program records there itself. -/
def nodeEnv (vd : VDNode) : Dict String String :=
  vd.env.filter fun k _ => k ≠ WarmLinks.imageStatusEnv && k ≠ WarmLinks.baseDigestEnv

/-- `d.setdefault(key, value)`. -/
def setDefault (d : Dict String String) (key value : String) : Dict String String :=
  if d.contains key then d else d.set key value

/-- The environment with the settings of the warm ports. -/
def warmEnv (env : Dict String String) (capacity : ℕ) (profile : WarmLinks.Profile) :
    Dict String String :=
  let env := env.set "DNLAB_WARM_PORTS" (toString capacity)
  let env := setDefault env "DNLAB_NIC_POLL_INTERVAL" "0.05"
  setDefault env "DNLAB_WARM_VM_INDEX" (toString profile.vmIndex)

/-- A dictionary of strings as a YAML value. -/
def envYaml (env : Dict String String) : Yaml := .map (env.items.map fun (k, v) => (k, .str v))

/-- The `ports` entry of an allocation. -/
def portSpec (a : WebUIAllocation) : String :=
  toString a.hostPort ++ ":" ++ toString a.containerPort ++ "/" ++ a.proto

/-- The node of a device, before the program adds binds and ports to it. -/
def baseNode (vd : VDNode) (capacity : ℕ) : Dict String Yaml :=
  let d : Dict String Yaml := ((∅ : Dict String Yaml).set "kind" (.str vd.kind)).set "image"
    (.str vd.image)
  let d := if vd.mgmtIpv4 = "" then d else d.set "mgmt-ipv4" (.str vd.mgmtIpv4)
  let d := if vd.env.items = [] then d else d.set "env" (envYaml (nodeEnv vd))
  let d := match WarmLinks.profileForNode vd with
    | some profile =>
      if capacity = 0 then d else d.set "env" (envYaml (warmEnv (nodeEnv vd) capacity profile))
    | none => d
  d.update (vd.extra.erase "webui_ports").items

/-- Whether a device is to get a switch file of its own. -/
def hasVswitch (topo : DistributedTopology) (vdName : String) : Bool :=
  (topo.nodeOverrides.getD vdName ∅).getD "type" "" = "cat9kv_vswitch"

/-- The bind of the switch file of a device, in place of any other. -/
def bindVswitch (topo : DistributedTopology) (vdName : String) (d : Dict String Yaml) :
    Except Err (Dict String Yaml) :=
  if hasVswitch topo vdName then do
    let binds ← (fieldOf d "binds").elements
    let others := (binds.map Yaml.text).filter fun b => !Text.endsWith b ":/vswitch.xml"
    let bind := nodeAssetPath topo.name vdName "vswitch.xml" ++ ":/vswitch.xml"
    pure (d.set "binds" (.seq ((others ++ [bind]).map .str)))
  else pure d

/-- The ports of the allocations of a device, after those that it has. -/
def publishPorts (allocs : List WebUIAllocation) (d : Dict String Yaml) :
    Except Err (Dict String Yaml) :=
  if allocs = [] then pure d
  else do
    let ports ← (fieldOf d "ports").elements
    let isSpec (spec : String) : Yaml → Bool
      | .str s => s == spec
      | _ => false
    let addPort (ports : List Yaml) (a : WebUIAllocation) : List Yaml :=
      if ports.any (isSpec (portSpec a)) then ports else ports ++ [.str (portSpec a)]
    pure (d.set "ports" (.seq (allocs.foldl addPort ports)))

/-- The bind of the data of a device, unless it has one. -/
def bindPersist (topo : DistributedTopology) (vdName : String) (vd : VDNode)
    (d : Dict String Yaml) : Except Err (Dict String Yaml) :=
  if needsPersistBind vd.image then do
    let binds ← (fieldOf d "binds").elements
    let bind := persistDirForNode topo.name vdName vd.persistId topo.persistenceRoot ++ ":/persist"
    let bound ← anyEndsWith ":/persist" binds
    pure (d.set "binds" (.seq (if bound then binds else binds ++ [.str bind])))
  else pure d

/-- The node of a single-node topology. -/
def buildNodeDict (topo : DistributedTopology) (vdName : String)
    (webuiAllocations : Dict String (List WebUIAllocation)) :
    Except Err (Dict String Yaml) := do
  let vd ← nodeOf topo vdName
  let capacity ← WarmLinks.capacityForNode topo vdName
  let d ← bindVswitch topo vdName (baseNode vd capacity)
  let d ← publishPorts (webuiAllocations.getD vdName []) d
  bindPersist topo vdName vd d

/-! ## Host-side names -/

/-- The host-side name of an endpoint: of its warm port, or else the name that the plan fixed, or
    else one made from the link. -/
def runtimeEndpointName (topo : DistributedTopology) (nodeName iface linkId fallback : String) :
    Except Err String := do
  let vd ← nodeOf topo nodeName
  if isEnabled vd then pure (Naming.runtimePortEndpoint topo.name nodeName iface)
  else pure (Text.orElse fallback (Naming.runtimeHostEndpoint topo.name nodeName iface linkId))

/-- What a name is looked up by: a link, a device and its interface. -/
abbrev EndpointKey := String × String × String

/-- A name to be written on a host. -/
structure EndpointEntry where
  host : String
  key : EndpointKey
  raw : String
  deriving DecidableEq

/-- The names of the `i`-th link within a host. -/
def localEntries (topo : DistributedTopology) (plan : SchedulePlan) (i : ℕ) (l : Link) :
    Except Err (List EndpointEntry) := do
  let lid := "l" ++ toString i
  let host := (plan.hostForVd l.source).getD ""
  let a ← runtimeEndpointName topo l.source l.sourceIface lid ""
  let b ← runtimeEndpointName topo l.target l.targetIface lid ""
  pure [⟨host, (lid, l.source, l.sourceIface), a⟩, ⟨host, (lid, l.target, l.targetIface), b⟩]

/-- The names of the `i`-th link between hosts. -/
def crossEntries (topo : DistributedTopology) (i : ℕ) (l : CrossHostLink) :
    Except Err (List EndpointEntry) := do
  let lid := "vx" ++ toString i
  let a ← runtimeEndpointName topo l.sourceNode l.sourceIface lid l.sourceHostIface
  let b ← runtimeEndpointName topo l.targetNode l.targetIface lid l.targetHostIface
  pure [⟨l.sourceHost, (lid, l.sourceNode, l.sourceIface), a⟩,
    ⟨l.targetHost, (lid, l.targetNode, l.targetIface), b⟩]

/-- The name of the `i`-th attachment to a real network. -/
def realNetEntries (topo : DistributedTopology) (i : ℕ) (l : RealNetLink) :
    Except Err (List EndpointEntry) := do
  let lid := "rn" ++ toString i
  let a ← runtimeEndpointName topo l.node l.iface lid
    (Text.orElse l.bridgeIface (Naming.realnetBridgeIface l.node l.iface))
  pure [⟨l.host, (lid, l.node, l.iface), a⟩]

/-- The names of all endpoints, in the order in which they are collected. -/
def endpointEntries (topo : DistributedTopology) (plan : SchedulePlan) :
    Except Err (List EndpointEntry) := do
  let within ← plan.localLinks.zipIdx.mapM fun (l, i) => localEntries topo plan i l
  let across ← plan.crossHostLinks.zipIdx.mapM fun (l, i) => crossEntries topo i l
  let nets ← topo.realNetLinks.zipIdx.mapM fun (l, i) => realNetEntries topo i l
  pure (within.flatten ++ across.flatten ++ nets.flatten)

/-- The keys of each host, in order; the hosts of the plan come first. -/
def keysPerHost (plan : SchedulePlan) (entries : List EndpointEntry) :
    Dict String (List EndpointKey) :=
  entries.foldl (fun d e => d.set e.host (d.getD e.host [] ++ [e.key]))
    (plan.assignments.map fun _ _ => [])

/-- The names, those of a host made unique among themselves. -/
def uniqueNames (plan : SchedulePlan) (entries : List EndpointEntry) : Dict EndpointKey String :=
  let raw := Dict.ofList (entries.map fun e => (e.key, e.raw))
  (keysPerHost plan entries).values.foldl
    (fun out keys => out.update (keys.zip (Naming.ensureUnique (keys.map fun k => raw.getD k ""))))
    raw

/-- The host-side names of all endpoints. -/
def microHostEndpoints (topo : DistributedTopology) (plan : SchedulePlan) :
    Except Err (Dict EndpointKey String) :=
  (endpointEntries topo plan).map (uniqueNames plan)

/-! ## Files -/

/-- A link of a file: the port of the device and its host-side end. -/
def clabLink (names : Dict EndpointKey String) (lid vdName iface : String) : ClabLink where
  linkId := lid
  endpoints := [vdName ++ ":" ++ iface, "host:" ++ names.getD (lid, vdName, iface) ""]

/-- The links of a plan that a device is an end of. -/
def plannedLinks (topo : DistributedTopology) (plan : SchedulePlan) (hostName vdName : String)
    (names : Dict EndpointKey String) : List ClabLink :=
  (plan.localLinks.zipIdx.flatMap fun (l, i) =>
    if l.source = vdName then [clabLink names ("l" ++ toString i) vdName l.sourceIface]
    else if l.target = vdName then [clabLink names ("l" ++ toString i) vdName l.targetIface]
    else []) ++
  (plan.crossHostLinks.zipIdx.flatMap fun (l, i) =>
    if l.sourceNode = vdName ∧ l.sourceHost = hostName then
      [clabLink names ("vx" ++ toString i) vdName l.sourceIface]
    else if l.targetNode = vdName ∧ l.targetHost = hostName then
      [clabLink names ("vx" ++ toString i) vdName l.targetIface]
    else []) ++
  (topo.realNetLinks.zipIdx.flatMap fun (l, i) =>
    if l.node = vdName ∧ l.host = hostName then
      [clabLink names ("rn" ++ toString i) vdName l.iface]
    else [])

/-- The text after the first `:` of an endpoint. -/
def portOf (endpoint : String) : String :=
  .ofList (endpoint.toList.dropWhile (· ≠ ':')).tail

/-- The ports of a device that links take. -/
def attachedPorts (vdName : String) (links : List ClabLink) : List String :=
  ((links.flatMap (·.endpoints)).filter fun e => Text.startsWith e (vdName ++ ":")).map portOf

/-- The name of the `n`-th port. -/
def portName (n : ℕ) : String := "eth" ++ toString n

/-- The warm ports of a device that no link takes. -/
def spareLinks (labName vdName : String) (capacity : ℕ) (attached : List String) :
    List ClabLink :=
  (((List.range capacity).map fun i => portName (i + 1)).filter (· ∉ attached)).map fun iface =>
    { linkId := ""
      endpoints := [vdName ++ ":" ++ iface,
        "host:" ++ Naming.runtimePortEndpoint labName vdName iface] }

/-- The links of a file. -/
def microLinks (topo : DistributedTopology) (plan : SchedulePlan) (hostName vdName : String)
    (names : Dict EndpointKey String) (capacity : ℕ) : List ClabLink :=
  let planned := plannedLinks topo plan hostName vdName names
  planned ++ spareLinks topo.name vdName capacity (attachedPorts vdName planned)

/-- The single-node topology of a device. -/
def buildMicroClabDict (topo : DistributedTopology) (plan : SchedulePlan)
    (hostName vdName : String) (names : Dict EndpointKey String)
    (webuiAllocations : Dict String (List WebUIAllocation)) : Except Err ClabDict := do
  let node ← buildNodeDict topo vdName webuiAllocations
  let capacity ← WarmLinks.capacityForNode topo vdName
  pure
    { name := Naming.microTopologyName topo.name vdName
      mgmtNetwork := topo.mgmt.network
      nodes := (∅ : Dict String (Dict String Yaml)).set vdName node
      links := microLinks topo plan hostName vdName names capacity }

/-- The single-node topologies of the devices of a host. -/
def hostFiles (topo : DistributedTopology) (plan : SchedulePlan) (hostName : String)
    (vdNames : List String) (names : Dict EndpointKey String)
    (webuiAllocations : Dict String (List WebUIAllocation)) :
    Except Err (Dict String ClabDict) := do
  let files ← vdNames.mapM fun vd => do
    let clab ← buildMicroClabDict topo plan hostName vd names webuiAllocations
    pure (vd, clab)
  pure (Dict.ofList files)

/-- The single-node topologies of a plan, by host and device. -/
def generateMicroTopologyFiles (topo : DistributedTopology) (plan : SchedulePlan)
    (webuiAllocations : Dict String (List WebUIAllocation)) :
    Except Err (Dict String (Dict String ClabDict)) := do
  let names ← microHostEndpoints topo plan
  let active := plan.assignments.items.filter fun (_, a) => a.vdNames ≠ []
  let files ← active.mapM fun (host, a) => do
    let clabs ← hostFiles topo plan host a.vdNames names webuiAllocations
    pure (host, clabs)
  pure (Dict.ofList files)

end Generator

end Dnlab
