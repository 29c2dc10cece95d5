import Dnlab.Lib.Record

/-!
# The state file

How the state of a lab is written to its file and read back, after
`DeploymentState.to_dict` and `from_dict` of `models/state.py`. A reader checks
the names of the fields and the shapes it goes through, not the values: these
are whatever the file has.

A file of an older layout has no record of the devices, no mode or no
reservations; they are made up from the rest (`complete`).
-/

namespace Dnlab.StateFile

/-! ## The records -/

/-- A field without a default. -/
def required (name : String) : String × Option Value := (name, none)

/-- A field with a default. -/
def optional (name : String) (v : Value) : String × Option Value := (name, some v)

/-- `MgmtState`. -/
def mgmtState : DataClass where
  name := "MgmtState"
  fields := ["subnet", "gateway", "bridge", "vrf", "vxlan_id", "vxlan_iface"].map required

/-- `JumphostState`. -/
def jumphostState : DataClass where
  name := "JumphostState"
  fields := ["node", "container", "mgmt_ip", "host_ip", "ext_network"].map required ++
    [optional "password" (.str ""), optional "resolver" (.str ""), optional "ssh_port" (.int 0),
      optional "ssh_bind_ip" (.str "")]

/-- `DnsState`. -/
def dnsState : DataClass where
  name := "DnsState"
  fields := ["node", "container", "mgmt_ip"].map required ++
    [optional "upstream" (.list []), optional "hosts_file" (.str ""), optional "entries" (.int 0)]

/-- `RuntimeRelayState`. -/
def runtimeRelayState : DataClass where
  name := "RuntimeRelayState"
  fields := ["host", "container", "bind_ip", "port"].map required ++
    [optional "api_key" (.str ""), optional "allowed" (.list [])]

/-- `HostScheduleState`. -/
def hostScheduleState : DataClass where
  name := "HostScheduleState"
  fields := ["host", "topology_file"].map required ++
    [optional "vd" (.list []), optional "resources_used" (.dict [])]

/-- `VxlanLinkState`. -/
def vxlanLinkState : DataClass where
  name := "VxlanLinkState"
  fields := ["id", "link"].map required ++
    [optional "side_a" (.dict []), optional "side_b" (.dict []), optional "status" (.str "unknown")]

/-- `NodeRuntimeState`. -/
def nodeRuntimeState : DataClass where
  name := "NodeRuntimeState"
  fields := [required "node", optional "state" (.str "running"), optional "host" (.str ""),
    optional "container" (.str ""), optional "topology_file" (.str ""), optional "kind" (.str ""),
    optional "image" (.str ""), optional "mgmt_ipv4" (.str ""), optional "started_at" (.str ""),
    optional "last_error" (.str ""), optional "warm_ports" (.int 0),
    optional "hot_links_status" (.str "unsupported")]

/-- `MgmtAnchorState`. -/
def mgmtAnchorState : DataClass where
  name := "MgmtAnchorState"
  fields := [optional "host" (.str ""), optional "container" (.str ""),
    optional "topology_file" (.str ""), optional "state" (.str "running")]

/-- `RuntimeLinkState`. -/
def runtimeLinkState : DataClass where
  name := "RuntimeLinkState"
  fields := ["id", "link_type"].map required ++
    [optional "endpoint_a" (.dict []), optional "endpoint_b" (.dict [])] ++
    ["host_a", "host_b", "host_endpoint_a", "host_endpoint_b", "container_a", "container_b"].map
      (optional · (.str "")) ++
    [optional "warm_a" (.bool false), optional "warm_b" (.bool false), optional "vxlan_id" (.int 0),
      optional "state" (.str "down"), optional "last_error" (.str ""),
      optional "validation_error" (.bool false)]

/-- `WebUIAllocation`. -/
def webUIAllocation : DataClass where
  name := "WebUIAllocation"
  fields := ["container_port", "host_port"].map required ++
    [optional "bind_ip" (.str "127.0.0.1"), optional "proto" (.str "tcp")]

/-- `RealNetState`. -/
def realNetState : DataClass where
  name := "RealNetState"
  fields := ["name", "bridge", "vxlan_id"].map required ++
    [optional "hosts" (.list []), optional "router_container" (.str ""),
      optional "router_wan_ip" (.str ""), optional "lan_ipv4" (.str ""), optional "nat" (.bool true),
      optional "bgp" (.bool false), optional "bgp_as" (.int 0), optional "bgp_router_ip" (.str "")]

/-- `DeploymentState`, as it is in memory. Where a file can name a device by something that is no
    text, the key is that. -/
structure State where
  labName : Value
  topologyFile : Value
  deployedAt : Value := .str ""
  dnlabDeployed : Value := .bool true
  runtimeMode : Value := .str ""
  vrfTableId : Value := .int 0
  mgmt : Option (Record mgmtState) := none
  jumphost : Option (Record jumphostState) := none
  dns : Option (Record dnsState) := none
  runtimeRelays : Dict String (Record runtimeRelayState) := ∅
  scheduling : Dict String (Record hostScheduleState) := ∅
  vxlanDataplane : List (Record vxlanLinkState) := []
  mgmtAnchors : Dict String (Record mgmtAnchorState) := ∅
  nodeRuntime : Dict Key (Record nodeRuntimeState) := ∅
  runtimeLinks : List (Record runtimeLinkState) := []
  webuiAllocations : Dict String (List (Record webUIAllocation)) := ∅
  mgmtIpReservations : Dict Key Value := ∅
  realnets : List (Record realNetState) := []
  phasesCompleted : Value := .list []

/-! ## Writing -/

/-- An optional record. -/
def optionValue {cls : DataClass} : Option (Record cls) → Value
  | some r => r.toValue
  | none => .null

/-- A list of records. -/
def listValue {cls : DataClass} (l : List (Record cls)) : Value := .list (l.map Record.toValue)

/-- A mapping with texts for keys. -/
def dictValue {α : Type} (f : α → Value) (d : Dict String α) : Value :=
  .dict (d.items.map fun e => (.str e.1, f e.2))

/-- A mapping. -/
def keyedValue {α : Type} (f : α → Value) (d : Dict Key α) : Value :=
  .dict (d.items.map fun e => (e.1, f e.2))

/-- `state.to_dict()`. -/
def State.toDict (st : State) : Mapping :=
  .ofFields [
    ("lab_name", st.labName),
    ("topology_file", st.topologyFile),
    ("deployed_at", st.deployedAt),
    ("dnlab_deployed", st.dnlabDeployed),
    ("runtime_mode", st.runtimeMode),
    ("vrf_table_id", st.vrfTableId),
    ("mgmt", optionValue st.mgmt),
    ("jumphost", optionValue st.jumphost),
    ("dns", optionValue st.dns),
    ("runtime_relays", dictValue Record.toValue st.runtimeRelays),
    ("scheduling", dictValue Record.toValue st.scheduling),
    ("vxlan_dataplane", listValue st.vxlanDataplane),
    ("mgmt_anchors", dictValue Record.toValue st.mgmtAnchors),
    ("node_runtime", keyedValue Record.toValue st.nodeRuntime),
    ("runtime_links", listValue st.runtimeLinks),
    ("webui_allocations", dictValue listValue st.webuiAllocations),
    ("mgmt_ip_reservations", keyedValue id st.mgmtIpReservations),
    ("realnets", listValue st.realnets),
    ("phases_completed", st.phasesCompleted)]

/-! ## Reading -/

/-- `cls(**v)`. -/
def readRecord (cls : DataClass) (v : Value) : Except String (Record cls) := do
  let args ← v.kwargs
  cls.make args

/-- `cls(**v)`, if there is anything. -/
def readOption (cls : DataClass) (v : Value) : Except String (Option (Record cls)) := do
  if v.truthy then do
    let r ← readRecord cls v
    pure (some r)
  else pure none

/-- The elements of a list, each read by `f`. -/
def readList {α : Type} (f : Value → Except String α) (v : Value) : Except String (List α) := do
  let l ← v.elems
  l.mapM f

/-- The entries of a mapping, the values read by `f`. -/
def readKeyed {α : Type} (f : Value → Except String α) (v : Value) : Except String (Dict Key α) := do
  let d ← v.entriesOf
  let entries ← d.mapM fun e => do
    let a ← f e.2
    pure (e.1, a)
  pure (.ofList entries)

/-- The text of a key. -/
def keyText : Key → String
  | .str s => s
  | .other repr => repr

/-- The entries of a mapping, whose keys are texts. -/
def readDict {α : Type} (f : Value → Except String α) (v : Value) :
    Except String (Dict String α) := do
  let d ← readKeyed f v
  pure (.ofList (d.items.map fun e => (keyText e.1, e.2)))

/-- The attributes of a real network, with those of an older layout renamed or dropped. -/
def migrateRealnet (rn : Mapping) : Mapping :=
  let rn := if rn.has "ospf" && !rn.has "bgp" then
      Mapping.set (rn.filter fun e => e.1 ≠ .str "ospf") "bgp" (.bool (rn.get "ospf").truthy)
    else rn
  rn.filter fun e => e.1 ≠ .str "ospf_area"

/-- A real network. -/
def readRealnet (v : Value) : Except String (Record realNetState) := do
  let rn ← v.toMapping
  readRecord realNetState (.dict (migrateRealnet rn))

/-- What `from_dict` reads of a file, before it makes up what an older one lacks. -/
def readState (d : Mapping) : Except String State := do
  let labName ← d.item "lab_name"
  let topologyFile ← d.item "topology_file"
  let mgmt ← readOption mgmtState (d.get "mgmt")
  let jumphost ← readOption jumphostState (d.get "jumphost")
  let dns ← readOption dnsState (d.get "dns")
  let runtimeRelays ← readDict (readRecord runtimeRelayState) (d.getD "runtime_relays" (.dict []))
  let scheduling ← readDict (readRecord hostScheduleState) (d.getD "scheduling" (.dict []))
  let vxlanDataplane ← readList (readRecord vxlanLinkState) (d.getD "vxlan_dataplane" (.list []))
  let mgmtAnchors ← readDict (readRecord mgmtAnchorState) (d.get "mgmt_anchors").orEmpty
  let nodeRuntime ← readKeyed (readRecord nodeRuntimeState) (d.get "node_runtime").orEmpty
  let runtimeLinks ← readList (readRecord runtimeLinkState) (d.getD "runtime_links" (.list []))
  let webuiAllocations ← readDict (readList (readRecord webUIAllocation))
    (d.get "webui_allocations").orEmpty
  let reservations ← (d.get "mgmt_ip_reservations").orEmpty.toMapping
  let realnets ← readList readRealnet (d.getD "realnets" (.list []))
  pure
    { labName := labName
      topologyFile := topologyFile
      deployedAt := d.getD "deployed_at" (.str "")
      dnlabDeployed := d.getD "dnlab_deployed" (.bool true)
      runtimeMode := d.getD "runtime_mode" (.str "")
      vrfTableId := d.getD "vrf_table_id" (.int 0)
      mgmt := mgmt
      jumphost := jumphost
      dns := dns
      runtimeRelays := runtimeRelays
      scheduling := scheduling
      vxlanDataplane := vxlanDataplane
      mgmtAnchors := mgmtAnchors
      nodeRuntime := nodeRuntime
      runtimeLinks := runtimeLinks
      webuiAllocations := webuiAllocations
      mgmtIpReservations := .ofList reservations
      realnets := realnets
      phasesCompleted := d.getD "phases_completed" (.list []) }

/-- The record of a device of which only its host is known. -/
def legacyRuntime (labName : Value) (host : String) (schedule : Record hostScheduleState)
    (node : Value) : Except String (Key × Record nodeRuntimeState) := do
  let key ← node.key
  let r ← nodeRuntimeState.make (.ofFields [
    ("node", node),
    ("state", .str "running"),
    ("host", .str host),
    ("container", .str ("clab-" ++ labName.print ++ "-" ++ node.print)),
    ("topology_file", schedule.get "topology_file")])
  pure (key, r)

/-- `state._populate_legacy_node_runtime()`: the devices that the hosts list. -/
def populateLegacyNodeRuntime (st : State) : Except String (Dict Key (Record nodeRuntimeState)) := do
  let byHost ← st.scheduling.items.mapM fun (host, schedule) => do
    let nodes ← (schedule.get "vd").elems
    nodes.mapM (legacyRuntime st.labName host schedule)
  pure (.ofList byHost.flatten)

/-- `all(runtime.container.startswith(stem) for …)`. -/
def allStart (stem : String) : List (Record nodeRuntimeState) → Except String Bool
  | [] => .ok true
  | r :: rs =>
    match r.get "container" with
    | .str s => if Text.startsWith s stem then allStart stem rs else .ok false
    | _ => .error "AttributeError: object has no attribute 'startswith'"

/-- The mode of a lab whose file does not say it. -/
def inferMode (st : State) : Except String Value := do
  let perVd ← allStart ("clab-dnlab-" ++ st.labName.print ++ "-") st.nodeRuntime.values
  pure (.str (if perVd then "per-vd" else "legacy"))

/-- The addresses that the devices have. -/
def runtimeAddresses (st : State) : Dict Key Value :=
  (st.nodeRuntime.filter fun _ r => (r.get "mgmt_ipv4").truthy).map fun _ r => r.get "mgmt_ipv4"

/-- The state with the devices that the hosts list, if it has no other. -/
def completeRuntime (st : State) : Except String State :=
  if st.nodeRuntime.items.isEmpty then
    (populateLegacyNodeRuntime st).map fun nodeRuntime => { st with nodeRuntime := nodeRuntime }
  else .ok st

/-- The state with a mode, if there are devices. -/
def completeMode (st : State) : Except String State :=
  if !st.runtimeMode.truthy && !st.nodeRuntime.items.isEmpty then
    (inferMode st).map fun mode => { st with runtimeMode := mode }
  else .ok st

/-- The state with the addresses of the devices, if nothing else is reserved. -/
def completeReservations (st : State) : State :=
  if st.mgmtIpReservations.items.isEmpty then { st with mgmtIpReservations := runtimeAddresses st }
  else st

/-- What `from_dict` makes up of what a file lacks. -/
def complete (st : State) : Except String State := do
  let st ← completeRuntime st
  let st ← completeMode st
  pure (completeReservations st)

/-- `DeploymentState.from_dict(d)`. -/
def fromDict (d : Mapping) : Except String State := do
  let st ← readState d
  complete st

/-- A state that is stored and loaded again. -/
def reload (st : State) : Except String State :=
  fromDict (Dict.ofList (Value.viaJsonEntries st.toDict)).items

end Dnlab.StateFile
