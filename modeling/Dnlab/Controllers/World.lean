import Dnlab.Services.RuntimeLinks

/-!
# The world of a controller

What a controller works on: the parsed topology, the state of the lab in memory
and as last saved, and the hosts. What an operation changes in memory is lost
unless it is saved, since every operation starts from the state file.
-/

namespace Dnlab

/-- What a controller works on. -/
structure World (ρ : Type) where
  topo : DistributedTopology
  state : DeploymentState
  /-- The state file. -/
  saved : DeploymentState
  remote : Remote ρ
  /-- The resources that each device was placed with: a history that nothing reads. -/
  placed : Dict String VDResources := ∅

/-- A program of a controller. -/
abbrev Ctl (ρ α : Type) := Prog (World ρ) Err α

/-- What the controllers call and what the claims about them do not depend on: it is any function
    of the hosts, which can neither see nor change the state of the lab. -/
structure Services (ρ : Type) where
  backend : Backend ρ
  /-- `json.loads` of the labels of an image. -/
  parseLabels : String → Dict String String
  /-- `config.assign_sticky_mgmt_ipv4`: the addresses of the devices, and the reservations. -/
  assignStickyMgmtIpv4 : Dict String VDNode → MgmtConfig → Dict String String →
    Except Err (Dict String String × Dict String String)
  /-- `resources.extract_resources` for one device. -/
  extractResources : DistributedTopology → VDNode → ρ → Except Err VDResources × ρ
  /-- `webui_ports.allocate_webui_port` with the ports in use and the preferred one. -/
  allocateWebuiPort : WebUIPortsCfg → (usedExtra : List ℕ) → (preferred : Option ℕ) → ρ →
    Except Err ℕ × ρ
  /-- The topology of a management anchor, as printed. -/
  mgmtAnchorTopology : DistributedTopology → (host : String) → String
  /-- `generator.render_node_feature_files`: texts by path. -/
  renderNodeFeatureFiles : DistributedTopology → (node : String) → Dict String String
  /-- `generator.render_node_asset(override, "vswitch.xml")`. -/
  renderNodeAsset : Dict String String → Option String
  /-- `runtime_relay.generate_api_key`. -/
  generateApiKey : ρ → Except Err String × ρ
  /-- `runtime_relay.reconcile_runtime_relays`. -/
  reconcileRuntimeRelays : DistributedTopology → SchedulePlan → (underlayIps : Dict String String) →
    (apiKey : String) → Dict String RuntimeRelayState → ρ →
    Except Err (Dict String RuntimeRelayState) × ρ
  /-- `dns.refresh_dns`: the number of entries. -/
  refreshDns : (labName : String) → (entries : List (String × String)) → ρ → Except Err ℕ × ρ
  /-- `jumphost.refresh_jumphost_inventory`. -/
  refreshJumphostInventory : (labName : String) → (vdMap : Dict String String) →
    (relayMap : Dict String (String × ℕ × String)) → ρ → Except Err Unit × ρ

namespace Ctl

variable {ρ α : Type}

/-- Run a program of the hosts. -/
def remotely (p : Prog (Remote ρ) Err α) : Ctl ρ α :=
  p.onPart World.remote fun w r => { w with remote := r }

/-- Call a service of which only the effect on the hosts is known. -/
def outside (f : ρ → Except Err α × ρ) : Ctl ρ α :=
  remotely fun r => ((f r.env).1, { r with env := (f r.env).2 })

/-- The topology. -/
def topo : Ctl ρ DistributedTopology := do
  let w ← .get
  pure w.topo

/-- The state in memory. -/
def state : Ctl ρ DeploymentState := do
  let w ← .get
  pure w.state

/-- Change the state in memory. -/
def modifyState (f : DeploymentState → DeploymentState) : Ctl ρ Unit :=
  .modify fun w => { w with state := f w.state }

/-- Change the topology in memory. -/
def modifyTopo (f : DistributedTopology → DistributedTopology) : Ctl ρ Unit :=
  .modify fun w => { w with topo := f w.topo }

/-- `save_state(self.state, self.state_dir)`. -/
def save : Ctl ρ Unit := .modify fun w => { w with saved := w.state }

/-- Change the links of the state in place, whether or not that ends in an exception. -/
def onLinks
    (f : List RuntimeLinkState → Prog (Remote ρ) Err (List RuntimeLinkState × Option Err)) :
    Ctl ρ Unit := do
  let st ← state
  let (links, err) ← remotely (f st.runtimeLinks)
  modifyState fun st => { st with runtimeLinks := links }
  match err with
  | some e => .raise e
  | none => pure ()

/-- Change what is recorded of a device. -/
def modifyRuntime (node : String) (f : NodeRuntimeState → NodeRuntimeState) : Ctl ρ Unit :=
  modifyState fun st => { st with nodeRuntime := st.nodeRuntime.modify node f }

end Ctl

/-- The end of a link as the state names it. -/
def endText (e : Endpoint) : String := e.node.getD "None" ++ ":" ++ e.iface.getD "None"

/-- The tunnels of the dataplane, from the links between hosts. -/
def vxlanDataplaneOf (links : List RuntimeLinkState) : List VxlanLinkState :=
  (links.filter fun l => l.linkType = .crossHost).map fun l =>
    { id := l.vxlanId
      link := endText l.endpointA ++ " <-> " ++ endText l.endpointB
      sideA := ⟨l.hostA, l.hostEndpointA⟩
      sideB := ⟨l.hostB, l.hostEndpointB⟩
      status := l.state }

/-- `self._sync_vxlan_state()`. -/
def syncVxlanState {ρ : Type} : Ctl ρ Unit :=
  .modifyState fun st => { st with vxlanDataplane := vxlanDataplaneOf st.runtimeLinks }

end Dnlab
