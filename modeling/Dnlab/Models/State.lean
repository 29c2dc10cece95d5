import Dnlab.Lib.Dict
import Mathlib.Data.Nat.Notation

/-!
# The state of a deployed lab

After `models/state.py`: what the program records about a running lab and
saves between operations.
-/

namespace Dnlab

/-- The management network as deployed. -/
structure MgmtState where
  subnet : String
  gateway : String
  bridge : String
  vrf : String
  vxlanId : ℕ
  vxlanIface : String
  deriving DecidableEq

/-- The jump host of the lab. -/
structure JumphostState where
  node : String
  container : String
  mgmtIp : String
  hostIp : String
  extNetwork : String
  password : String := ""
  resolver : String := ""
  sshPort : ℕ := 0
  sshBindIp : String := ""
  deriving DecidableEq

/-- The name server of the lab. -/
structure DnsState where
  node : String
  container : String
  mgmtIp : String
  upstream : List String := []
  hostsFile : String := ""
  entries : ℕ := 0
  deriving DecidableEq

/-- The runtime relay of a host. -/
structure RuntimeRelayState where
  host : String
  container : String
  bindIp : String
  port : ℕ
  apiKey : String := ""
  allowed : List String := []
  deriving DecidableEq

/-- The resources recorded for a host: `{"cpu": …, "ram_mb": …}`. -/
structure ResourcesUsed where
  cpu : ℕ := 0
  ramMb : ℕ := 0
  deriving DecidableEq

/-- The devices recorded for a host. -/
structure HostScheduleState where
  host : String
  topologyFile : String
  vd : List String := []
  resourcesUsed : ResourcesUsed := {}
  deriving DecidableEq

/-- One side of a tunnel. -/
structure VxlanSide where
  node : String
  iface : String
  deriving DecidableEq

/-- The conditions of a runtime link. -/
inductive LinkStatus
  | down
  | up
  | partly
  | error
  deriving DecidableEq

/-- A tunnel of the dataplane. -/
structure VxlanLinkState where
  id : ℕ
  link : String
  sideA : VxlanSide
  sideB : VxlanSide
  status : LinkStatus
  deriving DecidableEq

/-- The phases of a deployed device. -/
inductive NodePhase
  | queued
  | starting
  | reconciling
  | running
  | stopping
  | cancelling
  | stopped
  | error
  deriving DecidableEq

/-- What is known of the support of a device's image for links made while it runs. -/
inductive HotLinksStatus
  | unsupported
  | missing
  | experimental
  | experimentalEnabled
  | validated
  deriving DecidableEq

/-- A deployed device. -/
structure NodeRuntimeState where
  node : String
  state : NodePhase := .running
  host : String := ""
  container : String := ""
  topologyFile : String := ""
  kind : String := ""
  image : String := ""
  mgmtIpv4 : String := ""
  startedAt : String := ""
  lastError : String := ""
  warmPorts : ℕ := 0
  hotLinksStatus : HotLinksStatus := .unsupported
  deriving DecidableEq

/-- The management anchor of a host. -/
structure MgmtAnchorState where
  host : String := ""
  container : String := ""
  topologyFile : String := ""
  state : String := "running"
  deriving DecidableEq

/-- An endpoint dictionary, with the keys the program uses: `node` and `iface` for a device,
    `real_net` for a real network. -/
structure Endpoint where
  iface : Option String := none
  node : Option String := none
  realNet : Option String := none
  deriving DecidableEq

namespace Endpoint

/-- The endpoint of a device. -/
def vd (node iface : String) : Endpoint := { iface := some iface, node := some node }

/-- The endpoint of a real network. -/
def net (realNet : String) : Endpoint := { realNet := some realNet }

/-- `sorted(endpoint.items())`. -/
def items (e : Endpoint) : List (String × String) :=
  (e.iface.map (("iface", ·))).toList ++ (e.node.map (("node", ·))).toList ++
    (e.realNet.map (("real_net", ·))).toList

/-- The sorted items determine the endpoint. -/
theorem items_injective : Function.Injective items := by
  rintro ⟨i, n, r⟩ ⟨i', n', r'⟩ h
  cases i <;> cases n <;> cases r <;> cases i' <;> cases n' <;> cases r' <;>
    simp_all [items]

end Endpoint

/-- The kinds of runtime links; a pending one waits for a device that is not deployed. -/
inductive LinkType
  | sameHost
  | crossHost
  | realNet
  | pending
  deriving DecidableEq

/-- `link_type` as the program spells it. -/
def LinkType.text : LinkType → String
  | sameHost => "same_host"
  | crossHost => "cross_host"
  | realNet => "real_net"
  | pending => "pending"

/-- A link of the running lab. -/
structure RuntimeLinkState where
  id : String
  linkType : LinkType
  endpointA : Endpoint := {}
  endpointB : Endpoint := {}
  hostA : String := ""
  hostB : String := ""
  hostEndpointA : String := ""
  hostEndpointB : String := ""
  containerA : String := ""
  containerB : String := ""
  warmA : Bool := false
  warmB : Bool := false
  vxlanId : ℕ := 0
  state : LinkStatus := .down
  lastError : String := ""
  validationError : Bool := false
  deriving DecidableEq

/-- A host-side port allocated to a web interface. -/
structure WebUIAllocation where
  containerPort : ℕ
  hostPort : ℕ
  bindIp : String := "127.0.0.1"
  proto : String := "tcp"
  deriving DecidableEq

/-- A deployed real network. -/
structure RealNetState where
  name : String
  bridge : String
  vxlanId : ℕ
  hosts : List String := []
  routerContainer : String := ""
  deriving DecidableEq

/-- The state of a deployed lab. -/
structure DeploymentState where
  labName : String
  topologyFile : String
  deployedAt : String := ""
  dnlabDeployed : Bool := true
  runtimeMode : String := ""
  vrfTableId : ℕ := 0
  mgmt : Option MgmtState := none
  jumphost : Option JumphostState := none
  dns : Option DnsState := none
  runtimeRelays : Dict String RuntimeRelayState := ∅
  scheduling : Dict String HostScheduleState := ∅
  vxlanDataplane : List VxlanLinkState := []
  mgmtAnchors : Dict String MgmtAnchorState := ∅
  nodeRuntime : Dict String NodeRuntimeState := ∅
  runtimeLinks : List RuntimeLinkState := []
  webuiAllocations : Dict String (List WebUIAllocation) := ∅
  mgmtIpReservations : Dict String String := ∅
  realnets : List RealNetState := []
  phasesCompleted : List String := []
  deriving DecidableEq

end Dnlab
