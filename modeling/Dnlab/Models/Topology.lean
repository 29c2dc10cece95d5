import Dnlab.Lib.Dict
import Mathlib.Data.Nat.Notation

/-!
# The topology of a lab

The parsed topology file merged with the host inventory, after
`models/topology.py`: the fields that scheduling, generation and the runtime
lifecycle read. What only reaches remote services (persistence, jump host and
web settings) is left out.
-/

namespace Dnlab

/-- A YAML value. -/
inductive Yaml
  | null
  | bool (b : Bool)
  | int (i : Int)
  | str (s : String)
  | seq (l : List Yaml)
  | map (l : List (String × Yaml))

/-- A virtual device of the topology. -/
structure VDNode where
  name : String
  kind : String
  image : String
  mgmtIpv4 : String := ""
  mgmtIpv4Explicit : Bool := false
  env : Dict String String := ∅
  extra : Dict String Yaml := ∅
  persistId : String := ""

/-- A point-to-point link between two interfaces of virtual devices. -/
structure Link where
  source : String
  sourceIface : String
  target : String
  targetIface : String
  deriving DecidableEq

/-- `str(link)`. -/
def Link.text (l : Link) : String :=
  l.source ++ ":" ++ l.sourceIface ++ " <-> " ++ l.target ++ ":" ++ l.targetIface

/-- A network backed by the infrastructure, a pseudo-node of the topology. -/
structure RealNet where
  name : String
  ipv4 : String := ""
  nat : Bool := true
  bgp : Bool := false
  deriving DecidableEq

/-- An interface attached to a real network; its placement is filled in by the scheduler. -/
structure RealNetLink where
  realNet : String
  node : String
  iface : String
  host : String := ""
  bridgeIface : String := ""
  deriving DecidableEq

/-- A master or worker host. -/
structure InfraHost where
  name : String
  host : String
  isMaster : Bool := false
  deriving DecidableEq

/-- The management network. -/
structure MgmtConfig where
  network : String
  bridge : String
  ipv4Subnet : String
  ipv4Gw : String
  dockerIpv4Gw : String := ""
  deriving DecidableEq

/-- An entry of the wishlist of web interfaces of a node: the port inside the device. -/
structure WebUISpec where
  containerPort : Int
  deriving DecidableEq

/-- The pool of host-side ports of web interfaces. -/
structure WebUIPortsCfg where
  portRange : String := "8443-8999"
  bindIp : String := "127.0.0.1"
  deriving DecidableEq

/-- The parsed topology. -/
structure DistributedTopology where
  name : String
  master : InfraHost
  workers : Dict String InfraHost
  underlayIface : String
  nodes : Dict String VDNode
  links : List Link
  mgmt : MgmtConfig
  realNets : Dict String RealNet := ∅
  realNetLinks : List RealNetLink := []
  webuiWishlist : Dict String (List WebUISpec) := ∅
  nodeOverrides : Dict String (Dict String String) := ∅
  webuiPorts : WebUIPortsCfg := {}
  persistenceRoot : String := "/var/lib/docker/dnlab-backups"
  /-- `jumphost_net.network`. -/
  jumphostNetwork : String := "dnlab-jumphost"

namespace DistributedTopology

variable (topo : DistributedTopology)

/-- All hosts, the master first: `{"master": master, **workers}`. -/
def allHosts : Dict String InfraHost :=
  ((∅ : Dict String InfraHost).set "master" topo.master).update topo.workers.items

end DistributedTopology

end Dnlab
