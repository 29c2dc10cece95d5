import Dnlab.Lib.Prog
import Dnlab.Models.State
import Dnlab.Models.Topology
import Dnlab.Services.Remote
import Dnlab.Utils.Ids
import Dnlab.Utils.Naming
import Mathlib.Data.List.Sort
import Mathlib.Data.String.Basic

/-!
# The fabric of the real networks

`setup_bridges` of `services/realnet.py`: a bridge for each real network on
every host that takes part in it, and a tunnel between each worker and the
master. What the commands do to the interfaces of a host is modelled by their
names: an interface that exists is not created again, and one that is in the way
of a tunnel is deleted. A host has one tunnel with a number at a port, whatever
its ends: it takes no second one. It may also refuse any command. Both raise an
exception where the exit code is checked.
-/

namespace Dnlab.Realnet

/-! ## The commands -/

/-- The port of the tunnels of real networks. -/
def tunnelPort : ℕ := 14789

/-- One end of a tunnel. -/
structure Tunnel where
  vni : ℕ
  remote : String
  localIp : String
  port : ℕ := tunnelPort
  dev : String
  deriving DecidableEq

/-- The command lines, one constructor for each. -/
inductive RealnetCmd
  | ensureBridge (bridge : String)
  | allowForwarding (bridge : String)
  | replaceVxlan (iface : String) (tunnel : Tunnel) (bridge : String)
  deriving DecidableEq

namespace RealnetCmd

/-- A firewall rule for a bridge with `verb`. -/
def rule (verb direction bridge : String) : String :=
  "iptables " ++ verb ++ " -" ++ direction ++ " " ++ bridge ++
    " -m comment --comment 'dnlab real_net " ++ bridge ++ "' -j ACCEPT"

/-- The command line. -/
def text : RealnetCmd → String
  | ensureBridge b =>
    "ip link show " ++ b ++ " >/dev/null 2>&1 || ip link add " ++ b ++ " type bridge; ip link set " ++
      b ++ " up"
  | allowForwarding b =>
    Text.join "; " (["i", "o"].map fun d =>
      rule "-C FORWARD" d b ++ " 2>/dev/null || " ++ rule "-I FORWARD 1" d b)
  | replaceVxlan i t b =>
    "ip link del " ++ i ++ " 2>/dev/null || true; ip link add " ++ i ++ " type vxlan id " ++
      toString t.vni ++ " remote " ++ t.remote ++ " local " ++ t.localIp ++ " dstport " ++
      toString t.port ++ " dev " ++ t.dev ++ "; ip link set " ++ i ++ " master " ++ b ++
      "; ip link set " ++ i ++ " up"

/-- Whether the exit code is checked. -/
def checked : RealnetCmd → Bool
  | allowForwarding _ => false
  | _ => true

end RealnetCmd

/-! ## The hosts -/

/-- What an interface is: `other` is one that is no tunnel and no bridge and can be deleted. -/
inductive IfaceKind
  | bridge
  | vxlan (tunnel : Tunnel)
  | other
  deriving DecidableEq

/-- An interface of a host. -/
structure Iface where
  kind : IfaceKind
  master : Option String := none
  up : Bool := false
  deriving DecidableEq

/-- The interfaces of a host by name. -/
abbrev Ifaces := Dict String Iface

/-- `ip link del`: what it held is let go. -/
def deleteLink (i : String) (links : Ifaces) : Ifaces :=
  (links.erase i).map fun _ l => if l.master = some i then { l with master := none } else l

/-- `ip link set … up`. -/
def linkUp (i : String) (links : Ifaces) : Ifaces := links.modify i fun l => { l with up := true }

/-- Whether there is a bridge of that name. -/
def isBridge (b : String) (links : Ifaces) : Bool :=
  (links.get? b).any fun l => l.kind = .bridge

/-- `ip link set … master …`, which takes a bridge. -/
def enslave (i b : String) (links : Ifaces) : Ifaces :=
  if isBridge b links then links.modify i fun l => { l with master := some b } else links

/-- Whether an interface is a tunnel with this number at this port. -/
def IfaceKind.numbered (vni port : ℕ) : IfaceKind → Bool
  | .vxlan t => t.vni = vni && t.port = port
  | _ => false

/-- `ip link del … || true`. -/
def clear (i : String) (links : Ifaces) : Ifaces :=
  if links.contains i then deleteLink i links else links

/-- Whether a tunnel cannot be added, since there is one with its number at its port
    (`RTNETLINK answers: File exists`). -/
def taken (t : Tunnel) (links : Ifaces) : Bool :=
  links.values.any fun l => l.kind.numbered t.vni t.port

/-- What a command does to a host that does not refuse it. -/
def RealnetCmd.effect : RealnetCmd → Ifaces → Ifaces
  | ensureBridge b, links =>
    linkUp b (if links.contains b then links else links.set b { kind := .bridge })
  | allowForwarding _, links => links
  | replaceVxlan i t b, links =>
    let links := clear i links
    if taken t links then links else linkUp i (enslave i b (links.set i { kind := .vxlan t }))

/-- Whether the last command of a line, which sets an interface up, finds the interface. -/
def RealnetCmd.succeeds : RealnetCmd → Ifaces → Bool
  | replaceVxlan i t _, links => !taken t (clear i links)
  | _, _ => true

/-- The hosts with their interfaces. -/
abbrev Net := String → Ifaces

/-- A command on one of the hosts. -/
abbrev Act := String × RealnetCmd

/-- What a command does when it is not refused. -/
def Act.apply (net : Net) (a : Act) : Net := Function.update net a.1 (a.2.effect (net a.1))

/-- What is not known of the hosts: which commands they refuse, and in which order a set of them is
    gone through. -/
structure Machines (ρ : Type) where
  refuses : (host : String) → RealnetCmd → ρ → Bool × ρ
  inOrder : List String → List String
  inOrder_perm : ∀ hosts, (inOrder hosts).Perm hosts

/-- The hosts as a run sees them. -/
structure Hosts (ρ : Type) where
  env : ρ
  net : Net

/-! ## The program -/

section Program

variable {ρ : Type} (M : Machines ρ)

/-- `client.run(command, check=…)` on a host with that address. -/
def exec (address : String) (a : Act) : Prog (Hosts ρ) Err Unit := fun s =>
  let (refused, env) := M.refuses a.1 a.2 s.env
  let net := if refused then s.net else Act.apply s.net a
  if a.2.checked ∧ (refused ∨ !a.2.succeeds (s.net a.1)) then
    (.error ⟨.ssh, "[" ++ address ++ "] Command failed: " ++ a.2.text⟩, ⟨env, net⟩)
  else (.ok (), ⟨env, net⟩)

/-- `d[key]`. -/
def lookup {α : Type} (d : Dict String α) (key : String) : Except Err α :=
  match d.get? key with
  | some v => .ok v
  | none => .error ⟨.key, "'" ++ key ++ "'"⟩

/-- `sorted(names)`. -/
def sorted (names : List String) : List String :=
  names.insertionSort fun a b => a.toList ≤ b.toList

/-- `participating_hosts(topo, real_net)`. -/
def participatingHosts (topo : DistributedTopology) (realNet : String) : List String :=
  ((topo.realNetLinks.filter fun l => l.realNet = realNet ∧ l.host ≠ "").map (·.host)).dedup

/-- The hosts of a real network besides the master. -/
def workers (topo : DistributedTopology) (realNet : String) : List String :=
  (participatingHosts topo realNet).filter (· ≠ "master")

/-- The interface of the master towards a worker. -/
def peerIface (labName realNet host : String) : String :=
  Text.first Naming.maxIfaceLen (Naming.realnetVxlanIface labName realNet ++ "-" ++ host)

/-- The two ends of the tunnel between a worker and the master. -/
def connect (topo : DistributedTopology) (clients : Clients) (underlay : Dict String String)
    (masterIp : String) (vni : ℕ) (realNet host : String) : Prog (Hosts ρ) Err Unit := do
  let bridge := Naming.realnetBridgeName topo.name realNet
  let vxIface := Naming.realnetVxlanIface topo.name realNet
  let client ← .ofExcept (lookup clients host)
  let hostIp ← .ofExcept (lookup underlay host)
  exec M client.host
    (host, .replaceVxlan vxIface
      { vni := vni, remote := masterIp, localIp := hostIp, dev := topo.underlayIface } bridge)
  let master ← .ofExcept (lookup clients "master")
  exec M master.host ("master", .replaceVxlan (peerIface topo.name realNet host)
    { vni := vni, remote := hostIp, localIp := masterIp, dev := topo.underlayIface } bridge)

/-- One real network, the `index`-th one. -/
def setupBridge (topo : DistributedTopology) (clients : Clients) (underlay : Dict String String)
    (masterIp : String) (index : ℕ) (realNet : String) : Prog (Hosts ρ) Err (Option RealNetState) :=
  if participatingHosts topo realNet = [] then pure none
  else do
    let hosts := "master" :: workers topo realNet
    let bridge := Naming.realnetBridgeName topo.name realNet
    let vni := Ids.realnetVxlanId topo.name index
    .forEach (M.inOrder hosts) fun host => do
      let client ← .ofExcept (lookup clients host)
      exec M client.host (host, .ensureBridge bridge)
      exec M client.host (host, .allowForwarding bridge)
    .forEach (sorted (workers topo realNet)) fun host =>
      connect M topo clients underlay masterIp vni realNet host
    pure (some
      { name := realNet
        bridge := bridge
        vxlanId := vni
        hosts := sorted hosts
        routerContainer := Naming.realnetRouterContainerName topo.name realNet })

/-- `setup_bridges(topo, clients, underlay_ips)`. -/
def setupBridges (topo : DistributedTopology) (clients : Clients) (underlay : Dict String String) :
    Prog (Hosts ρ) Err (List RealNetState) := do
  let masterIp ← .ofExcept (lookup underlay "master")
  let states ← .mapEach topo.realNets.keys.zipIdx fun (realNet, index) =>
    setupBridge M topo clients underlay masterIp index realNet
  pure (states.filterMap id)

end Program

example : peerIface "My Lab!" "wan-1" "worker12" = "vxmylabwan1-wor" := by decide

end Dnlab.Realnet
