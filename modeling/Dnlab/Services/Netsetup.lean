import Dnlab.Models.Schedule
import Dnlab.Models.Topology
import Dnlab.Services.Remote
import Dnlab.Utils.Ids
import Dnlab.Utils.Naming

/-!
# The management network of a host

The commands that set the management network of a lab up on a host and take it
down, after `services/netsetup.py`. None of them is checked: one that fails
leaves the host as it is, and the next one is run. What a command does when it
succeeds is modelled for the interfaces of the host; it may also fail for any
reason.
-/

namespace Dnlab.Netsetup

/-! ## The commands -/

/-- The interfaces that are created. -/
inductive LinkKind
  | vrf (table : ℕ)
  | bridge
  | vxlan (id : ℕ) (underlay : String)
  deriving DecidableEq

/-- The words after the name in `ip link add`. -/
def LinkKind.text : LinkKind → String
  | vrf table => "type vrf table " ++ toString table
  | bridge => "type bridge"
  | vxlan id underlay =>
    "type vxlan id " ++ toString id ++ " dstport 4789 dev " ++ underlay ++ " nolearning"

/-- The commands. A name in one is a single word. -/
inductive NetCmd
  | linkAdd (name : String) (kind : LinkKind)
  | linkUp (name : String)
  | linkMaster (name master : String)
  | linkDelete (name : String)
  | addrAdd (address dev : String)
  | firewallAllow (direction bridge comment : String)
  | firewallRemove (direction bridge comment : String)
  | fdbAppend (dev dst : String)
  | stopDnsmasq (pidFile : String)
  deriving DecidableEq

namespace NetCmd

/-- A firewall rule for a bridge with `verb`. -/
def rule (verb direction bridge comment : String) : String :=
  "iptables " ++ verb ++ " -" ++ direction ++ " " ++ bridge ++ " -m comment --comment '" ++ comment ++
    "' -j ACCEPT"

/-- The command line. -/
def text : NetCmd → String
  | linkAdd name kind => "ip link add " ++ name ++ " " ++ kind.text
  | linkUp name => "ip link set " ++ name ++ " up"
  | linkMaster name master => "ip link set " ++ name ++ " master " ++ master
  | linkDelete name => "ip link delete " ++ name ++ " 2>/dev/null"
  | addrAdd address dev => "ip addr add " ++ address ++ " dev " ++ dev
  | firewallAllow d b c =>
    rule "-C DOCKER-USER" d b c ++ " 2>/dev/null || " ++ rule "-I DOCKER-USER 1" d b c
  | firewallRemove d b c =>
    "while " ++ rule "-C DOCKER-USER" d b c ++ " 2>/dev/null; do " ++ rule "-D DOCKER-USER" d b c ++
      "; done"
  | fdbAppend dev dst => "bridge fdb append 00:00:00:00:00:00 dev " ++ dev ++ " dst " ++ dst
  | stopDnsmasq f => "[ -f " ++ f ++ " ] && kill $(cat " ++ f ++ ") 2>/dev/null; rm -f " ++ f

end NetCmd

/-- The comment of the firewall rules of a lab. -/
def firewallComment (labName : String) : String := "dnlab mgmt " ++ labName

/-- `_install_mgmt_bridge_firewall_rules`. -/
def installMgmtBridgeFirewallRules (bridge labName : String) : List NetCmd :=
  ["i", "o"].map fun direction => .firewallAllow direction bridge (firewallComment labName)

/-- `_remove_mgmt_bridge_firewall_rules`. -/
def removeMgmtBridgeFirewallRules (bridge labName : String) : List NetCmd :=
  ["i", "o"].map fun direction => .firewallRemove direction bridge (firewallComment labName)

/-- The commands of `setup_mgmt_infra`; an exception comes before all of them. -/
def setupMgmtInfra (topo : DistributedTopology) (plan : SchedulePlan) (hostName : String)
    (allHostIps : Dict String String) : Except Err (List NetCmd) :=
  let lab := topo.name
  let vrf := Naming.vrfName lab
  let bridge := topo.mgmt.bridge
  let vxlanIface := Naming.mgmtVxlanIface lab
  let gw := Text.orElse topo.mgmt.dockerIpv4Gw topo.mgmt.ipv4Gw
  match (Text.split '/' topo.mgmt.ipv4Subnet)[1]?, allHostIps.get? hostName with
  | none, _ => .error ⟨.other, "list index out of range"⟩
  | some _, none => .error ⟨.key, Text.repr hostName⟩
  | some prefixLen, some _ => .ok (
    [.linkAdd vrf (.vrf plan.vrfTableId),
      .linkUp vrf,
      .linkAdd bridge .bridge,
      .linkUp bridge,
      .linkMaster bridge vrf,
      .addrAdd (gw ++ "/" ++ prefixLen) bridge,
      .linkAdd vxlanIface (.vxlan plan.mgmtVxlanId topo.underlayIface),
      .linkMaster vxlanIface bridge,
      .linkUp vxlanIface] ++
    installMgmtBridgeFirewallRules bridge lab ++
    (allHostIps.items.filter fun (other, _) => other ≠ hostName).map fun (_, ip) =>
      .fdbAppend vxlanIface ip)

/-- The commands of `teardown_mgmt_infra`. -/
def teardownMgmtInfra (labName bridge : String) : List NetCmd :=
  [.stopDnsmasq ("/var/run/dnsmasq-" ++ labName ++ ".pid")] ++
    removeMgmtBridgeFirewallRules bridge labName ++
    [Naming.mgmtVxlanIface labName, bridge, Naming.vrfName labName].map .linkDelete

example : ((teardownMgmtInfra "demo" "br-demo").map NetCmd.text).drop 3 =
    ["ip link delete vx-demo-mgmt 2>/dev/null", "ip link delete br-demo 2>/dev/null",
      "ip link delete vrf-demo 2>/dev/null"] := by decide

/-! ## The host -/

/-- An interface of a host. -/
structure NetLink where
  kind : LinkKind
  master : Option String := none
  up : Bool := false
  deriving DecidableEq

/-- The interfaces of a host. -/
structure Host where
  links : Dict String NetLink

namespace NetCmd

/-- What a command does to a host when it succeeds, if it can: an interface that exists is not
    created again, and one that is deleted no longer holds others. -/
def effect (cmd : NetCmd) (h : Host) : Option Host :=
  match cmd with
  | linkAdd name kind =>
    if h.links.contains name then none else some ⟨h.links.set name { kind }⟩
  | linkUp name =>
    if h.links.contains name then some ⟨h.links.modify name fun l => { l with up := true }⟩ else none
  | linkMaster name master =>
    if h.links.contains name ∧ h.links.contains master then
      some ⟨h.links.modify name fun l => { l with master := some master }⟩
    else none
  | linkDelete name =>
    if h.links.contains name then
      some ⟨(h.links.erase name).map fun _ l =>
        if l.master = some name then { l with master := none } else l⟩
    else none
  | _ => some h

/-- What may come of a command. -/
def Outcome (cmd : NetCmd) (h h' : Host) : Prop := h' = h ∨ cmd.effect h = some h'

end NetCmd

/-- A command that was run, and the host before and after. -/
structure Change where
  cmd : NetCmd
  before : Host
  after : Host

/-- The runs of a list of commands on a host, which may break off. -/
inductive Executes : List NetCmd → Host → List Change → Host → Prop
  | stop {cmds : List NetCmd} {h : Host} : Executes cmds h [] h
  | run {cmd : NetCmd} {cmds : List NetCmd} {h h' h'' : Host} {changes : List Change}
    (hcmd : cmd.Outcome h h') (hrest : Executes cmds h' changes h'') :
    Executes (cmd :: cmds) h (⟨cmd, h, h'⟩ :: changes) h''

/-! ## Labs on a host -/

/-- A call for a lab, with the names and numbers that are derived from the name of the lab. -/
inductive LabCall (lab : String)
  | setup (topo : DistributedTopology) (plan : SchedulePlan) (hostName : String)
    (allHostIps : Dict String String) (hname : topo.name = lab)
    (hbridge : topo.mgmt.bridge = Naming.mgmtBridgeName lab)
    (htable : plan.vrfTableId = Ids.vrfTableId lab) (hid : plan.mgmtVxlanId = Ids.mgmtVxlanId lab)
  | teardown

/-- The commands of a call. -/
def LabCall.commands {lab : String} : LabCall lab → List NetCmd
  | setup topo plan hostName allHostIps _ _ _ _ =>
    (setupMgmtInfra topo plan hostName allHostIps).toOption.getD []
  | teardown => teardownMgmtInfra lab (Naming.mgmtBridgeName lab)

/-- What happened on a host, and for which lab. -/
structure Step where
  lab : String
  change : Change

/-- The runs of calls for two labs on a common host, in any order. -/
inductive Run (a b : String) : Host → List Step → Host → Prop
  | start {h : Host} : Run a b h [] h
  | call {h h' h'' : Host} {steps : List Step} {changes : List Change} {lab : String}
    (hrun : Run a b h steps h') (hlab : lab = a ∨ lab = b) (c : LabCall lab)
    (hexec : Executes c.commands h' changes h'') :
    Run a b h (steps ++ changes.map (⟨lab, ·⟩)) h''

end Dnlab.Netsetup
