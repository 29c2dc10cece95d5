import Dnlab.Models.Topology
import Dnlab.Services.MgmtIps
import Mathlib.Data.List.Sort
import Mathlib.Data.String.Basic

/-!
# Management addresses of devices

After `services/config.py`: `assign_sticky_mgmt_ipv4` gives every device an
address of the management network, in three passes over a ledger that is edited
on the way (`Ledger`). The reservations of before are carried over as far as
they are valid; the addresses that the topology gives evict whoever had them;
and every other device keeps its address or gets the first free one.
-/

namespace Dnlab.Config

open Ip (Network)

/-- `ConfigError`. -/
def configError (message : String) : Err := ⟨.config, message⟩

/-- The reservations while they are edited: the address of a device, and the device of an
    address. -/
structure Ledger where
  sticky : Dict String String
  ipOwner : Dict ℕ String

/-- Nothing reserved. -/
def Ledger.empty : Ledger := ⟨∅, ∅⟩

/-- An address written down for a device. -/
def Ledger.assign (L : Ledger) (name : String) (ip : ℕ) : Ledger where
  sticky := L.sticky.set name (Ip.text ip)
  ipOwner := L.ipOwner.set ip name

section Passes

variable (net : Network) (reserved : List ℕ)

/-! ## The passes -/

/-- Carry over the reservation of one owner, if it is valid and not a duplicate. -/
def carry (L : Ledger) (e : String × String) : Ledger :=
  match Ip.parse e.2 with
  | .error _ => L
  | .ok ip =>
    if ¬net.contains ip then L
    else if ip ∈ reserved then L
    else if L.ipOwner.contains ip then L
    else L.assign e.1 ip

/-- The reservations of before that are valid. -/
def carried (reservations : Dict String String) : Ledger :=
  reservations.items.foldl (carry net reserved) .empty

/-- The address that a device claims, if it may. -/
def explicitIp (seen : Dict ℕ String) (name mgmtIpv4 : String) : Except Err ℕ :=
  match Ip.parse mgmtIpv4 with
  | .error e => .error (configError ("node " ++ Text.repr name ++ " has invalid mgmt-ipv4 " ++
      Text.repr mgmtIpv4 ++ ": " ++ e))
  | .ok ip =>
    if ¬net.contains ip then
      .error (configError ("node " ++ Text.repr name ++ " mgmt-ipv4 " ++ Ip.text ip ++
        " is outside mgmt subnet " ++ net.text))
    else if ip ∈ reserved then
      .error (configError ("node " ++ Text.repr name ++ " mgmt-ipv4 " ++ Ip.text ip ++
        " is reserved for mgmt infrastructure"))
    else
      match seen.get? ip with
      | some other => .error (configError ("duplicate explicit mgmt-ipv4 " ++ Ip.text ip ++
          " on nodes " ++ Text.repr name ++ " and " ++ Text.repr other))
      | none => .ok ip

/-- The ledger after a device has claimed an address: the owner of before, if it has a name and is
    another one, loses what is written down for it. -/
def claim (L : Ledger) (name : String) (ip : ℕ) : Ledger :=
  let evicted : Ledger :=
    match L.ipOwner.get? ip with
    | some previousOwner =>
      if previousOwner ≠ "" ∧ previousOwner ≠ name then
        { L with sticky := L.sticky.erase previousOwner }
      else L
    | none => L
  evicted.assign name ip

/-- The devices with an address of their own claim it, in order. -/
def claimAll : (L : Ledger) → (seen : Dict ℕ String) → List (String × VDNode) → Except Err Ledger
  | L, _, [] => .ok L
  | L, seen, (name, node) :: nodes =>
    if ¬node.mgmtIpv4Explicit then claimAll L seen nodes
    else do
      let ip ← explicitIp net reserved seen name node.mgmtIpv4
      claimAll (claim L name ip) (seen.set ip name) nodes

/-- The address that is written down for a device, if the device is still its owner. -/
def ownIp (L : Ledger) (name : String) : Option ℕ :=
  match L.sticky.get? name with
  | none => none
  | some previous =>
    if previous = "" then none
    else
      match Ip.parse previous with
      | .error _ => none
      | .ok ip => if L.ipOwner.get? ip = some name then some ip else none

/-- The first host that is neither reserved nor owned. -/
def freeIp (L : Ledger) : Option ℕ :=
  net.hosts.find? fun ip => !(reserved.contains ip || L.ipOwner.contains ip)

/-- The address of a device without one of its own, and the ledger then. -/
def settle (L : Ledger) (name : String) : Except Err (String × Ledger) :=
  match ownIp L name with
  | some ip => .ok (Ip.text ip, { L with sticky := L.sticky.set name (Ip.text ip) })
  | none =>
    match freeIp net reserved L with
    | some ip => .ok (Ip.text ip, L.assign name ip)
    | none => .error (configError ("mgmt pool " ++ net.text ++ " exhausted; cannot assign node " ++
        Text.repr name))

/-- The addresses of devices without one of their own, in order. -/
def settleAll : Ledger → List String → Except Err (List (String × String) × Ledger)
  | L, [] => .ok ([], L)
  | L, name :: names => do
    let (ip, L) ← settle net reserved L name
    let (given, L) ← settleAll L names
    pure ((name, ip) :: given, L)

end Passes

/-- Whether a device has an address of its own. -/
def isExplicit (nodes : Dict String VDNode) (name : String) : Bool :=
  ((nodes.get? name).map (·.mgmtIpv4Explicit)).getD false

/-- The devices without an address of their own, sorted. -/
def implicitNames (nodes : Dict String VDNode) : List String :=
  (nodes.keys.insertionSort fun a b => a.toList ≤ b.toList).filter fun name =>
    !isExplicit nodes name

/-- The addresses of all devices, when those without one of their own are given theirs. -/
def addressesOf (nodes : Dict String VDNode) (given : List (String × String)) :
    Dict String String :=
  nodes.map fun name node => (Dict.ofList given).getD name node.mgmtIpv4

/-- `assign_sticky_mgmt_ipv4(nodes, mgmt, reservations)`: the addresses of all devices, and the
    reservations. -/
def assignStickyMgmtIpv4 (nodes : Dict String VDNode) (mgmt : MgmtConfig)
    (reservations : Dict String String) :
    Except Err (Dict String String × Dict String String) :=
  match Network.parse mgmt.ipv4Subnet with
  | .error e =>
    match Ip.AnyNetwork.parse mgmt.ipv4Subnet with
    | .error e' => .error (configError ("Invalid mgmt.ipv4-subnet " ++ Text.repr mgmt.ipv4Subnet ++
        ": " ++ e'))
    -- A network of version 6 gets as far as the reservations.
    | .ok _ => .error (configError ("invalid IPv4 mgmt subnet " ++ Text.repr mgmt.ipv4Subnet ++
        ": " ++ e))
  | .ok net =>
    match MgmtIps.reservationsOf net with
    | .error e => .error (configError e.message)
    | .ok r => do
      let L ← claimAll net r.toList (carried net r.toList reservations) ∅ nodes.items
      let (given, L) ← settleAll net r.toList L (implicitNames nodes)
      pure (addressesOf nodes given, L.sticky)

end Dnlab.Config
