import Dnlab.Services.Config
import Dnlab.Services.MgmtIps

/-!
# Management subnets

After `services/config.py`: `_resolve_mgmt_config` gives a lab its management
network. A network that the topology asks for must not overlap with the one of
an active lab; otherwise the search starts at the default and goes up in steps
of its size (`freeMgmtSubnet`). The addresses end at some point, and then the
search ends with an error of the address, not of the configuration.
-/

namespace Dnlab.Config

open Ip (Network AnyNetwork)

/-- What the state file of a deployed lab says about its management network. -/
structure ActiveState where
  labName : Option String
  /-- `mgmt.subnet`. -/
  subnet : Option String

/-- `_active_mgmt_networks(current_lab)`: the networks of deployed labs, except the current one. -/
def activeMgmtNetworks (states : List ActiveState) (currentLab : String) : List AnyNetwork :=
  states.filterMap fun state =>
    if state.labName = some currentLab then none
    else if state.subnet.getD "" = "" then none
    else (AnyNetwork.parse (state.subnet.getD "")).toOption

/-- `_next_mgmt_subnet(subnet)`: the network of the same size after this one. -/
def nextMgmtSubnet (subnet : Network) : Except Err Network :=
  let nextAddr := subnet.address + subnet.numAddresses
  if nextAddr ≥ 2 ^ 32 then
    .error ⟨.value, toString nextAddr ++ " (>= 2**32) is not permitted as an IPv4 address"⟩
  else
    match Network.parse (Ip.text nextAddr ++ "/" ++ toString subnet.prefixlen) with
    | .error e => .error ⟨.value, e⟩
    | .ok next => .ok next

/-- `any(subnet.overlaps(used) for used in active)`. -/
def isUsed (active : List AnyNetwork) (subnet : Network) : Bool :=
  active.any (AnyNetwork.overlapsV4 subnet)

section Next

variable {subnet next : Network}

theorem exists_next (hend : subnet.address + subnet.numAddresses < 2 ^ 32) :
    ∃ after : Network, after.address = subnet.address + subnet.numAddresses ∧
      after.prefixlen = subnet.prefixlen :=
  ⟨{  address := subnet.address + subnet.numAddresses
      prefixlen := subnet.prefixlen
      prefixlen_le := subnet.prefixlen_le
      address_lt := hend
      dvd_address := (Nat.dvd_add_right subnet.dvd_address).2 dvd_rfl }, rfl, rfl⟩

/-- The next network starts where this one ends, if there are addresses left. -/
theorem nextMgmtSubnet_eq_ok : nextMgmtSubnet subnet = .ok next ↔
    next.address = subnet.address + subnet.numAddresses ∧ next.prefixlen = subnet.prefixlen := by
  rw [nextMgmtSubnet]
  split_ifs with hend
  · constructor
    · intro h
      cases h
    · rintro ⟨haddr, -⟩
      have := next.address_lt
      omega
  · obtain ⟨after, haddr, hpre⟩ := exists_next (not_le.1 hend)
    have hparse : Network.parse (Ip.text after.address ++ "/" ++ toString after.prefixlen) =
        .ok after := Network.parse_text after
    rw [← haddr, ← hpre, hparse]
    simp only [Except.ok.injEq]
    constructor
    · rintro rfl
      exact ⟨rfl, rfl⟩
    · rintro ⟨haddr', hpre'⟩
      exact (Network.ext haddr' hpre').symm

theorem nextMgmtSubnet_error {e : Err} (h : nextMgmtSubnet subnet = .error e) :
    e.kind = .value ∧ 2 ^ 32 ≤ subnet.address + subnet.numAddresses := by
  by_cases hend : subnet.address + subnet.numAddresses ≥ 2 ^ 32
  · rw [nextMgmtSubnet, if_pos hend] at h
    exact ⟨(Except.error.inj h) ▸ rfl, hend⟩
  · obtain ⟨after, haddr, hpre⟩ := exists_next (not_le.1 hend)
    rw [nextMgmtSubnet_eq_ok.2 ⟨haddr, hpre⟩] at h
    cases h

theorem lt_of_nextMgmtSubnet (h : nextMgmtSubnet subnet = .ok next) :
    subnet.address < next.address := by
  rw [(nextMgmtSubnet_eq_ok.1 h).1]
  exact Nat.lt_add_of_pos_right Network.numAddresses_pos

end Next

/-- `while any(subnet.overlaps(used) for used in active): subnet = _next_mgmt_subnet(subnet)`. -/
def freeMgmtSubnet (active : List AnyNetwork) (subnet : Network) : Except Err Network :=
  if isUsed active subnet then
    match _h : nextMgmtSubnet subnet with
    | .error e => .error e
    | .ok next => freeMgmtSubnet active next
  else .ok subnet
termination_by 2 ^ 32 - subnet.address
decreasing_by
  have hlt := lt_of_nextMgmtSubnet _h
  have hend := next.address_lt
  omega

/-- What the topology asks for. -/
structure MgmtRequest where
  /-- `mgmt.ipv4-subnet`. -/
  ipv4Subnet : Option String := none
  /-- `mgmt.ipv6-subnet`. -/
  ipv6Subnet : Option String := none

/-- The management network of a lab. -/
structure ResolvedMgmt where
  ipv4Subnet : String
  /-- The jump host. -/
  ipv4Gw : String
  dockerIpv4Gw : String
  ipv6Subnet : String
  ipv6Gw : String
  deriving DecidableEq

/-- `_resolve_mgmt_ipv6_subnet(mgmt_cfg, ipv4_subnet)`. -/
def resolveMgmtIpv6Subnet (request : MgmtRequest) (ipv4Subnet : String) : Except Err String :=
  let requested := Text.stripSpaces (request.ipv6Subnet.getD "")
  if requested ≠ "" then
    match Ip6.Network.parse requested with
    | .error e =>
      .error (configError ("Invalid mgmt.ipv6-subnet " ++ Text.repr requested ++ ": " ++ e))
    | .ok subnet =>
      if subnet.isMapped then MgmtIps.deriveIpv6SubnetFromIpv4 ipv4Subnet else .ok subnet.text
  else (MgmtIps.deriveIpv6SubnetFromIpv4 ipv4Subnet).mapError fun e => configError e.message

/-- The rest of `_resolve_mgmt_config`, once the subnet is known. -/
def resolveWithin (request : MgmtRequest) (subnet : Network) : Except Err ResolvedMgmt := do
  let reserved ← (MgmtIps.ipv4Reservations subnet.text).mapError fun e => configError e.message
  let ipv6Subnet ← resolveMgmtIpv6Subnet request subnet.text
  let ipv6Gw ← MgmtIps.ipv6Gateway ipv6Subnet
  pure
    { ipv4Subnet := subnet.text
      ipv4Gw := Ip.text reserved.jumphost
      dockerIpv4Gw := Ip.text reserved.dockerGw
      ipv6Subnet := ipv6Subnet
      ipv6Gw := ipv6Gw }

/-- `_resolve_mgmt_config(lab_name, mgmt_cfg, hosts)`, with the default subnet of the hosts and the
    state files that are there. -/
def resolveMgmtConfig (labName : String) (request : MgmtRequest) (defaultSubnet : String)
    (states : List ActiveState) : Except Err ResolvedMgmt :=
  let active := activeMgmtNetworks states labName
  let requested := request.ipv4Subnet.getD ""
  if requested ≠ "" then
    match Network.parse requested with
    | .error e =>
      .error (configError ("Invalid mgmt.ipv4-subnet " ++ Text.repr requested ++ ": " ++ e))
    | .ok subnet =>
      match active.find? (AnyNetwork.overlapsV4 subnet) with
      | some used => .error (configError ("mgmt.ipv4-subnet " ++ subnet.text ++
          " overlaps with active lab mgmt subnet " ++ used.text ++ ". Choose a unique mgmt subnet " ++
          "or clear the custom mgmt subnet to use auto-assignment."))
      | none => resolveWithin request subnet
  else
    match Network.parse defaultSubnet with
    | .error e =>
      .error (configError ("Invalid default mgmt subnet " ++ Text.repr defaultSubnet ++ ": " ++ e))
    | .ok subnet => do
      let subnet ← freeMgmtSubnet active subnet
      resolveWithin request subnet

end Dnlab.Config
