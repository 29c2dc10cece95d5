import Dnlab.Lib.IpAny
import Dnlab.Lib.Value

/-!
# Addresses and AS numbers of real networks

The allocations for the real network of a lab, after
`gui/app/services/realnet_bgp.py`: a LAN network with its gateway
(`normalizeRealnetLan`), and, with BGP, an AS number and an address towards the
route reflector (`allocateForRealnetNode`). What other labs use is collected
from all stored topologies; the record that is edited is told from the others
by comparing fields.
-/

namespace Dnlab.Gui.RealnetBgp

open Ip (AnyAddress AnyNetwork AnyInterface Network)

/-- A step that fails with a message unless all is well. -/
def require (ok : Prop) [Decidable ok] (message : String) : Except String Unit :=
  if ok then .ok () else .error message

/-! ## Configuration -/

/-- `PRIVATE_AS_RANGES`. -/
def privateAsRanges : List (ℤ × ℤ) := [(64512, 65534), (4200000000, 4294967294)]

/-- `RealNetBgpConfig`. -/
structure RealNetBgpConfig where
  rrAs : ℤ := 64512
  rrIp : String := ""
  hostNet : String := ""
  routerAsPool : String := "64513-65534"
  routerIpPool : String := ""
  realnetNetworkPool : String := "100.64.0.0/10"
  rrPassword : String := ""

/-- `_validate_private_as`. -/
def validatePrivateAs (asn : ℤ) (label : String) : Except String Unit :=
  require (∃ r ∈ privateAsRanges, r.1 ≤ asn ∧ asn ≤ r.2) (label ++ " must be in private BGP AS ranges")

/-- The two sides of `s.split("-", 1)`. -/
def splitRange (s : String) : Option (String × String) :=
  match s.toList.splitOn '-' with
  | _ :: _ :: _ => some (.ofList (s.toList.takeWhile (· ≠ '-')),
      .ofList ((s.toList.dropWhile (· ≠ '-')).drop 1))
  | _ => none

/-- `_parse_as_pool`. -/
def parseAsPool (value : String) : Except String (ℤ × ℤ) :=
  match (splitRange value).bind fun s => (Text.toInt? s.1).bind fun low =>
      (Text.toInt? s.2).map fun high => (low, high) with
  | none => .error "Router AS pool must use '<low>-<high>'"
  | some (low, high) => do
    require (low ≤ high) "Router AS pool low value must be <= high value"
    validatePrivateAs low "router AS pool low"
    validatePrivateAs high "router AS pool high"
    require (∃ r ∈ privateAsRanges, r.1 ≤ low ∧ high ≤ r.2)
      "Router AS pool cannot span different private AS ranges"
    pure (low, high)

/-- The first and the last address of a pool given by a range. -/
def parseIpRange (raw : String) : Except String (AnyAddress × AnyAddress) :=
  match splitRange raw with
  | none => .error "Router IP pool must use CIDR or '<low>-<high>'"
  | some (low, high) =>
    match AnyAddress.parse (Text.stripSpaces low), AnyAddress.parse (Text.stripSpaces high) with
    | .ok low, .ok high =>
      if low.version ≠ high.version ∨ high.number < low.number then
        .error "Router IP pool range is invalid"
      else .ok (low, high)
    | _, _ => .error "Router IP pool must use CIDR or '<low>-<high>'"

/-- `_parse_ip_pool`, its addresses before they are printed. -/
def parseIpPool (value : String) : Except String (List AnyAddress) :=
  let raw := Text.stripSpaces value
  if raw = "" then .ok []
  else if raw.toList.contains '/' then
    match AnyNetwork.parse raw with
    | .error e => .error ("Invalid Router IP pool: " ++ e)
    | .ok net => .ok net.hosts
  else (parseIpRange raw).map fun r =>
    (List.range' r.1.number (r.2.number + 1 - r.1.number)).map AnyAddress.ofNumber

/-- `_parse_realnet_network_pool`. -/
def parseRealnetNetworkPool (value : String) : Except String Network :=
  match AnyNetwork.parse (Text.stripSpaces value) with
  | .error e => .error ("RealNet node network pool invalid: " ++ e)
  | .ok (.v6 _) => .error "RealNet node network pool must be IPv4"
  | .ok (.v4 pool) => do
    require (pool.prefixlen ≤ 24) "RealNet node network pool must contain at least one /24"
    pure pool

/-- `_validate_bgp_password`. -/
def validateBgpPassword (value label : String) : Except String Unit := do
  require (1 ≤ value.toList.length ∧ value.toList.length ≤ 80) (label ++ " must be 1-80 characters")
  require (¬value.toList.any Text.isSpace) (label ++ " cannot contain whitespace")

/-- The route reflector and its network, if they fit together. -/
def validateEndpoint (cfg : RealNetBgpConfig) : Except String Unit := do
  require (cfg.rrIp ≠ "") "RR IP is required"
  require (cfg.hostNet ≠ "") "Host network is required"
  match AnyAddress.parse cfg.rrIp, AnyNetwork.parse cfg.hostNet with
  | .ok rrIp, .ok hostNet => require (hostNet.contains rrIp) "RR IP must belong to Host network"
  | .error e, _ => throw ("Invalid RR IP or host network: " ++ e)
  | _, .error e => throw ("Invalid RR IP or host network: " ++ e)

/-- `validate_config`. -/
def validateConfig (cfg : RealNetBgpConfig) (requireEndpoint : Bool) : Except String Unit := do
  validatePrivateAs cfg.rrAs "RR AS"
  let _ ← parseAsPool cfg.routerAsPool
  if requireEndpoint ∨ cfg.rrIp ≠ "" ∨ cfg.hostNet ≠ "" then validateEndpoint cfg
  if cfg.routerIpPool ≠ "" then do
    let _ ← parseIpPool cfg.routerIpPool
  let _ ← parseRealnetNetworkPool cfg.realnetNetworkPool
  if cfg.rrPassword ≠ "" then validateBgpPassword cfg.rrPassword "RR BGP password"

/-! ## Stored topologies -/

/-- A node of a stored topology, as far as the allocations depend on it. -/
structure StoredNode where
  name : String
  kind : String
  extra : Mapping

/-- A topology file; the ones that do not load have no nodes. -/
structure StoredTopology where
  path : String
  nodes : Option (List StoredNode)

/-- The real networks of a topology file. -/
def StoredTopology.realnets (t : StoredTopology) : List StoredNode :=
  (t.nodes.getD []).filter fun n => n.kind = "_real_net"

section Allocate

variable (stored : List StoredTopology) (currentPath : String) (currentExtra : Mapping)

/-! ## BGP -/

/-- The records that count as used: those with BGP, the one aside that is being edited. -/
def bgpRecords : List Mapping :=
  stored.flatMap fun t => (t.realnets.map StoredNode.extra).filter fun extra =>
    (extra.get "bgp").truthy && !(t.path = currentPath &&
      (extra.get "bgp_as").beq (currentExtra.get "bgp_as") &&
      (extra.get "bgp_router_ip").beq (currentExtra.get "bgp_router_ip"))

/-- The AS number of a record, if it has one. -/
def recordAs (extra : Mapping) : Option ℤ :=
  if (extra.get "bgp_as").truthy then (extra.get "bgp_as").toInt? else none

/-- The address of a record, if it has one. -/
def recordIp (extra : Mapping) : Option AnyAddress :=
  if (extra.get "bgp_router_ip").truthy then
    (AnyAddress.parse (extra.get "bgp_router_ip").print).toOption
  else none

/-- `_used_realnet_bgp_allocations`: the AS numbers. -/
def usedAs : List ℤ := (bgpRecords stored currentPath currentExtra).filterMap recordAs

/-- `_used_realnet_bgp_allocations`: the addresses. -/
def usedIp : List String :=
  ((bgpRecords stored currentPath currentExtra).filterMap recordIp).map AnyAddress.text

/-- The numbers from `low` to `high`. -/
def asRange (low high : ℤ) : List ℤ :=
  (List.range (high + 1 - low).toNat).map fun (n : ℕ) => low + (n : ℤ)

/-- `_first_free_as`. -/
def firstFreeAs (pool : String) (used : List ℤ) : Except String ℤ := do
  let (low, high) ← parseAsPool pool
  match (asRange low high).find? (· ∉ used) with
  | some asn => pure asn
  | none => throw "Router AS pool exhausted"

/-- `_first_free_ip`, before it is printed. -/
def firstFreeIp (pool : String) (used : List String) : Except String AnyAddress := do
  let addresses ← parseIpPool pool
  match addresses.find? (·.text ∉ used) with
  | some ip => pure ip
  | none => throw "Router IP pool exhausted"

/-- The AS number of a request: a given one is checked, or else the first free one is taken. -/
def chooseAs (cfg : RealNetBgpConfig) (used : List ℤ) (extra : Mapping) : Except String ℤ :=
  if (extra.get "bgp_as").truthy then
    match (extra.get "bgp_as").toInt? with
    | none => .error "router BGP AS must be an integer"
    | some asn => do
      validatePrivateAs asn "router BGP AS"
      pure asn
  else firstFreeAs cfg.routerAsPool used

/-- The address of a request: a given one is read, or else the first free one is taken. -/
def chooseIp (cfg : RealNetBgpConfig) (used : List String) (extra : Mapping) :
    Except String AnyAddress :=
  if (extra.get "bgp_router_ip").truthy then
    AnyAddress.parse (Text.stripSpaces (extra.get "bgp_router_ip").print)
  else firstFreeIp cfg.routerIpPool used

/-- The password of a request, or a `fresh` one. -/
def choosePassword (fresh : String) (extra : Mapping) : Except String Mapping :=
  if (extra.get "bgp_password").truthy then do
    validateBgpPassword (extra.get "bgp_password").print "router BGP password"
    pure extra
  else pure (extra.set "bgp_password" (.str fresh))

/-- `allocate_for_realnet_node`, with a configuration that the validator has accepted. -/
def allocateForRealnetNode (cfg : RealNetBgpConfig) (fresh : String) : Except String Mapping :=
  if (currentExtra.get "bgp").truthy then do
    let asn ← chooseAs cfg (usedAs stored currentPath currentExtra) currentExtra
    let extra := currentExtra.set "bgp_as" (.int asn)
    if cfg.routerIpPool ≠ "" then do
      let ip ← chooseIp cfg (usedIp stored currentPath currentExtra) extra
      choosePassword fresh (extra.set "bgp_router_ip" (.str ip.text))
    else choosePassword fresh extra
  else pure currentExtra

/-! ## LAN -/

/-- `str(v or "")`. -/
def textOr (v : Value) : String := if v.truthy then v.print else ""

/-- `_network_from_lan_extra`. -/
def networkFromLanExtra (extra : Mapping) : Except String AnyNetwork :=
  let rawNet := Text.stripSpaces (textOr (extra.get "network"))
  let rawGw := Text.stripSpaces (textOr (extra.get "ipv4"))
  if rawNet ≠ "" then
    match AnyNetwork.parse rawNet with
    | .error e => .error ("Invalid RealNet LAN network: " ++ e)
    | .ok (.v6 _) => .error "RealNet LAN network must be IPv4"
    | .ok (.v4 net) => .ok (.v4 net)
  else if rawGw ≠ "" ∧ rawGw.toList.contains '/' then
    match AnyInterface.parse rawGw with
    | .error e => .error ("Invalid RealNet LAN gateway: " ++ e)
    | .ok gateway => .ok gateway.network
  else .error "RealNet LAN network/gateway missing"

/-- A real network of the lab that is edited counts as the one that is edited if it has the same
    network or the same gateway. -/
def isCurrentLan (t : StoredTopology) (extra : Mapping) : Bool :=
  t.path = currentPath && (textOr (extra.get "network") = textOr (currentExtra.get "network") ||
    textOr (extra.get "ipv4") = textOr (currentExtra.get "ipv4"))

/-- `_used_realnet_lan_networks`. -/
def usedRealnetLanNetworks : List AnyNetwork :=
  stored.flatMap fun t =>
    ((t.realnets.map StoredNode.extra).filter (!isCurrentLan currentPath currentExtra t ·)).filterMap
      fun extra => (networkFromLanExtra extra).toOption

/-- `_parse_lan_network`. -/
def parseLanNetwork (value : String) : Except String Network :=
  match AnyNetwork.parse value with
  | .error e => .error ("Invalid RealNet LAN network: " ++ e)
  | .ok (.v6 _) => .error "RealNet LAN network must be IPv4"
  | .ok (.v4 net) => .ok net

/-- `_parse_lan_pair`: a network and the address of its gateway. -/
def parseLanPair (networkValue gatewayValue : String) : Except String (Network × ℕ) := do
  let network ← parseLanNetwork networkValue
  let gateway := if gatewayValue.toList.contains '/' then gatewayValue
    else gatewayValue ++ "/" ++ toString network.prefixlen
  match AnyInterface.parse gateway with
  | .error e => throw ("Invalid RealNet LAN gateway: " ++ e)
  | .ok (.v6 _) => throw "RealNet LAN gateway must be IPv4"
  | .ok (.v4 ip _) => do
    require (network.contains ip) ("RealNet LAN gateway must belong to the RealNet LAN network. " ++
      "Change network/gateway or leave them empty so dNLab can assign them.")
    require (ip ≠ network.address ∧ ip ≠ network.broadcast)
      ("RealNet LAN gateway cannot be the network or broadcast address. " ++
        "Change network/gateway or leave them empty so dNLab can assign them.")
    pure (network, ip)

theorem lanPrefix_le : 24 ≤ 32 := by decide

/-- The networks of 256 addresses in a pool: `pool.subnets(new_prefix=24)`. -/
def lanSubnets (pool : Network) : List Network :=
  if pool.prefixlen < 24 then
    (List.range (2 ^ (24 - pool.prefixlen))).filterMap fun i =>
      if h : pool.address + i * 256 < 2 ^ 32 then
        some (Network.ofAddress (pool.address + i * 256) 24 h lanPrefix_le)
      else none
  else [pool]

/-- `_first_free_realnet_lan`; the networks are tried in the order in which they are shuffled. -/
def firstFreeRealnetLan (shuffle : List Network → List Network) (used : List AnyNetwork)
    (pool : Network) : Except String Network :=
  match (shuffle (lanSubnets pool)).find? fun net => !used.any (AnyNetwork.overlapsV4 net) with
  | some net => .ok net
  | none => .error "RealNet node network pool exhausted"

/-- The network and the gateway that a request gives, when it gives one of them or both. -/
def requestedLan (network gateway : String) : Except String (Network × ℕ) :=
  if gateway = "" then do
    let net ← parseLanNetwork network
    require (net.prefixlen ≤ 30) ("RealNet LAN network is too small for an automatic gateway. " ++
      "Set both values or leave them empty so dNLab can assign them.")
    pure (net, net.address + 1)
  else if network = "" then do
    require (gateway.toList.contains '/')
      ("RealNet LAN network is required when the gateway has no prefix. " ++
        "Set both values or leave them empty so dNLab can assign them.")
    match AnyInterface.parse gateway with
    | .error e => throw ("Invalid RealNet LAN gateway: " ++ e)
    | .ok (.v6 _) => throw "RealNet LAN network must be IPv4"
    | .ok (.v4 ip net) => parseLanPair net.text (Ip.text ip ++ "/" ++ toString net.prefixlen)
  else parseLanPair network gateway

/-- `normalize_realnet_lan`, with the pool of the hosts file. -/
def normalizeRealnetLan (networkPool : String) (shuffle : List Network → List Network) :
    Except String Mapping := do
  let pool ← parseRealnetNetworkPool networkPool
  let requestedNetwork := Text.stripSpaces (textOr (currentExtra.get "network"))
  let requestedGw := Text.stripSpaces (textOr (currentExtra.get "ipv4"))
  let used := usedRealnetLanNetworks stored currentPath currentExtra
  let (network, gateway) ←
    if requestedNetwork ≠ "" ∨ requestedGw ≠ "" then do
      let (network, gateway) ← requestedLan requestedNetwork requestedGw
      require (¬used.any (AnyNetwork.overlapsV4 network))
        ("RealNet LAN network overlaps an existing RealNet network. " ++
          "Change network/gateway or leave them empty so dNLab can assign them.")
      pure (network, gateway)
    else do
      let network ← firstFreeRealnetLan shuffle used pool
      pure (network, network.address + 1)
  pure ((currentExtra.set "network" (.str network.text)).set "ipv4"
    (.str (Ip.text gateway ++ "/" ++ toString network.prefixlen)))

end Allocate

end Dnlab.Gui.RealnetBgp
