import Dnlab.Lib.Ip6

/-!
# Addresses of either version

Addresses and interfaces of which a text may give either version, as
`ipaddress.ip_address` and `ipaddress.ip_interface` read them, and the addresses
of the hosts of a network.
-/

namespace Ip

/-- An address of either version. -/
inductive AnyAddress
  | v4 (a : ℕ)
  | v6 (a : ℕ) (scope : Option String)
  deriving DecidableEq

namespace AnyAddress

/-- `str(address)`. -/
def text : AnyAddress → String
  | .v4 a => Ip.text a
  | .v6 a scope => Ip6.str a ++ (scope.map ("%" ++ ·)).getD ""

/-- `address.version`. -/
def version : AnyAddress → ℕ
  | .v4 _ => 4
  | .v6 _ _ => 6

/-- `int(address)`. -/
def number : AnyAddress → ℕ
  | .v4 a => a
  | .v6 a _ => a

/-- `ip_address(s)`, or what is wrong with `s`. -/
def parse (s : String) : Except String AnyAddress :=
  match Ip.parse s with
  | .ok a => .ok (.v4 a)
  | .error _ =>
    match Ip6.parse s with
    | .ok (a, scope) => .ok (.v6 a scope)
    | .error _ => .error (Text.repr s ++ " does not appear to be an IPv4 or IPv6 address")

/-- `ip_address(n)`: a number below `2 ^ 32` is an address of version 4. -/
def ofNumber (n : ℕ) : AnyAddress := if n < 2 ^ 32 then .v4 n else .v6 n none

end AnyAddress

namespace AnyNetwork

/-- `address in net`: an address of another version is not. -/
def contains : AnyNetwork → AnyAddress → Bool
  | .v4 net, .v4 a => net.contains a
  | .v6 net, .v6 a _ => net.contains a
  | _, _ => false

/-- `net.hosts()`, in order. -/
def hosts : AnyNetwork → List AnyAddress
  | .v4 net => net.hosts.map .v4
  | .v6 net =>
    if net.prefixlen = 128 then [.v6 net.address net.scope]
    else if net.prefixlen = 127 then [.v6 net.address none, .v6 (net.address + 1) none]
    else (List.range' (net.address + 1) (net.numAddresses - 1)).map (.v6 · none)

end AnyNetwork

/-! ## Interfaces -/

/-- An address of version 4 with its network, or a network of version 6. -/
inductive AnyInterface
  | v4 (ip : ℕ) (net : Network)
  | v6 (net : Ip6.Network)

namespace AnyInterface

/-- `interface.network`. -/
def network : AnyInterface → AnyNetwork
  | .v4 _ net => .v4 net
  | .v6 net => .v6 net

/-- The address of an interface, without the length of its prefix. -/
def addressPart (s : String) : String := (Text.split '/' s).headD ""

/-- `ip_interface(s)`, or what is wrong with `s`. -/
def parse (s : String) : Except String AnyInterface :=
  match Network.parse s, Ip.parse (addressPart s) with
  | .ok net, .ok ip => .ok (.v4 ip net)
  | _, _ =>
    match Ip6.Network.parse s with
    | .ok net => .ok (.v6 net)
    | .error _ => .error (Text.repr s ++ " does not appear to be an IPv4 or IPv6 interface")

end AnyInterface

end Ip
