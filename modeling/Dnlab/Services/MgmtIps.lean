import Dnlab.Lib.Ip6
import Dnlab.Services.Remote

/-!
# Reserved management addresses

After `services/mgmt_ips.py`: the addresses of a management network that the
infrastructure takes, the first host and the last three, and the network of
version 6 that goes with one of version 4.

The derived network has the first three octets of the other one, read as
hextets; networks that differ there have derived networks apart
(`exists_derived_iff`).
-/

namespace Dnlab.MgmtIps

open Ip (Network)

/-- `MgmtAddressError`. -/
def mgmtAddressError (message : String) : Err := ⟨.address, message⟩

/-- The addresses of the infrastructure. -/
structure MgmtIPv4Reservations where
  dockerGw : ℕ
  anchor : ℕ
  dns : ℕ
  jumphost : ℕ
  deriving DecidableEq

/-- `{r.docker_gw, r.anchor, r.dns, r.jumphost}`. -/
def MgmtIPv4Reservations.toList (r : MgmtIPv4Reservations) : List ℕ :=
  [r.dockerGw, r.anchor, r.dns, r.jumphost]

/-- The addresses of the infrastructure in a network, which must have room for them. -/
def reservationsOf (net : Network) : Except Err MgmtIPv4Reservations :=
  let r : MgmtIPv4Reservations :=
    { dockerGw := net.address + 1
      anchor := net.broadcast - 3
      dns := net.broadcast - 2
      jumphost := net.broadcast - 1 }
  if net.prefixlen > 29 then
    .error (mgmtAddressError ("IPv4 mgmt subnet " ++ net.text ++ " is too small: need at least /29 " ++
      "for Docker gateway, mgmt anchor, DNS, jumphost, and VD addresses"))
  else if ¬r.toList.Nodup then
    .error (mgmtAddressError ("IPv4 mgmt subnet " ++ net.text ++ " is too small"))
  else .ok r

/-- `ipv4_reservations(subnet)`. -/
def ipv4Reservations (subnet : String) : Except Err MgmtIPv4Reservations :=
  match Network.parse subnet with
  | .error e =>
    .error (mgmtAddressError ("invalid IPv4 mgmt subnet " ++ Text.repr subnet ++ ": " ++ e))
  | .ok net => reservationsOf net

/-- `ipv6_gateway(subnet)`: the last address. -/
def ipv6Gateway (subnet : String) : Except Err String :=
  match Ip6.Network.parse subnet with
  | .error e =>
    .error (mgmtAddressError ("invalid IPv6 mgmt subnet " ++ Text.repr subnet ++ ": " ++ e))
  | .ok net =>
    if net.numAddresses < 2 then
      .error (mgmtAddressError ("IPv6 mgmt subnet " ++ net.text ++ " is too small"))
    else .ok (Ip6.text (net.address + (net.numAddresses - 1)))

/-- `derive_ipv6_subnet_from_ipv4(v4_subnet)`: the first three octets for hextets. -/
def deriveIpv6SubnetFromIpv4 (v4Subnet : String) : Except Err String :=
  match Network.parse v4Subnet with
  | .error e =>
    .error (mgmtAddressError ("invalid IPv4 mgmt subnet " ++ Text.repr v4Subnet ++ ": " ++ e))
  | .ok net =>
    let octets := Text.split '.' (Ip.text net.address)
    .ok ("3fff:" ++ octets.getD 0 "" ++ ":" ++ octets.getD 1 "" ++ ":" ++ octets.getD 2 "" ++ "::/64")

section Lemmas

variable {net : Network} {r : MgmtIPv4Reservations}

/-- A network of at least eight addresses has room, and no other has. -/
theorem reservationsOf_eq_ok : reservationsOf net = .ok r ↔ net.prefixlen ≤ 29 ∧
    r = ⟨net.address + 1, net.broadcast - 3, net.broadcast - 2, net.broadcast - 1⟩ := by
  rw [reservationsOf]
  by_cases hp : net.prefixlen > 29
  · rw [if_pos hp]
    simp
    omega
  · have hsize : 2 ^ 3 ≤ net.numAddresses := Network.two_pow_le_numAddresses (by omega)
    have hnodup : (MgmtIPv4Reservations.mk (net.address + 1) (net.broadcast - 3)
        (net.broadcast - 2) (net.broadcast - 1)).toList.Nodup := by
      simp only [MgmtIPv4Reservations.toList, Network.broadcast, List.nodup_cons, List.mem_cons,
        List.not_mem_nil, or_false, not_or, not_false_eq_true, List.nodup_nil, and_true]
      omega
    rw [if_neg hp, if_neg (not_not.2 hnodup), Except.ok.injEq]
    exact ⟨fun h => ⟨not_lt.1 hp, h.symm⟩, fun h => h.2.symm⟩

theorem prefixlen_le_of_reservationsOf (h : reservationsOf net = .ok r) : net.prefixlen ≤ 29 :=
  (reservationsOf_eq_ok.1 h).1

/-- What is reserved is a host of the network. -/
theorem mem_hosts_of_reserved (h : reservationsOf net = .ok r) {ip : ℕ} (hip : ip ∈ r.toList) :
    ip ∈ net.hosts := by
  obtain ⟨hp, rfl⟩ := reservationsOf_eq_ok.1 h
  have hsize : 2 ^ 3 ≤ net.numAddresses := Network.two_pow_le_numAddresses (by omega)
  simp only [MgmtIPv4Reservations.toList, List.mem_cons, List.not_mem_nil, or_false] at hip
  rw [Network.mem_hosts_iff (by omega)]
  simp only [Network.broadcast] at hip ⊢
  omega

end Lemmas

/-! ## Derived networks -/

section Derived

variable {net net' : Network} {n n' : Ip6.Network} {s s' : String}

/-- An octet, read to the base 16. -/
def octetValue (a : ℕ) : ℕ := a / 100 * 256 + a / 10 % 10 * 16 + a % 10

theorem parseHextet_octet : ∀ a < 256, Ip6.parseHextet (toString a) = .ok (octetValue a) := by
  decide +kernel

/-- The network that is derived from one of version 4. -/
theorem derive_text (net : Network) : ∃ s n, deriveIpv6SubnetFromIpv4 net.text = .ok s ∧
    Ip6.Network.parse s = .ok n ∧ n.prefixlen = 64 ∧
      n.address = 2 ^ 64 * (2 ^ 16 * (2 ^ 16 * (2 ^ 16 * 0x3fff +
        octetValue (net.address / 2 ^ 24 % 256)) + octetValue (net.address / 2 ^ 16 % 256)) +
          octetValue (net.address / 2 ^ 8 % 256)) := by
  have hoctet : ∀ a : ℕ, Ip6.parseHextet (toString (a % 256)) = .ok (octetValue (a % 256)) :=
    fun a => parseHextet_octet _ (Nat.mod_lt _ (by decide))
  have hfirst : Ip6.parseHextet "3fff" = .ok 0x3fff := by decide
  have hbare := Ip6.parseBare_four hfirst (hoctet (net.address / 2 ^ 24))
    (hoctet (net.address / 2 ^ 16)) (hoctet (net.address / 2 ^ 8))
  have hchar : ∀ c, Ip6.hexValue c = none → c ≠ ':' → _ := fun c hc hne =>
    Ip6.notMem_four hfirst (hoctet (net.address / 2 ^ 24)) (hoctet (net.address / 2 ^ 16))
      (hoctet (net.address / 2 ^ 8)) (c := c) hc hne
  have hparse := Ip6.Network.parse_of_parseBare hbare (hchar '/' (by decide) (by decide))
    (hchar '%' (by decide) (by decide)) (show 64 ≤ 128 by decide)
  refine ⟨_, _, ?_, hparse, rfl, ?_⟩
  · rw [deriveIpv6SubnetFromIpv4, Network.parse_text]
    dsimp only
    rw [Ip.split_text]
    have hend : toString 64 = "64" := by decide
    simp [Ip.octets, hend, String.append_assoc]
  · exact Nat.sub_eq_of_eq_add (by rw [Nat.mul_mod_right, Nat.add_zero])

theorem octetValue_inj {a b : ℕ} (ha : a < 256) (hb : b < 256) (h : octetValue a = octetValue b) :
    a = b := by
  simp only [octetValue] at h
  omega

/-- Derived networks have an address in common just if they are derived from the same octets. -/
theorem exists_derived_iff (hs : deriveIpv6SubnetFromIpv4 net.text = .ok s)
    (hn : Ip6.Network.parse s = .ok n) (hs' : deriveIpv6SubnetFromIpv4 net'.text = .ok s')
    (hn' : Ip6.Network.parse s' = .ok n') :
    (∃ a, n.contains a = true ∧ n'.contains a = true) ↔ net.address / 256 = net'.address / 256 := by
  obtain ⟨t, m, ht, hm, hp, ha⟩ := derive_text net
  obtain ⟨t', m', ht', hm', hp', ha'⟩ := derive_text net'
  obtain rfl := Except.ok.inj (hs.symm.trans ht)
  obtain rfl := Except.ok.inj (hs'.symm.trans ht')
  obtain rfl := Except.ok.inj (hn.symm.trans hm)
  obtain rfl := Except.ok.inj (hn'.symm.trans hm')
  rw [Ip6.Network.exists_contains_iff (hp.trans hp'.symm), ha, ha']
  have hlt := net.address_lt
  have hlt' := net'.address_lt
  constructor
  · intro h
    have hsmall : ∀ a < 256, octetValue a < 2 ^ 16 := by
      intro a ha
      simp only [octetValue]
      omega
    have h₀ := hsmall (net.address / 2 ^ 24 % 256) (Nat.mod_lt _ (by decide))
    have h₁ := hsmall (net.address / 2 ^ 16 % 256) (Nat.mod_lt _ (by decide))
    have h₂ := hsmall (net.address / 2 ^ 8 % 256) (Nat.mod_lt _ (by decide))
    have h₀' := hsmall (net'.address / 2 ^ 24 % 256) (Nat.mod_lt _ (by decide))
    have h₁' := hsmall (net'.address / 2 ^ 16 % 256) (Nat.mod_lt _ (by decide))
    have h₂' := hsmall (net'.address / 2 ^ 8 % 256) (Nat.mod_lt _ (by decide))
    have e₀ := octetValue_inj (Nat.mod_lt (net.address / 2 ^ 24) (by decide : 0 < 256))
      (Nat.mod_lt (net'.address / 2 ^ 24) (by decide)) (by omega)
    have e₁ := octetValue_inj (Nat.mod_lt (net.address / 2 ^ 16) (by decide : 0 < 256))
      (Nat.mod_lt (net'.address / 2 ^ 16) (by decide)) (by omega)
    have e₂ := octetValue_inj (Nat.mod_lt (net.address / 2 ^ 8) (by decide : 0 < 256))
      (Nat.mod_lt (net'.address / 2 ^ 8) (by decide)) (by omega)
    omega
  · intro h
    have h₀ : net.address / 2 ^ 24 = net'.address / 2 ^ 24 := by omega
    have h₁ : net.address / 2 ^ 16 = net'.address / 2 ^ 16 := by omega
    have h₂ : net.address / 2 ^ 8 = net'.address / 2 ^ 8 := by omega
    rw [h₀, h₁, h₂]

end Derived

end Dnlab.MgmtIps
