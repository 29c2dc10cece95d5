import Dnlab.Services.Config.Mgmt

/-!
# Automatic management subnets

The automatic path of `resolveMgmtConfig` goes up to the first network of the
default's size that overlaps with no active one (`FirstFree`), and takes the
derived network of version 6 along. That one is apart from those of the active
labs unless two networks longer than /24 are in the same /24, as the derivation
only looks at three octets. And where there is no free network up to the end of
the addresses, the error is not one of the configuration. Otherwise all is well
(`automatic_iff`).
-/

namespace Dnlab.Config

open Ip (Network AnyNetwork)

/-- The first network of the size of `subnet` from there on that no active one overlaps with. -/
structure FirstFree (active : List AnyNetwork) (subnet found : Network) : Prop where
  prefixlen : found.prefixlen = subnet.prefixlen
  le : subnet.address ≤ found.address
  free : isUsed active found = false
  first : ∀ n : Network, n.prefixlen = subnet.prefixlen → subnet.address ≤ n.address →
    n.address < found.address → isUsed active n = true

section Search

variable {active : List AnyNetwork} {subnet found n m : Network}

theorem isUsed_iff : isUsed active n = true ↔ ∃ m, .v4 m ∈ active ∧ n.overlaps m = true := by
  rw [isUsed, List.any_eq_true]
  constructor
  · rintro ⟨m, hm, h⟩
    cases m with
    | v4 m => exact ⟨m, hm, h⟩
    | v6 m => cases h
  · rintro ⟨m, hm, h⟩
    exact ⟨.v4 m, hm, h⟩

/-- Networks of one size do not start inside each other. -/
theorem add_numAddresses_le (hp : n.prefixlen = m.prefixlen) (hlt : n.address < m.address) :
    n.address + n.numAddresses ≤ m.address := by
  have hsize : n.numAddresses = m.numAddresses := by
    rw [Network.numAddresses, Network.numAddresses, hp]
  obtain ⟨i, hi⟩ := n.dvd_address
  obtain ⟨j, hj⟩ := m.dvd_address
  have hi' : n.address = m.numAddresses * i := by rw [← hsize]; exact hi
  have hj' : m.address = m.numAddresses * j := hj
  have hij : i < j := by
    rw [hi', hj'] at hlt
    exact Nat.lt_of_mul_lt_mul_left hlt
  calc n.address + n.numAddresses = m.numAddresses * (i + 1) := by
        rw [hi', hsize, Nat.mul_succ]
    _ ≤ m.numAddresses * j := Nat.mul_le_mul_left _ hij
    _ = m.address := hj'.symm

/-- The first free network does not change when one that is used is passed over. -/
theorem firstFree_next {next : Network} (hused : isUsed active subnet = true)
    (hnext : nextMgmtSubnet subnet = .ok next) :
    FirstFree active subnet found ↔ FirstFree active next found := by
  obtain ⟨haddr, hpre⟩ := nextMgmtSubnet_eq_ok.1 hnext
  have hpos : 0 < subnet.numAddresses := Network.numAddresses_pos
  have hbetween : ∀ n : Network, n.prefixlen = subnet.prefixlen → subnet.address ≤ n.address →
      n = subnet ∨ next.address ≤ n.address := by
    intro n hp hle
    rcases Nat.eq_or_lt_of_le hle with heq | hlt
    · exact .inl (Network.ext heq.symm hp)
    · rw [haddr]
      exact .inr (add_numAddresses_le hp.symm hlt)
  constructor
  · intro h
    refine ⟨h.prefixlen.trans hpre.symm, ?_, h.free, fun n hp hle hlt =>
      h.first n (hp.trans hpre) (by omega) hlt⟩
    refine (hbetween found h.prefixlen h.le).resolve_left ?_
    rintro rfl
    rw [h.free] at hused
    cases hused
  · intro h
    have hle : next.address ≤ found.address := h.le
    refine ⟨h.prefixlen.trans hpre, by omega, h.free, fun n hp hle' hlt => ?_⟩
    rcases hbetween n hp hle' with rfl | hnle
    · exact hused
    · exact h.first n (hp.trans hpre.symm) hnle hlt

/-- A step of the search. -/
theorem freeMgmtSubnet_of_used (hused : isUsed active subnet = true) :
    freeMgmtSubnet active subnet = (nextMgmtSubnet subnet).bind (freeMgmtSubnet active) := by
  rw [freeMgmtSubnet, if_pos hused]
  split
  · rename_i e hnext
    rw [hnext]
    rfl
  · rename_i next hnext
    rw [hnext]
    rfl

/-- The search finds the first free network, if there is one. -/
theorem freeMgmtSubnet_eq_ok :
    freeMgmtSubnet active subnet = .ok found ↔ FirstFree active subnet found := by
  induction subnet using freeMgmtSubnet.induct active with
  | case1 subnet hused e hnext =>
    -- The addresses end here, so no network comes after this one.
    rw [freeMgmtSubnet_of_used hused, hnext]
    constructor
    · intro h
      cases h
    · intro h
      have hend := (nextMgmtSubnet_error hnext).2
      rcases Nat.eq_or_lt_of_le h.le with heq | hlt
      · obtain rfl : found = subnet := Network.ext heq.symm h.prefixlen
        rw [h.free] at hused
        cases hused
      · have hle := add_numAddresses_le h.prefixlen.symm hlt
        have := found.address_lt
        omega
  | case2 subnet hused next hnext ih =>
    rw [firstFree_next hused hnext, ← ih, freeMgmtSubnet_of_used hused, hnext]
    rfl
  | case3 subnet hused =>
    rw [freeMgmtSubnet, if_neg hused, Except.ok.injEq]
    constructor
    · rintro rfl
      exact ⟨rfl, le_rfl, Bool.not_eq_true _ ▸ hused, fun n _ hle hlt => absurd hlt (not_lt.2 hle)⟩
    · intro h
      by_contra hne
      refine hused (h.first subnet rfl le_rfl (lt_of_le_of_ne h.le fun heq => hne ?_))
      exact Network.ext heq h.prefixlen.symm

/-- Where the search ends without a network, the error is one of the address. -/
theorem kind_of_freeMgmtSubnet {e : Err} (h : freeMgmtSubnet active subnet = .error e) :
    e.kind = .value := by
  induction subnet using freeMgmtSubnet.induct active with
  | case1 subnet hused e' hnext =>
    rw [freeMgmtSubnet_of_used hused, hnext] at h
    obtain rfl := Except.error.inj h
    exact (nextMgmtSubnet_error hnext).1
  | case2 subnet hused next hnext ih =>
    rw [freeMgmtSubnet_of_used hused, hnext] at h
    exact ih h
  | case3 subnet hused =>
    rw [freeMgmtSubnet, if_neg hused] at h
    cases h

end Search

/-! ## Both versions -/

/-- The network of a lab is apart from those of the active labs, in both versions. -/
def Separate (active : List AnyNetwork) (resolved : ResolvedMgmt) : Prop :=
  ∃ net net6, Network.parse resolved.ipv4Subnet = .ok net ∧
    MgmtIps.deriveIpv6SubnetFromIpv4 resolved.ipv4Subnet = .ok resolved.ipv6Subnet ∧
    Ip6.Network.parse resolved.ipv6Subnet = .ok net6 ∧
    ∀ m, .v4 m ∈ active → (∀ a, ¬(net.contains a = true ∧ m.contains a = true)) ∧
      ∀ s m6, MgmtIps.deriveIpv6SubnetFromIpv4 m.text = .ok s → Ip6.Network.parse s = .ok m6 →
        ∀ a, ¬(net6.contains a = true ∧ m6.contains a = true)

/-- The outcome that is expected: a network that is apart, or an error of the configuration. -/
def Proper (active : List AnyNetwork) : Except Err ResolvedMgmt → Prop
  | .ok resolved => Separate active resolved
  | .error e => e.kind = .config

/-- The topology leaves the network of version 6 to be derived: it asks for none, or for one that
    is mapped. -/
def Derives (request : MgmtRequest) : Prop :=
  Text.stripSpaces (request.ipv6Subnet.getD "") = "" ∨
    ∃ n, Ip6.Network.parse (Text.stripSpaces (request.ipv6Subnet.getD "")) = .ok n ∧
      n.isMapped = true

/-- There is a free network from the default on, and the first of them is in no /24 with an active
    network where both are longer than that and the first has room. -/
def Uncrowded (active : List AnyNetwork) (subnet : Network) : Prop :=
  ∃ found, FirstFree active subnet found ∧ (24 < found.prefixlen → found.prefixlen ≤ 29 →
    ∀ m, .v4 m ∈ active → 24 < m.prefixlen → found.address / 256 ≠ m.address / 256)

section Automatic

variable {active : List AnyNetwork} {net m : Network} {request : MgmtRequest}

/-- Networks that overlap with none but share their first three octets are both longer than /24. -/
theorem lt_prefixlen_of_disjoint (hdisj : ∀ a, ¬(net.contains a = true ∧ m.contains a = true))
    (hsame : net.address / 256 = m.address / 256) : 24 < net.prefixlen ∧ 24 < m.prefixlen := by
  -- A network that is not longer than /24 has all of its /24.
  have hwhole : ∀ n : Network, n.prefixlen ≤ 24 → ∀ a, a / 256 = n.address / 256 →
      n.contains a = true := by
    intro n hn a ha
    have hsize : 2 ^ 8 ≤ n.numAddresses := Network.two_pow_le_numAddresses (by omega)
    have hdvd : 2 ^ 8 ∣ n.address :=
      (Nat.pow_dvd_pow 2 (by omega)).trans n.dvd_address
    rw [Network.contains_iff]
    omega
  have hself : ∀ n : Network, n.contains n.address = true := fun n => by
    rw [Network.contains_iff]
    exact ⟨le_rfl, Nat.lt_add_of_pos_right Network.numAddresses_pos⟩
  constructor
  · by_contra hle
    exact hdisj m.address ⟨hwhole net (not_lt.1 hle) _ hsame.symm, hself m⟩
  · by_contra hle
    exact hdisj net.address ⟨hself net, hwhole m (not_lt.1 hle) _ hsame⟩

/-- Where a network has no room, the error is one of the configuration. -/
theorem resolveWithin_of_lt (h : 29 < net.prefixlen) :
    ∃ e, resolveWithin request net = .error e ∧ e.kind = .config := by
  have hres : ∃ e, MgmtIps.ipv4Reservations net.text = .error e := by
    rw [MgmtIps.ipv4Reservations, Network.parse_text]
    dsimp only
    cases hr : MgmtIps.reservationsOf net with
    | error e => exact ⟨e, rfl⟩
    | ok r =>
      have := MgmtIps.prefixlen_le_of_reservationsOf hr
      omega
  obtain ⟨e, he⟩ := hres
  exact ⟨configError e.message, by rw [resolveWithin, he]; rfl, rfl⟩

theorem resolveMgmtIpv6Subnet_of_derives (hderives : Derives request) {s : String}
    (hs : MgmtIps.deriveIpv6SubnetFromIpv4 net.text = .ok s) :
    resolveMgmtIpv6Subnet request net.text = .ok s := by
  rw [resolveMgmtIpv6Subnet]
  rcases hderives with hnone | ⟨n, hparse, hmapped⟩
  · rw [if_neg (not_not.2 hnone), hs]
    rfl
  · split_ifs
    · rw [hparse]
      dsimp only
      rw [if_pos hmapped, hs]
    · rw [hs]
      rfl

/-- A network that has room is resolved, with its derived network. -/
theorem resolveWithin_of_le (hderives : Derives request) (h : net.prefixlen ≤ 29) :
    ∃ resolved, resolveWithin request net = .ok resolved ∧ resolved.ipv4Subnet = net.text ∧
      MgmtIps.deriveIpv6SubnetFromIpv4 net.text = .ok resolved.ipv6Subnet := by
  obtain ⟨s, n, hs, hn, hp, -⟩ := MgmtIps.derive_text net
  obtain ⟨r, hr⟩ : ∃ r, MgmtIps.reservationsOf net = .ok r :=
    ⟨_, MgmtIps.reservationsOf_eq_ok.2 ⟨h, rfl⟩⟩
  have hres : MgmtIps.ipv4Reservations net.text = .ok r := by
    rw [MgmtIps.ipv4Reservations, Network.parse_text]
    exact hr
  have hgw : MgmtIps.ipv6Gateway s = .ok (Ip6.text (n.address + (n.numAddresses - 1))) := by
    have hsize : ¬n.numAddresses < 2 := by
      rw [Ip6.Network.numAddresses, hp]
      decide
    rw [MgmtIps.ipv6Gateway, hn]
    dsimp only
    rw [if_neg hsize]
  have h6 := resolveMgmtIpv6Subnet_of_derives hderives hs
  refine ⟨⟨net.text, Ip.text r.jumphost, Ip.text r.dockerGw, s,
    Ip6.text (n.address + (n.numAddresses - 1))⟩, ?_, rfl, hs⟩
  simp only [resolveWithin, hres, h6, hgw, Except.mapError, bind, Except.bind, pure, Except.pure]

/-- A free network is apart from the active ones just if it is not crowded. -/
theorem proper_resolveWithin (hderives : Derives request) (hfree : isUsed active net = false) :
    Proper active (resolveWithin request net) ↔ (24 < net.prefixlen → net.prefixlen ≤ 29 →
      ∀ m, .v4 m ∈ active → 24 < m.prefixlen → net.address / 256 ≠ m.address / 256) := by
  have hdisj : ∀ m, .v4 m ∈ active → ∀ a, ¬(net.contains a = true ∧ m.contains a = true) := by
    intro m hm a ha
    have hused := isUsed_iff.2 ⟨m, hm, Network.overlaps_iff.2 ⟨a, ha⟩⟩
    rw [hfree] at hused
    cases hused
  by_cases hroom : net.prefixlen ≤ 29
  swap
  · obtain ⟨e, he, hkind⟩ : ∃ e, resolveWithin request net = .error e ∧ e.kind = .config :=
      resolveWithin_of_lt (not_le.1 hroom)
    rw [he]
    exact ⟨fun _ _ hle => absurd hle hroom, fun _ => hkind⟩
  obtain ⟨resolved, hok, htext, hderive⟩ := resolveWithin_of_le hderives hroom
  rw [hok]
  constructor
  · rintro ⟨net', net6, -, hderive', hparse6, hall⟩ - - m hm - hsame
    obtain ⟨s, m6, hs, hm6, -⟩ := MgmtIps.derive_text m
    obtain ⟨a, ha⟩ := (MgmtIps.exists_derived_iff hderive hparse6 hs hm6).2 hsame
    exact (hall m hm).2 s m6 hs hm6 a ha
  · intro h
    obtain ⟨s, net6, hs, hnet6, -⟩ := MgmtIps.derive_text net
    obtain rfl := Except.ok.inj (hderive.symm.trans hs)
    refine ⟨net, net6, ?_, ?_, hnet6, fun m hm => ⟨hdisj m hm, ?_⟩⟩
    · rw [htext, Network.parse_text]
    · rw [htext, hderive]
    · intro s m6 hs hm6 a ha
      have hsame := (MgmtIps.exists_derived_iff hderive hnet6 hs hm6).1 ⟨a, ha⟩
      obtain ⟨hlong, hlong'⟩ := lt_prefixlen_of_disjoint (hdisj m hm) hsame
      exact h hlong hroom m hm hlong' hsame

end Automatic

/-- The automatic path gives a network that is apart from those of the active labs, or refuses
    with an error of the configuration, just if the default is not a network or there is a free
    one that is not crowded. -/
theorem automatic_iff (labName : String) (request : MgmtRequest) (defaultSubnet : String)
    (states : List ActiveState) (hauto : request.ipv4Subnet.getD "" = "")
    (hderives : Derives request) :
    Proper (activeMgmtNetworks states labName)
        (resolveMgmtConfig labName request defaultSubnet states) ↔
      ∀ subnet, Network.parse defaultSubnet = .ok subnet →
        Uncrowded (activeMgmtNetworks states labName) subnet := by
  rw [resolveMgmtConfig, if_neg (not_not.2 hauto)]
  cases hparse : Network.parse defaultSubnet with
  | error e =>
    exact ⟨fun _ _ h => (by cases h), fun _ => rfl⟩
  | ok subnet =>
    dsimp only
    simp only [Except.ok.injEq, forall_eq']
    cases hsearch : freeMgmtSubnet (activeMgmtNetworks states labName) subnet with
    | error e =>
      have hkind := kind_of_freeMgmtSubnet hsearch
      simp only [bind, Except.bind, Proper]
      constructor
      · intro h
        rw [hkind] at h
        cases h
      · rintro ⟨found, hfound, -⟩
        rw [freeMgmtSubnet_eq_ok.2 hfound] at hsearch
        cases hsearch
    | ok found =>
      have hfound := freeMgmtSubnet_eq_ok.1 hsearch
      simp only [bind, Except.bind]
      refine (proper_resolveWithin hderives hfound.free).trans ?_
      constructor
      · exact fun h => ⟨found, hfound, h⟩
      · rintro ⟨found', hfound', h⟩
        have heq := (freeMgmtSubnet_eq_ok.2 hfound').symm.trans hsearch
        obtain rfl := Except.ok.inj heq
        exact h

/-- A deployed lab on a /24. -/
def labState : ActiveState := ⟨some "lab", some "172.20.20.0/24"⟩

/-- The network of that lab, and the one after it. -/
def labNet : Network := ⟨0xAC141400, 24, by decide, by decide, by decide⟩

def nextNet : Network := ⟨0xAC141500, 24, by decide, by decide, by decide⟩

theorem automatic_iff_lab :
    (Proper (activeMgmtNetworks [labState] "new")
        (resolveMgmtConfig "new" {} "172.20.20.0/24" [labState]) ↔
      ∀ subnet, Network.parse "172.20.20.0/24" = .ok subnet →
        Uncrowded (activeMgmtNetworks [labState] "new") subnet) ∧
    Proper (activeMgmtNetworks [labState] "new")
      (resolveMgmtConfig "new" {} "172.20.20.0/24" [labState]) := by
  have hiff := automatic_iff "new" {} "172.20.20.0/24" [labState] rfl (.inl (by decide))
  refine ⟨hiff, hiff.2 fun subnet hsubnet => ?_⟩
  have hparse : Network.parse "172.20.20.0/24" = .ok labNet := by decide +kernel
  obtain rfl := Except.ok.inj (hparse.symm.trans hsubnet)
  have hnext : nextMgmtSubnet labNet = .ok nextNet := nextMgmtSubnet_eq_ok.2 ⟨rfl, rfl⟩
  have hfree : isUsed (activeMgmtNetworks [labState] "new") nextNet = false := by decide +kernel
  refine ⟨nextNet, freeMgmtSubnet_eq_ok.1 ?_, fun h => absurd h (by decide)⟩
  rw [freeMgmtSubnet_of_used (by decide +kernel), hnext]
  show freeMgmtSubnet _ nextNet = _
  rw [freeMgmtSubnet, if_neg (by simp [hfree])]

/-- A deployed lab on a /25, and the networks of its /24. -/
def smallState : ActiveState := ⟨some "lab", some "172.20.20.0/25"⟩

def smallNet : Network := ⟨0xAC141400, 25, by decide, by decide, by decide⟩

def secondNet : Network := ⟨0xAC141480, 25, by decide, by decide, by decide⟩

/-- A deployed lab on the last /24, and its network. -/
def lastState : ActiveState := ⟨some "lab", some "255.255.255.0/24"⟩

def lastNet : Network := ⟨0xFFFFFF00, 24, by decide, by decide, by decide⟩

/-- After a lab on a /25 comes one on the other half of its /24, and both derive the same network
    of version 6; and after a lab on the last /24 comes none, which is an error of the address. -/
theorem not_proper_small :
    ¬Proper (activeMgmtNetworks [smallState] "new")
      (resolveMgmtConfig "new" {} "172.20.20.0/25" [smallState]) ∧
    ¬Proper (activeMgmtNetworks [lastState] "new")
      (resolveMgmtConfig "new" {} "255.255.255.0/24" [lastState]) := by
  constructor
  · have hparse : Network.parse "172.20.20.0/25" = .ok smallNet := by decide +kernel
    have hnext : nextMgmtSubnet smallNet = .ok secondNet := nextMgmtSubnet_eq_ok.2 ⟨rfl, rfl⟩
    have hfree : isUsed (activeMgmtNetworks [smallState] "new") secondNet = false := by
      decide +kernel
    have hactive : .v4 smallNet ∈ activeMgmtNetworks [smallState] "new" := by
      have hany : AnyNetwork.parse "172.20.20.0/25" = .ok (.v4 smallNet) := by
        rw [AnyNetwork.parse, hparse]
      simp [activeMgmtNetworks, smallState, hany, Except.toOption]
    have hsearch : freeMgmtSubnet (activeMgmtNetworks [smallState] "new") smallNet =
        .ok secondNet := by
      rw [freeMgmtSubnet_of_used (by decide +kernel), hnext]
      show freeMgmtSubnet _ secondNet = _
      rw [freeMgmtSubnet, if_neg (by simp [hfree])]
    have hresolved : resolveWithin {} secondNet = .ok ⟨"172.20.20.128/25", "172.20.20.254",
        "172.20.20.129", "3fff:172:20:20::/64", "3fff:172:20:20:ffff:ffff:ffff:ffff"⟩ := by
      decide +kernel
    rw [resolveMgmtConfig, if_neg (by decide), hparse]
    simp only [bind, Except.bind, hsearch, hresolved]
    rintro ⟨net, net6, -, -, hnet6, hall⟩
    have hsame : MgmtIps.deriveIpv6SubnetFromIpv4 smallNet.text = .ok "3fff:172:20:20::/64" := by
      decide +kernel
    exact (hall smallNet hactive).2 _ net6 hsame hnet6 net6.address
      ⟨Ip6.Network.contains_address, Ip6.Network.contains_address⟩
  · have hparse : Network.parse "255.255.255.0/24" = .ok lastNet := by decide +kernel
    rw [resolveMgmtConfig, if_neg (by decide), hparse]
    simp only [bind, Except.bind]
    cases hsearch : freeMgmtSubnet (activeMgmtNetworks [lastState] "new") lastNet with
    | error e =>
      intro h
      have hkind : e.kind = .config := h
      rw [kind_of_freeMgmtSubnet hsearch] at hkind
      cases hkind
    | ok found =>
      rw [freeMgmtSubnet_of_used (by decide +kernel)] at hsearch
      cases hnext : nextMgmtSubnet lastNet with
      | error e =>
        rw [hnext] at hsearch
        cases hsearch
      | ok next =>
        have hend := (nextMgmtSubnet_eq_ok.1 hnext).1
        have hlt := next.address_lt
        rw [hend] at hlt
        exact absurd hlt (by decide)

end Dnlab.Config
