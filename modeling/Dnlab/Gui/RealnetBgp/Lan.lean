import Dnlab.Gui.RealnetBgp.Allocation

/-!
# LAN networks of real networks

A request with a network and a gateway is accepted if its network overlaps none
that counts as used. What is stored for the real network that is edited should
not count, and is told by its network or its gateway; so it counts when both
change, and another real network of the same lab with the same network or
gateway does not. Other than that, and with a valid pool, exactly the legal
requests are accepted (`acceptsLegal_iff`).
-/

namespace Dnlab.Gui.RealnetBgp

open ExceptRules (bind_eq_ok pure_eq_ok)
open Ip (AnyNetwork Network)

section Spec

variable (stored : List StoredTopology) (currentPath name : String) (extra : Mapping)
  (networkPool : String) (shuffle : List Network → List Network) (net : Network) (gateway : ℕ)

/-- The request gives this network and this gateway, and they fit together. -/
def Explicit : Prop :=
  Text.stripSpaces (textOr (extra.get "network")) ≠ "" ∧
    Text.stripSpaces (textOr (extra.get "ipv4")) ≠ "" ∧
    parseLanPair (Text.stripSpaces (textOr (extra.get "network")))
      (Text.stripSpaces (textOr (extra.get "ipv4"))) = .ok (net, gateway)

/-- The network overlaps one that is stored for a real network that satisfies `p`. -/
def Overlapping (p : StoredTopology → StoredNode → Prop) : Prop :=
  ∃ t ∈ stored, ∃ n ∈ t.realnets, p t n ∧
    ∃ other, networkFromLanExtra n.extra = .ok other ∧ other.overlapsV4 net

/-- The real network that is edited. -/
def IsOwn (t : StoredTopology) (n : StoredNode) : Prop := t.path = currentPath ∧ n.name = name

/-- A real network that counts as used. -/
def Counts (t : StoredTopology) (n : StoredNode) : Prop :=
  isCurrentLan currentPath extra t n.extra = false

/-- The request is accepted if and only if its network overlaps none of another lab or real network,
    and then its gateway is the address of a host of the network. -/
def AcceptsLegal : Prop :=
  ((∃ out, normalizeRealnetLan stored currentPath extra networkPool shuffle = .ok out) ↔
    ¬Overlapping stored net fun t n => ¬IsOwn currentPath name t n) ∧
  ∀ out, normalizeRealnetLan stored currentPath extra networkPool shuffle = .ok out →
    out.get "network" = .str net.text ∧
      out.get "ipv4" = .str (Ip.text gateway ++ "/" ++ toString net.prefixlen) ∧
      gateway ∈ net.hosts

end Spec

variable {stored : List StoredTopology} {currentPath name networkPool : String} {extra : Mapping}
  {shuffle : List Network → List Network} {net : Network} {gateway : ℕ}

theorem any_usedRealnetLanNetworks :
    (usedRealnetLanNetworks stored currentPath extra).any (AnyNetwork.overlapsV4 net) = true ↔
      Overlapping stored net (Counts currentPath extra) := by
  rw [List.any_eq_true]
  constructor
  · rintro ⟨other, hother, hoverlaps⟩
    obtain ⟨t, ht, hother⟩ := List.mem_flatMap.1 hother
    obtain ⟨e, he, hother⟩ := List.mem_filterMap.1 hother
    obtain ⟨he, hcounts⟩ := List.mem_filter.1 he
    obtain ⟨n, hn, rfl⟩ := List.mem_map.1 he
    refine ⟨t, ht, n, hn, by simpa [Counts] using hcounts, other, ?_, hoverlaps⟩
    rcases hnet : networkFromLanExtra n.extra with err | m
    · rw [hnet] at hother
      cases hother
    · rw [hnet] at hother
      rw [Option.some.inj hother]
  · rintro ⟨t, ht, n, hn, hcounts, other, hother, hoverlaps⟩
    refine ⟨other, List.mem_flatMap.2 ⟨t, ht, List.mem_filterMap.2 ⟨n.extra, ?_, ?_⟩⟩, hoverlaps⟩
    · exact List.mem_filter.2 ⟨List.mem_map_of_mem hn, by simpa [Counts] using hcounts⟩
    · rw [hother]
      rfl

/-- A gateway that fits its network is the address of a host. -/
theorem mem_hosts_of_parseLanPair {network gw : String}
    (h : parseLanPair network gw = .ok (net, gateway)) : gateway ∈ net.hosts := by
  rw [parseLanPair] at h
  obtain ⟨net', -, h⟩ := bind_eq_ok.1 h
  dsimp only at h
  split at h
  · cases h
  · cases h
  · obtain ⟨_, hcontains, h⟩ := bind_eq_ok.1 h
    obtain ⟨_, hends, h⟩ := bind_eq_ok.1 h
    cases pure_eq_ok.1 h
    rw [require_eq_ok] at hcontains hends
    rw [Network.contains_iff] at hcontains
    rw [Network.broadcast] at hends
    have hlong : net.prefixlen ≤ 30 := by
      by_contra hlt
      have hsize : net.numAddresses ≤ 2 ^ 1 :=
        Nat.pow_le_pow_right (by decide) (by have := net.prefixlen_le; omega)
      omega
    rw [Network.mem_hosts_iff hlong, Network.broadcast]
    omega

/-- What the request comes to, when it gives a network and a gateway. -/
theorem normalizeRealnetLan_eq_ok (h : Explicit extra net gateway) {out : Mapping} :
    normalizeRealnetLan stored currentPath extra networkPool shuffle = .ok out ↔
      (∃ pool, parseRealnetNetworkPool networkPool = .ok pool) ∧
        ¬Overlapping stored net (Counts currentPath extra) ∧
        out = (extra.set "network" (.str net.text)).set "ipv4"
          (.str (Ip.text gateway ++ "/" ++ toString net.prefixlen)) := by
  obtain ⟨hnet, hgw, hpair⟩ := h
  rw [normalizeRealnetLan, bind_eq_ok, ← any_usedRealnetLanNetworks]
  dsimp only
  simp only [if_pos (Or.inl hnet : _ ∨ Text.stripSpaces (textOr (extra.get "ipv4")) ≠ ""),
    requestedLan, if_neg hgw, if_neg hnet, hpair]
  constructor
  · rintro ⟨pool, hpool, h⟩
    obtain ⟨_, hpair, h⟩ := bind_eq_ok.1 h
    cases hpair
    obtain ⟨_, hfree, h⟩ := bind_eq_ok.1 h
    exact ⟨⟨pool, hpool⟩, require_eq_ok.1 hfree, (pure_eq_ok.1 h).symm⟩
  · rintro ⟨⟨pool, hpool⟩, hfree, rfl⟩
    exact ⟨pool, hpool, bind_eq_ok.2 ⟨_, rfl, bind_eq_ok.2 ⟨(), require_eq_ok.2 hfree, rfl⟩⟩⟩

/-- Exactly the legal requests are accepted, except that a legal one is refused if the pool is not
    valid or what is stored for the real network itself counts and overlaps, and one that is not
    legal is accepted if what it overlaps is of the same lab and does not count. -/
theorem acceptsLegal_iff (stored : List StoredTopology) (currentPath name networkPool : String)
    (shuffle : List Network → List Network) (h : Explicit extra net gateway) :
    AcceptsLegal stored currentPath name extra networkPool shuffle net gateway ↔
      ¬(¬Overlapping stored net (fun t n => ¬IsOwn currentPath name t n) ∧
        ((¬∃ pool, parseRealnetNetworkPool networkPool = .ok pool) ∨
          Overlapping stored net fun t n => IsOwn currentPath name t n ∧ Counts currentPath extra t n)) ∧
      ¬(Overlapping stored net (fun t n => ¬IsOwn currentPath name t n) ∧
        (∃ pool, parseRealnetNetworkPool networkPool = .ok pool) ∧
        ∀ t ∈ stored, ∀ n ∈ t.realnets, ∀ other, networkFromLanExtra n.extra = .ok other →
          other.overlapsV4 net → ¬Counts currentPath extra t n) := by
  -- What the code counts is the network's own entry, or that of another one.
  have hcounted : Overlapping stored net (Counts currentPath extra) ↔
      (Overlapping stored net fun t n => ¬IsOwn currentPath name t n ∧ Counts currentPath extra t n) ∨
        Overlapping stored net fun t n => IsOwn currentPath name t n ∧ Counts currentPath extra t n := by
    constructor
    · rintro ⟨t, ht, n, hn, hcounts, hover⟩
      by_cases hown : IsOwn currentPath name t n
      · exact .inr ⟨t, ht, n, hn, ⟨hown, hcounts⟩, hover⟩
      · exact .inl ⟨t, ht, n, hn, ⟨hown, hcounts⟩, hover⟩
    · rintro (⟨t, ht, n, hn, hcounts, hover⟩ | ⟨t, ht, n, hn, hcounts, hover⟩) <;>
        exact ⟨t, ht, n, hn, hcounts.2, hover⟩
  have hnone : (∀ t ∈ stored, ∀ n ∈ t.realnets, ∀ other, networkFromLanExtra n.extra = .ok other →
      other.overlapsV4 net → ¬Counts currentPath extra t n) ↔
      ¬Overlapping stored net (Counts currentPath extra) := by
    constructor
    · rintro h ⟨t, ht, n, hn, hcounts, other, hother, hover⟩
      exact h t ht n hn other hother hover hcounts
    · exact fun h t ht n hn other hother hover hcounts => h ⟨t, ht, n, hn, hcounts, other, hother, hover⟩
  have hother : (Overlapping stored net fun t n =>
      ¬IsOwn currentPath name t n ∧ Counts currentPath extra t n) →
      Overlapping stored net fun t n => ¬IsOwn currentPath name t n :=
    fun ⟨t, ht, n, hn, hp, hover⟩ => ⟨t, ht, n, hn, hp.1, hover⟩
  have hgateway (out : Mapping)
      (hout : normalizeRealnetLan stored currentPath extra networkPool shuffle = .ok out) :
      out.get "network" = .str net.text ∧
        out.get "ipv4" = .str (Ip.text gateway ++ "/" ++ toString net.prefixlen) ∧
        gateway ∈ net.hosts := by
    obtain ⟨-, -, rfl⟩ := (normalizeRealnetLan_eq_ok h).1 hout
    refine ⟨?_, ?_, mem_hosts_of_parseLanPair h.2.2⟩
    · rw [Mapping.get_set, if_neg (by decide), Mapping.get_set, if_pos rfl]
    · rw [Mapping.get_set, if_pos rfl]
  have haccepts : (∃ out, normalizeRealnetLan stored currentPath extra networkPool shuffle = .ok out) ↔
      (∃ pool, parseRealnetNetworkPool networkPool = .ok pool) ∧
        ¬Overlapping stored net (Counts currentPath extra) := by
    constructor
    · rintro ⟨out, hout⟩
      obtain ⟨hpool, hfree, -⟩ := (normalizeRealnetLan_eq_ok h).1 hout
      exact ⟨hpool, hfree⟩
    · rintro ⟨hpool, hfree⟩
      exact ⟨_, (normalizeRealnetLan_eq_ok h).2 ⟨hpool, hfree, rfl⟩⟩
  -- The rest is about the truth of these four.
  rw [AcceptsLegal, hnone, haccepts, and_iff_left hgateway, hcounted]
  clear hnone haccepts hgateway hcounted h
  revert hother
  generalize (Overlapping stored net fun t n =>
    ¬IsOwn currentPath name t n ∧ Counts currentPath extra t n) = counted
  generalize (Overlapping stored net fun t n =>
    IsOwn currentPath name t n ∧ Counts currentPath extra t n) = own
  generalize (Overlapping stored net fun t n => ¬IsOwn currentPath name t n) = other
  generalize (∃ pool, parseRealnetNetworkPool networkPool = .ok pool) = valid
  tauto

/-- A lab whose real network has the first 256 addresses of the pool. -/
def oneLan : List StoredTopology :=
  [⟨"lab.yml", some [⟨"rn", "_real_net", .ofFields [("network", .str "100.64.0.0/24"),
    ("ipv4", .str "100.64.0.1/24")]⟩]⟩]

/-- Its network is to be halved. -/
def halfLan : Mapping := .ofFields [("network", .str "100.64.0.0/25"), ("ipv4", .str "100.64.0.2")]

theorem halfPrefix_le : 25 ≤ 32 := by decide

/-- The first 128 addresses of the pool. -/
def halfNet : Network := ⟨1681915904, 25, halfPrefix_le, by decide, by decide⟩

/-- Its network is to be the next 256 addresses. -/
def nextLan : Mapping := .ofFields [("network", .str "100.64.1.0/24"), ("ipv4", .str "100.64.1.1")]

theorem nextPrefix_le : 24 ≤ 32 := by decide

def nextNet : Network := ⟨1681916160, 24, nextPrefix_le, by decide, by decide⟩

theorem acceptsLegal_nextLan :
    AcceptsLegal oneLan "lab.yml" "rn" nextLan "100.64.0.0/10" id nextNet 1681916161 := by
  have hpool : ∃ pool, parseRealnetNetworkPool "100.64.0.0/10" = .ok pool :=
    ⟨⟨1681915904, 10, by decide, by decide, by decide⟩, by decide +kernel⟩
  have hapart (p : StoredTopology → StoredNode → Prop) : ¬Overlapping oneLan nextNet p := by
    rintro ⟨t, ht, n, hn, -, other, hother, hoverlaps⟩
    obtain rfl := List.mem_singleton.1 ht
    obtain rfl := List.mem_singleton.1 hn
    have hnone : (networkFromLanExtra (.ofFields [("network", .str "100.64.0.0/24"),
        ("ipv4", .str "100.64.0.1/24")])).map (AnyNetwork.overlapsV4 nextNet) = .ok false := by
      decide +kernel
    rw [hother] at hnone
    exact absurd hoverlaps (by rw [Except.ok.inj hnone]; exact Bool.false_ne_true)
  refine (acceptsLegal_iff _ _ _ _ _ ⟨by decide +kernel, by decide +kernel, by decide +kernel⟩).2
    ⟨?_, fun h => hapart _ h.1⟩
  rintro ⟨-, hbad | ⟨t, ht, n, hn, ⟨hown, hcounts⟩, other, hother, hoverlaps⟩⟩
  · exact hbad hpool
  · exact hapart (fun _ _ => True) ⟨t, ht, n, hn, trivial, other, hother, hoverlaps⟩

/-- The new network is refused because it overlaps what it is to replace. -/
theorem not_acceptsLegal_halfLan :
    ¬∀ (stored : List StoredTopology) (currentPath name networkPool : String) (extra : Mapping)
      (shuffle : List Network → List Network) (net : Network) (gateway : ℕ),
      (∃ pool, parseRealnetNetworkPool networkPool = .ok pool) → Explicit extra net gateway →
        AcceptsLegal stored currentPath name extra networkPool shuffle net gateway := by
  intro h
  have hpool : parseRealnetNetworkPool "100.64.0.0/10" =
      .ok ⟨1681915904, 10, by decide, by decide, by decide⟩ := by decide +kernel
  have hexplicit : Explicit halfLan halfNet 1681915906 :=
    ⟨by decide +kernel, by decide +kernel, by decide +kernel⟩
  obtain ⟨haccepts, -⟩ := h oneLan "lab.yml" "rn" "100.64.0.0/10" halfLan id halfNet 1681915906
    ⟨_, hpool⟩ hexplicit
  have hown : ¬Overlapping oneLan halfNet fun t n => ¬IsOwn "lab.yml" "rn" t n := by
    rintro ⟨t, ht, n, hn, hother, -⟩
    obtain rfl := List.mem_singleton.1 ht
    obtain rfl := List.mem_singleton.1 hn
    exact hother ⟨rfl, rfl⟩
  obtain ⟨out, hout⟩ := haccepts.2 hown
  have hrefused : (normalizeRealnetLan oneLan "lab.yml" halfLan "100.64.0.0/10" id).toOption.isNone := by
    decide +kernel
  rw [hout] at hrefused
  cases hrefused

end Dnlab.Gui.RealnetBgp
