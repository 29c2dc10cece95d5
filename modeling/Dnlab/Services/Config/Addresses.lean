import Dnlab.Services.Config.Ledger

/-!
# The addresses of devices are safe

What holds when `assignStickyMgmtIpv4` succeeds, whatever mix of explicit,
carried, evicted and new devices it is given: every device has an address of
its own, and none has one that the reservations hold for another owner, unless
it claims it (`assignStickyMgmtIpv4_safe`). When it fails, the reasons are the
ones that the topology or the size of the subnet give (`Refused`).

The invariant that carries this is that the ledger knows the device of each
address that is given out: `owner_address`.
-/

namespace Dnlab.Config

open Ip (Network)

/-- A device of the topology claims an address. -/
def ClaimsIp (nodes : Dict String VDNode) (name : String) (ip : ℕ) : Prop :=
  ∃ node, nodes.get? name = some node ∧ node.mgmtIpv4Explicit = true ∧
    Ip.parse node.mgmtIpv4 = .ok ip

/-- The reservations give a usable address to an owner, and to nobody before. -/
def ValidEntry (net : Network) (reserved : List ℕ) (reservations : Dict String String)
    (owner : String) (ip : ℕ) : Prop :=
  Usable net reserved ip ∧ holder reservations.items ip = some owner

/-- The claims of a topology, granted. -/
structure Granted (net : Network) (reserved : List ℕ) (nodes : Dict String VDNode)
    (cs : List (String × ℕ)) : Prop where
  claims : Claims nodes.items cs
  usable : ∀ c ∈ cs, Usable net reserved c.2
  nodup : (cs.map Prod.snd).Nodup

section Passes

variable {net : Network} {reserved : List ℕ} {nodes : Dict String VDNode}
  {reservations : Dict String String} {L L' : Ledger} {cs : List (String × ℕ)}
  {given : List (String × String)} {n k : String} {ip : ℕ}

theorem claimAll_nodes_eq_ok : claimAll net reserved L ∅ nodes.items = .ok L' ↔
    ∃ cs, Granted net reserved nodes cs ∧ L' = afterClaims L cs := by
  rw [claimAll_eq_ok]
  constructor
  · rintro ⟨cs, hclaims, hall, hnodup, rfl⟩
    exact ⟨cs, ⟨hclaims, fun c hc => (hall c hc).1, hnodup⟩, rfl⟩
  · rintro ⟨cs, hG, rfl⟩
    exact ⟨cs, hG.claims, fun c hc => ⟨hG.usable c hc, rfl⟩, hG.nodup, rfl⟩

theorem isExplicit_iff : isExplicit nodes n = true ↔
    ∃ node, nodes.get? n = some node ∧ node.mgmtIpv4Explicit = true := by
  rw [isExplicit]
  cases nodes.get? n <;> simp

theorem mem_implicitNames : n ∈ implicitNames nodes ↔ n ∈ nodes.keys ∧ isExplicit nodes n = false := by
  rw [implicitNames, List.mem_filter, List.mem_insertionSort, Bool.not_eq_true']

theorem nodup_implicitNames : (implicitNames nodes).Nodup := by
  refine List.Nodup.filter _ ?_
  exact (List.perm_insertionSort _ _).nodup_iff.2 nodes.nodup_keys'

theorem mem_explicitNodes {e : String × VDNode} : e ∈ explicitNodes nodes.items ↔
    nodes.get? e.1 = some e.2 ∧ e.2.mgmtIpv4Explicit = true := by
  rw [explicitNodes, List.mem_filter, Dict.get?_eq_some_iff]

theorem Claims.map_fst {nodes : List (String × VDNode)} (h : Claims nodes cs) :
    cs.map Prod.fst = (explicitNodes nodes).map Prod.fst := by
  rw [Claims] at h
  generalize explicitNodes nodes = l at h ⊢
  induction h with
  | nil => rfl
  | cons hc _ ih => rw [List.map_cons, List.map_cons, ih, hc.1]

theorem nodup_explicitNodes : ((explicitNodes nodes.items).map Prod.fst).Nodup :=
  nodes.nodup_keys.sublist (List.filter_sublist.map _)

theorem Granted.nodup_names (hG : Granted net reserved nodes cs) : (cs.map Prod.fst).Nodup := by
  rw [hG.claims.map_fst]
  exact nodup_explicitNodes

theorem Granted.mem_iff (hG : Granted net reserved nodes cs) : (n, ip) ∈ cs ↔ ClaimsIp nodes n ip := by
  constructor
  · intro hc
    obtain ⟨i, hi, hci⟩ := List.mem_iff_getElem.1 hc
    have hi' : i < (explicitNodes nodes.items).length := by rw [hG.claims.length_eq]; exact hi
    obtain ⟨hname, hp⟩ := hG.claims.get hi' hi
    obtain ⟨hget, hx⟩ := mem_explicitNodes.1 (List.getElem_mem hi')
    simp only [List.get_eq_getElem, hci] at hname hp
    exact ⟨_, hname ▸ hget, hx, hp⟩
  · rintro ⟨node, hget, hx, hp⟩
    have hmem : (n, node) ∈ explicitNodes nodes.items := mem_explicitNodes.2 ⟨hget, hx⟩
    obtain ⟨i, hi, hei⟩ := List.mem_iff_getElem.1 hmem
    have hi' : i < cs.length := by rw [← hG.claims.length_eq]; exact hi
    obtain ⟨hname, hp'⟩ := hG.claims.get hi hi'
    simp only [List.get_eq_getElem, hei] at hname hp'
    have heq : (n, ip) = cs[i] := Prod.ext hname.symm (Except.ok.inj (hp.symm.trans hp'))
    exact heq ▸ List.getElem_mem hi'

/-- A device is explicit if it claims an address. -/
theorem ClaimsIp.isExplicit (h : ClaimsIp nodes n ip) : isExplicit nodes n = true := by
  obtain ⟨node, hget, hx, -⟩ := h
  exact isExplicit_iff.2 ⟨node, hget, hx⟩

theorem ClaimsIp.inj {ip' : ℕ} (h : ClaimsIp nodes n ip) (h' : ClaimsIp nodes n ip') : ip = ip' := by
  obtain ⟨node, hget, -, hp⟩ := h
  obtain ⟨node', hget', -, hp'⟩ := h'
  obtain rfl := Option.some.inj (hget.symm.trans hget')
  exact Except.ok.inj (hp.symm.trans hp')

/-- After the claims, an address belongs to the device that claims it, or else to the owner that it
    is reserved for. -/
theorem Granted.owner_iff (hG : Granted net reserved nodes cs) :
    (afterClaims (carried net reserved reservations) cs).ipOwner.get? ip = some k ↔
      ClaimsIp nodes k ip ∨
        (∀ m, ¬ClaimsIp nodes m ip) ∧ ValidEntry net reserved reservations k ip := by
  by_cases h : ip ∈ cs.map Prod.snd
  · obtain ⟨c, hc, rfl⟩ := List.mem_map.1 h
    have hm : ClaimsIp nodes c.1 c.2 := hG.mem_iff.1 hc
    rw [ipOwner_afterClaims_of_mem hG.nodup hc, Option.some.injEq]
    constructor
    · rintro rfl
      exact .inl hm
    · rintro (hk | ⟨hnobody, -⟩)
      · exact congrArg Prod.fst (List.inj_on_of_nodup_map hG.nodup hc (hG.mem_iff.2 hk) rfl)
      · exact absurd hm (hnobody _)
  · have hnobody : ∀ m, ¬ClaimsIp nodes m ip := fun m hm =>
      h (List.mem_map.2 ⟨_, hG.mem_iff.2 hm, rfl⟩)
    rw [ipOwner_afterClaims_of_notMem h, get?_carried]
    exact ⟨fun hk => .inr ⟨hnobody, hk⟩, fun hk => (hk.resolve_left (hnobody k)).2⟩

theorem Granted.usable_of_owner (hG : Granted net reserved nodes cs)
    (h : (afterClaims (carried net reserved reservations) cs).ipOwner.get? ip = some k) :
    Usable net reserved ip := by
  rcases hG.owner_iff.1 h with hk | ⟨-, hk⟩
  · exact hG.usable _ (hG.mem_iff.2 hk)
  · exact hk.1

theorem Usable.lt (h : Usable net reserved ip) : ip < 2 ^ 32 := Network.lt_of_contains h.1

/-- An owner has one valid entry. -/
theorem ValidEntry.inj {ip' : ℕ} (h : ValidEntry net reserved reservations k ip)
    (h' : ValidEntry net reserved reservations k ip') : ip = ip' := by
  have hs := (linked_carried.get?_iff k _).2 ⟨ip, rfl, get?_carried.2 h⟩
  have hs' := (linked_carried.get?_iff k _).2 ⟨ip', rfl, get?_carried.2 h'⟩
  exact Ip.text_inj h.1.lt h'.1.lt (Option.some.inj (hs.symm.trans hs'))

/-- The valid entry of an owner that claims nothing stays, unless its address is claimed. -/
theorem Granted.sticky_of_entry (hG : Granted net reserved nodes cs)
    (hx : isExplicit nodes k = false) (h : ValidEntry net reserved reservations k ip)
    (hnobody : ∀ m, ¬ClaimsIp nodes m ip) :
    (afterClaims (carried net reserved reservations) cs).sticky.get? k = some (Ip.text ip) := by
  have hk : k ∉ cs.map Prod.fst := by
    intro hmem
    obtain ⟨c, hc, rfl⟩ := List.mem_map.1 hmem
    have hexplicit : isExplicit nodes c.1 = true := (hG.mem_iff.1 hc).isExplicit
    rw [hx] at hexplicit
    cases hexplicit
  rw [sticky_afterClaims_of_notMem hG.nodup hk, if_neg]
  · exact (linked_carried.get?_iff k _).2 ⟨ip, rfl, get?_carried.2 h⟩
  · rintro ⟨-, c, hc, howner⟩
    obtain rfl := h.inj (get?_carried.1 howner)
    exact hnobody c.1 (hG.mem_iff.1 hc)

theorem get?_addressesOf : (addressesOf nodes given).get? n =
    (nodes.get? n).map fun node => ((Dict.ofList given).get? n).getD node.mgmtIpv4 := by
  rw [addressesOf, Dict.get?_map]
  rfl

/-- Where the address of a device that claims none comes from. -/
def SettledOn (net : Network) (reserved : List ℕ) (L : Ledger) (n : String) (ip : ℕ) : Prop :=
  ownIp L n = some ip ∨
    (ip ∈ net.hosts ∧ ip ∉ reserved ∧ L.ipOwner.get? ip = none ∧ ownIp L n = none)

/-- Every device has an address that the ledger knows it by. -/
theorem owner_address (hnet : net.prefixlen ≤ 29) (hG : Granted net reserved nodes cs)
    (hS : Settled net reserved (afterClaims (carried net reserved reservations) cs)
      (implicitNames nodes) given L) (hn : n ∈ nodes.keys) :
    ∃ ip, (addressesOf nodes given).get? n = some (Ip.text ip) ∧ L.ipOwner.get? ip = some n ∧
      Usable net reserved ip ∧ (ClaimsIp nodes n ip ∨ isExplicit nodes n = false ∧
        L.sticky.get? n = some (Ip.text ip) ∧
        SettledOn net reserved (afterClaims (carried net reserved reservations) cs) n ip) := by
  obtain ⟨node, hnode⟩ := Dict.mem_keys_iff.1 hn
  rw [get?_addressesOf, hnode]
  cases hx : isExplicit nodes n with
  | true =>
    -- The address of an explicit device is the one that it claims.
    obtain ⟨node', hget, hx'⟩ := isExplicit_iff.1 hx
    obtain rfl := Option.some.inj (hnode.symm.trans hget)
    have hmem : n ∈ cs.map Prod.fst := by
      rw [hG.claims.map_fst]
      exact List.mem_map.2 ⟨(n, node), mem_explicitNodes.2 ⟨hget, hx'⟩, rfl⟩
    obtain ⟨⟨n', ip⟩, hc, rfl⟩ := List.mem_map.1 hmem
    have hclaims : ClaimsIp nodes n' ip := hG.mem_iff.1 hc
    have hgiven : (Dict.ofList given).get? n' = none := by
      rw [Dict.get?_ofList_eq_none, hS.fst_given, mem_implicitNames, hx]
      exact fun himp => absurd himp.2 (by decide)
    obtain ⟨node'', hget', -, hp⟩ := hclaims
    obtain rfl := Option.some.inj (hget.symm.trans hget')
    refine ⟨ip, ?_, hS.extends_owner _ _ (hG.owner_iff.2 (.inl (hG.mem_iff.1 hc))),
      hG.usable _ hc, .inl (hG.mem_iff.1 hc)⟩
    rw [Option.map_some, hgiven, Option.getD_none, (Ip.text_of_parse hp).2]
  | false =>
    have hmem : n ∈ given.map Prod.fst := by
      rw [hS.fst_given]
      exact mem_implicitNames.2 ⟨hn, hx⟩
    obtain ⟨⟨n', s⟩, hgiven, rfl⟩ := List.mem_map.1 hmem
    obtain ⟨ip, rfl, hsticky, howner, hcase⟩ := hS.settled n' s hgiven
    have hnodup : (given.map Prod.fst).Nodup := by
      rw [hS.fst_given]
      exact nodup_implicitNames
    have hlookup := (Dict.get?_ofList_of_nodup hnodup).2 hgiven
    refine ⟨ip, ?_, howner, ?_, .inr ⟨rfl, hsticky, hcase⟩⟩
    · rw [Option.map_some, hlookup, Option.getD_some]
    · rcases hcase with hown | ⟨hhost, hres, -, -⟩
      · exact hG.usable_of_owner (ownIp_eq_some.1 hown).2.2
      · exact ⟨Network.contains_of_mem_hosts (by omega) hhost, hres⟩

end Passes

/-! ## Success -/

/-- What an assignment promises. -/
structure Safe (net : Network) (reserved : List ℕ) (nodes : Dict String VDNode)
    (reservations addresses : Dict String String) : Prop where
  /-- Every device has a usable address. -/
  assigned : ∀ n ∈ nodes.keys, ∃ ip, addresses.get? n = some (Ip.text ip) ∧
    net.contains ip = true ∧ ip ∉ reserved
  /-- No two devices have the same. -/
  distinct : ∀ n m t, addresses.get? n = some t → addresses.get? m = some t → n = m
  /-- A device has an address that is reserved for another owner only if it claims it. -/
  others : ∀ n ip owner, addresses.get? n = some (Ip.text ip) → Holds reservations owner ip →
    owner ≠ n → ClaimsIp nodes n ip

/-- No two owners have the same address. -/
def NoDuplicates (reservations : Dict String String) : Prop :=
  ∀ k k' ip, Holds reservations k ip → Holds reservations k' ip → k = k'

section Success

variable {net : Network} {reserved : List ℕ} {nodes : Dict String VDNode}
  {reservations : Dict String String} {L : Ledger} {cs : List (String × ℕ)}
  {given : List (String × String)} {n k : String} {ip : ℕ}

theorem holds_of_holder (h : holder reservations.items ip = some k) : Holds reservations k ip := by
  obtain ⟨value, hmem, hp⟩ := mem_of_holder h
  exact ⟨value, Dict.get?_eq_some_iff.2 hmem, hp⟩

/-- Without duplicates, a usable address that is reserved is carried over. -/
theorem validEntry_of_holds (hledger : NoDuplicates reservations) (hu : Usable net reserved ip)
    (h : Holds reservations k ip) : ValidEntry net reserved reservations k ip := by
  obtain ⟨value, hget, hp⟩ := id h
  obtain ⟨k', hk'⟩ := Option.ne_none_iff_exists'.1
    (holder_ne_none (Dict.get?_eq_some_iff.1 hget) hp)
  obtain rfl := hledger _ _ _ h (holds_of_holder hk')
  exact ⟨hu, hk'⟩

theorem mem_keys_of_addressesOf {t : String} (h : (addressesOf nodes given).get? n = some t) :
    n ∈ nodes.keys := by
  have := Dict.mem_keys_iff.2 ⟨t, h⟩
  rwa [addressesOf, Dict.keys_map] at this

section Settled

variable (hnet : net.prefixlen ≤ 29) (hG : Granted net reserved nodes cs)
  (hS : Settled net reserved (afterClaims (carried net reserved reservations) cs)
    (implicitNames nodes) given L)

include hnet hG hS

/-- No two devices have the same address: the ledger knows one device for it. -/
theorem distinct_addressesOf {m t : String} (h : (addressesOf nodes given).get? n = some t)
    (h' : (addressesOf nodes given).get? m = some t) : n = m := by
  obtain ⟨ip, hget, howner, hu, -⟩ :=
    owner_address hnet hG hS (mem_keys_of_addressesOf h)
  obtain ⟨ip', hget', howner', hu', -⟩ :=
    owner_address hnet hG hS (mem_keys_of_addressesOf h')
  rw [h, Option.some.injEq] at hget
  rw [h', Option.some.injEq] at hget'
  obtain rfl := Ip.text_inj hu.lt hu'.lt (hget.symm.trans hget')
  exact Option.some.inj (howner.symm.trans howner')

theorem safe_of_settled (hledger : NoDuplicates reservations) :
    Safe net reserved nodes reservations (addressesOf nodes given) := by
  refine ⟨fun m hm => ?_, fun m m' t => distinct_addressesOf hnet hG hS,
    fun m ip owner hm hholds hne => ?_⟩
  · obtain ⟨ip, hget, -, hu, -⟩ := owner_address hnet hG hS hm
    exact ⟨ip, hget, hu⟩
  · obtain ⟨ip', hget, -, hu, hcase⟩ :=
      owner_address hnet hG hS (mem_keys_of_addressesOf hm)
    obtain ⟨value, -, hp⟩ := id hholds
    rw [hm, Option.some.injEq] at hget
    obtain rfl := Ip.text_inj (Ip.text_of_parse hp).1 hu.lt hget
    rcases hcase with hclaims | ⟨himp, -, hcase⟩
    · exact hclaims
    · -- After the claims the address has an owner, which is not this device.
      exfalso
      have howner : ∃ k, (afterClaims (carried net reserved reservations) cs).ipOwner.get? ip =
          some k ∧ k ≠ m := by
        by_cases hclaimed : ∃ k, ClaimsIp nodes k ip
        · obtain ⟨k, hk⟩ := hclaimed
          refine ⟨k, hG.owner_iff.2 (.inl hk), ?_⟩
          rintro rfl
          rw [hk.isExplicit] at himp
          cases himp
        · exact ⟨owner, hG.owner_iff.2 (.inr ⟨fun k hk => hclaimed ⟨k, hk⟩,
            validEntry_of_holds hledger hu hholds⟩), hne⟩
      obtain ⟨k, hk, hkne⟩ := howner
      rcases hcase with hown | ⟨-, -, hfree, -⟩
      · rw [(ownIp_eq_some.1 hown).2.2] at hk
        exact hkne (Option.some.inj hk).symm
      · rw [hfree] at hk
        cases hk

end Settled

end Success

/-! ## Failure -/

/-- What is wrong with the address that a device claims. -/
def BadClaim (net : Network) (reserved : List ℕ) (nodes : Dict String VDNode) (name : String)
    (node : VDNode) : Prop :=
  (∀ ip, Ip.parse node.mgmtIpv4 ≠ .ok ip) ∨
    ∃ ip, Ip.parse node.mgmtIpv4 = .ok ip ∧
      (net.contains ip = false ∨ ip ∈ reserved ∨ ∃ other, other ≠ name ∧ ClaimsIp nodes other ip)

/-- A device that claims no address cannot keep one of before either. -/
def NeedsFresh (net : Network) (reserved : List ℕ) (nodes : Dict String VDNode)
    (reservations : Dict String String) (name : String) : Prop :=
  name ∈ nodes.keys ∧ isExplicit nodes name = false ∧
    ∀ ip, Holds reservations name ip → Usable net reserved ip → ∃ other, ClaimsIp nodes other ip

/-- Why an assignment is refused. -/
inductive Refused (nodes : Dict String VDNode) (mgmt : MgmtConfig)
    (reservations : Dict String String) : Prop
  /-- The subnet cannot hold the addresses of the infrastructure. -/
  | noRoom (h : ∀ net r, Network.parse mgmt.ipv4Subnet = .ok net →
      MgmtIps.reservationsOf net ≠ .ok r)
  /-- A device claims an address that it cannot have. -/
  | claim (net : Network) (r : MgmtIps.MgmtIPv4Reservations) (name : String) (node : VDNode)
      (hnet : Network.parse mgmt.ipv4Subnet = .ok net) (hr : MgmtIps.reservationsOf net = .ok r)
      (hnode : nodes.get? name = some node) (hexplicit : node.mgmtIpv4Explicit = true)
      (hbad : BadClaim net r.toList nodes name node)
  /-- A device needs a fresh address, and there is none: each host is reserved, is claimed by a
      device or given to one of the devices `before`, or is held by the reservations. -/
  | exhausted (net : Network) (r : MgmtIps.MgmtIPv4Reservations) (L L' : Ledger)
      (name : String) (before after : List String) (given : List (String × String))
      (hnet : Network.parse mgmt.ipv4Subnet = .ok net) (hr : MgmtIps.reservationsOf net = .ok r)
      (hclaims : claimAll net r.toList (carried net r.toList reservations) ∅ nodes.items = .ok L)
      (hnames : implicitNames nodes = before ++ name :: after)
      (hbefore : settleAll net r.toList L before = .ok (given, L'))
      (hneeds : NeedsFresh net r.toList nodes reservations name)
      (hfull : ∀ ip ∈ net.hosts, ip ∈ r.toList ∨ (∃ m, ClaimsIp nodes m ip) ∨
        (∃ m, (m, Ip.text ip) ∈ given) ∨ ∃ owner, Holds reservations owner ip)

section Failure

variable {net : Network} {reserved : List ℕ} {nodes : Dict String VDNode}
  {reservations : Dict String String} {L L' : Ledger} {cs : List (String × ℕ)}
  {given : List (String × String)} {n k : String} {ip : ℕ}

/-- Unless a claim is bad, all are granted. -/
theorem granted_of_not_bad (h : ∀ name node, nodes.get? name = some node →
    node.mgmtIpv4Explicit = true → ¬BadClaim net reserved nodes name node) :
    ∃ cs, Granted net reserved nodes cs := by
  let ipOf (e : String × VDNode) : ℕ := (Ip.parse e.2.mgmtIpv4).toOption.getD 0
  have hgood : ∀ e ∈ explicitNodes nodes.items, Ip.parse e.2.mgmtIpv4 = .ok (ipOf e) ∧
      Usable net reserved (ipOf e) ∧ ∀ other, other ≠ e.1 → ¬ClaimsIp nodes other (ipOf e) := by
    intro e he
    obtain ⟨hget, hx⟩ := mem_explicitNodes.1 he
    have hnot := h _ _ hget hx
    rw [BadClaim, not_or] at hnot
    obtain ⟨ip, hp⟩ := not_forall_not.1 hnot.1
    have hip : ipOf e = ip := by simp [ipOf, hp, Except.toOption]
    rw [hip]
    refine ⟨hp, ⟨?_, fun hres => hnot.2 ⟨ip, hp, .inr (.inl hres)⟩⟩, fun other hne hother =>
      hnot.2 ⟨ip, hp, .inr (.inr ⟨other, hne, hother⟩)⟩⟩
    by_contra hout
    exact hnot.2 ⟨ip, hp, .inl (Bool.not_eq_true _ ▸ hout)⟩
  refine ⟨(explicitNodes nodes.items).map fun e => (e.1, ipOf e), ?_, ?_, ?_⟩
  · rw [Claims, List.forall₂_map_right_iff, List.forall₂_same]
    exact fun e he => ⟨rfl, (hgood e he).1⟩
  · intro c hc
    obtain ⟨e, he, rfl⟩ := List.mem_map.1 hc
    exact (hgood e he).2.1
  · -- Two devices with one address would be a duplicate.
    rw [List.map_map]
    refine List.Nodup.map_on ?_ (List.Nodup.of_map _ nodup_explicitNodes)
    intro e he e' he' heq
    have heq' : ipOf e = ipOf e' := heq
    obtain ⟨hget, hx⟩ := mem_explicitNodes.1 he
    have hname : e.1 = e'.1 := by
      by_contra hne
      exact (hgood e' he').2.2 e.1 hne ⟨e.2, hget, hx, heq' ▸ (hgood e he).1⟩
    have hget' := (mem_explicitNodes.1 he').1
    rw [← hname, hget, Option.some.injEq] at hget'
    exact Prod.ext hname hget'

/-- Devices cannot all settle if there is none free for one of them. -/
theorem settleAll_error {names : List String} {e : Err}
    (h : settleAll net reserved L names = .error e) :
    ∃ before n after given L', names = before ++ n :: after ∧
      settleAll net reserved L before = .ok (given, L') ∧ ownIp L' n = none ∧
      freeIp net reserved L' = none := by
  induction names generalizing L e with
  | nil => cases h
  | cons name names ih =>
    rw [settleAll] at h
    cases hfirst : settle net reserved L name with
    | error e' =>
      refine ⟨[], name, names, [], L, rfl, rfl, ?_⟩
      rw [settle] at hfirst
      cases ho : ownIp L name with
      | some ip =>
        rw [ho] at hfirst
        cases hfirst
      | none =>
        rw [ho] at hfirst
        dsimp only at hfirst
        cases hf : freeIp net reserved L with
        | some ip =>
          rw [hf] at hfirst
          cases hfirst
        | none => exact ⟨rfl, rfl⟩
    | ok first =>
      obtain ⟨s, L₁⟩ := first
      rw [hfirst] at h
      cases hrest : settleAll net reserved L₁ names with
      | ok rest =>
        simp [hrest, bind, Except.bind, pure, Except.pure] at h
      | error e' =>
        obtain ⟨before, n, after, given, L', rfl, hbefore, hnone⟩ := ih hrest
        refine ⟨name :: before, n, after, (name, s) :: given, L', rfl, ?_, hnone⟩
        rw [settleAll, hfirst]
        exact (congrArg (Except.map fun p => ((name, s) :: p.1, p.2)) hbefore)

/-- A device that settles on a fresh address needs one. -/
theorem needsFresh_of_ownIp {before after : List String} (hledger : NoDuplicates reservations)
    (hG : Granted net reserved nodes cs)
    (hS : Settled net reserved (afterClaims (carried net reserved reservations) cs) before given L)
    (hnames : implicitNames nodes = before ++ n :: after) (hown : ownIp L n = none) :
    NeedsFresh net reserved nodes reservations n := by
  have hn : n ∈ implicitNames nodes := by
    rw [hnames]
    simp
  have hbefore : n ∉ before := by
    intro hmem
    have hnodup : (before ++ n :: after).Nodup := hnames ▸ nodup_implicitNames
    exact (List.nodup_append.1 hnodup).2.2 n hmem n List.mem_cons_self rfl
  rw [mem_implicitNames] at hn
  refine ⟨hn.1, hn.2, fun ip hholds hu => ?_⟩
  -- Otherwise its entry has stayed, and it would have kept its address.
  by_contra hnobody
  have hnobody' : ∀ m, ¬ClaimsIp nodes m ip := fun m hm => hnobody ⟨m, hm⟩
  have hentry := validEntry_of_holds hledger hu hholds
  have hsome : ownIp L n = some ip := by
    refine ownIp_eq_some.2 ⟨hu.lt, ?_, hS.extends_owner _ _ (hG.owner_iff.2 (.inr ⟨hnobody', hentry⟩))⟩
    rw [hS.others n hbefore, hG.sticky_of_entry hn.2 hentry hnobody']
  rw [hown] at hsome
  cases hsome

/-- The hosts that are not free. -/
theorem full_of_freeIp {before : List String} (hG : Granted net reserved nodes cs)
    (hS : Settled net reserved (afterClaims (carried net reserved reservations) cs) before given L)
    (hfree : freeIp net reserved L = none) (hip : ip ∈ net.hosts) :
    ip ∈ reserved ∨ (∃ m, ClaimsIp nodes m ip) ∨ (∃ m, (m, Ip.text ip) ∈ given) ∨
      ∃ owner, Holds reservations owner ip := by
  rcases freeIp_eq_none.1 hfree ip hip with hres | howner
  · exact .inl hres
  · obtain ⟨k, hk⟩ := Dict.mem_keys_iff.1 howner
    rcases hS.new_owner ip k hk with hk | hgiven
    · rcases hG.owner_iff.1 hk with hclaims | ⟨-, -, hholder⟩
      · exact .inr (.inl ⟨k, hclaims⟩)
      · exact .inr (.inr (.inr ⟨k, holds_of_holder hholder⟩))
    · exact .inr (.inr (.inl ⟨k, hgiven⟩))

end Failure

/-! ## Both -/

section Assign

variable {nodes : Dict String VDNode} {mgmt : MgmtConfig}
  {reservations addresses sticky : Dict String String}

/-- An assignment that succeeds, pass by pass. -/
theorem assign_eq_ok :
    assignStickyMgmtIpv4 nodes mgmt reservations = .ok (addresses, sticky) ↔
      ∃ net r cs given L, Network.parse mgmt.ipv4Subnet = .ok net ∧
        MgmtIps.reservationsOf net = .ok r ∧ Granted net r.toList nodes cs ∧
        settleAll net r.toList (afterClaims (carried net r.toList reservations) cs)
          (implicitNames nodes) = .ok (given, L) ∧
        addresses = addressesOf nodes given ∧ sticky = L.sticky := by
  rw [assignStickyMgmtIpv4]
  cases hnet : Network.parse mgmt.ipv4Subnet with
  | error e =>
    dsimp only
    split <;> simp
  | ok net =>
    dsimp only
    cases hr : MgmtIps.reservationsOf net with
    | error e => simp [hr]
    | ok r =>
      simp only [ExceptRules.bind_eq_ok, ExceptRules.pure_eq_ok, claimAll_nodes_eq_ok]
      constructor
      · rintro ⟨_, ⟨cs, hG, rfl⟩, ⟨given, L⟩, hsettle, heq⟩
        obtain ⟨rfl, rfl⟩ := Prod.mk.inj heq
        exact ⟨net, r, cs, given, L, rfl, hr, hG, hsettle, rfl, rfl⟩
      · rintro ⟨_, _, cs, given, L, hnet', hr', hG, hsettle, rfl, rfl⟩
        obtain rfl := Except.ok.inj hnet'
        obtain rfl := Except.ok.inj (hr.symm.trans hr')
        exact ⟨_, ⟨cs, hG, rfl⟩, (given, L), hsettle, rfl⟩

/-- Addresses are assigned safely, or are refused for a reason. -/
theorem assignStickyMgmtIpv4_safe (nodes : Dict String VDNode) (mgmt : MgmtConfig)
    (reservations : Dict String String) (hledger : NoDuplicates reservations) :
    (∀ addresses sticky, assignStickyMgmtIpv4 nodes mgmt reservations = .ok (addresses, sticky) →
      ∃ net r, Network.parse mgmt.ipv4Subnet = .ok net ∧ MgmtIps.reservationsOf net = .ok r ∧
        Safe net r.toList nodes reservations addresses) ∧
    ∀ e, assignStickyMgmtIpv4 nodes mgmt reservations = .error e →
      Refused nodes mgmt reservations := by
  constructor
  · intro addresses sticky h
    obtain ⟨net, r, cs, given, L, hnet, hr, hG, hsettle, haddr, -⟩ := assign_eq_ok.1 h
    have hS := settled_of_settleAll nodup_implicitNames hsettle
    refine ⟨net, r, hnet, hr, ?_⟩
    rw [haddr]
    exact safe_of_settled (MgmtIps.prefixlen_le_of_reservationsOf hr) hG hS hledger
  · intro e h
    by_cases hroom : ∃ net r, Network.parse mgmt.ipv4Subnet = .ok net ∧
        MgmtIps.reservationsOf net = .ok r
    swap
    · exact .noRoom fun net r hnet hr => hroom ⟨net, r, hnet, hr⟩
    obtain ⟨net, r, hnet, hr⟩ := hroom
    by_cases hbad : ∃ name node, nodes.get? name = some node ∧ node.mgmtIpv4Explicit = true ∧
        BadClaim net r.toList nodes name node
    · obtain ⟨name, node, hnode, hx, hbad⟩ := hbad
      exact .claim net r name node hnet hr hnode hx hbad
    -- All claims are granted, so a device has found no free address.
    obtain ⟨cs, hG⟩ := granted_of_not_bad fun name node hnode hx hb =>
      hbad ⟨name, node, hnode, hx, hb⟩
    have hclaims : claimAll net r.toList (carried net r.toList reservations) ∅ nodes.items = .ok _ :=
      claimAll_nodes_eq_ok.2 ⟨cs, hG, rfl⟩
    cases hsettle : settleAll net r.toList (afterClaims (carried net r.toList reservations) cs)
        (implicitNames nodes) with
    | ok result =>
      have hok := assign_eq_ok.2 ⟨net, r, cs, result.1, result.2, hnet, hr, hG, hsettle, rfl, rfl⟩
      rw [h] at hok
      cases hok
    | error e' =>
      obtain ⟨before, n, after, given, L', hnames, hbefore, hown, hfree⟩ := settleAll_error hsettle
      have hnodup : before.Nodup := by
        have hall : (before ++ n :: after).Nodup := hnames ▸ nodup_implicitNames
        exact (List.nodup_append.1 hall).1
      have hS := settled_of_settleAll hnodup hbefore
      exact .exhausted net r _ L' n before after given hnet hr hclaims hnames hbefore
        (needsFresh_of_ownIp hledger hG hS hnames hown) fun ip hip => full_of_freeIp hG hS hfree hip

end Assign

/-! ## What a device is given -/

open Classical in
/-- The hosts that nobody claims and that are reserved for nobody, in order. -/
noncomputable def freeHosts (net : Network) (reserved : List ℕ) (nodes : Dict String VDNode)
    (reservations : Dict String String) : List ℕ :=
  net.hosts.filter fun ip =>
    ip ∉ reserved ∧ (∀ m, ¬ClaimsIp nodes m ip) ∧ holder reservations.items ip = none

open Classical in
/-- The devices that claim nothing and for which nothing is reserved but what another claims. -/
noncomputable def newcomers (net : Network) (reserved : List ℕ) (nodes : Dict String VDNode)
    (reservations : Dict String String) : List String :=
  (implicitNames nodes).filter fun name =>
    ∀ ip, ValidEntry net reserved reservations name ip → ∃ m, ClaimsIp nodes m ip

/-- The address that is due to a device: the one that it claims, or else its reserved one if nobody
    claims that, or else its share of the free ones. -/
def Due (net : Network) (reserved : List ℕ) (nodes : Dict String VDNode)
    (reservations : Dict String String) (name : String) (ip : ℕ) : Prop :=
  ClaimsIp nodes name ip ∨ isExplicit nodes name = false ∧
    (ValidEntry net reserved reservations name ip ∧ (∀ m, ¬ClaimsIp nodes m ip) ∨
      ∃ i : ℕ, (newcomers net reserved nodes reservations)[i]? = some name ∧
        (freeHosts net reserved nodes reservations)[i]? = some ip)

section Due

variable {net : Network} {reserved : List ℕ} {nodes : Dict String VDNode} {mgmt : MgmtConfig}
  {n m t : String} {reservations addresses sticky : Dict String String} {cs : List (String × ℕ)}

theorem Granted.ownIp_eq_none (hG : Granted net reserved nodes cs) (hn : n ∈ implicitNames nodes) :
    ownIp (afterClaims (carried net reserved reservations) cs) n = none ↔
      ∀ ip, ValidEntry net reserved reservations n ip → ∃ m, ClaimsIp nodes m ip := by
  have himp := (mem_implicitNames.1 hn).2
  constructor
  · intro hnone ip hentry
    by_contra hunclaimed
    have hnobody : ∀ k, ¬ClaimsIp nodes k ip := fun k hk => hunclaimed ⟨k, hk⟩
    have hown := ownIp_eq_some.2 ⟨hentry.1.lt, hG.sticky_of_entry himp hentry hnobody,
      hG.owner_iff.2 (.inr ⟨hnobody, hentry⟩)⟩
    rw [hnone] at hown
    cases hown
  · intro hclaimed
    by_contra hsome
    obtain ⟨ip, hip⟩ := Option.ne_none_iff_exists'.1 hsome
    rcases hG.owner_iff.1 (ownIp_eq_some.1 hip).2.2 with hclaims | ⟨hnobody, hentry⟩
    · rw [hclaims.isExplicit] at himp
      cases himp
    · obtain ⟨m, hm⟩ := hclaimed ip hentry
      exact hnobody m hm

theorem Granted.freeIps_eq (hnet : net.prefixlen ≤ 29) (hG : Granted net reserved nodes cs) :
    freeIps net reserved (afterClaims (carried net reserved reservations) cs) =
      freeHosts net reserved nodes reservations := by
  classical
  rw [freeIps, freeHosts]
  refine List.filter_congr fun ip hip => ?_
  rw [Bool.eq_iff_iff, decide_eq_true_iff, Bool.not_eq_true', Bool.or_eq_false_iff,
    List.contains_eq_mem, decide_eq_false_iff_not, ← Bool.not_eq_true, Dict.contains_iff,
    ← Dict.get?_eq_none_iff]
  refine and_congr_right fun hres => ?_
  have hu : Usable net reserved ip := ⟨Network.contains_of_mem_hosts (by omega) hip, hres⟩
  rw [Option.eq_none_iff_forall_ne_some]
  constructor
  · intro hfree
    have hnobody : ∀ m, ¬ClaimsIp nodes m ip := fun m hm => hfree m (hG.owner_iff.2 (.inl hm))
    refine ⟨hnobody, Option.eq_none_iff_forall_ne_some.2 fun k hk => ?_⟩
    exact hfree k (hG.owner_iff.2 (.inr ⟨hnobody, hu, hk⟩))
  · rintro ⟨hnobody, hnone⟩ k hk
    rcases hG.owner_iff.1 hk with hclaims | ⟨-, hentry⟩
    · exact hnobody k hclaims
    · have hholder := hentry.2
      rw [hnone] at hholder
      cases hholder

/-- Every device has the address that is due to it. -/
theorem due_of_assign
    (h : assignStickyMgmtIpv4 nodes mgmt reservations = .ok (addresses, sticky))
    (hn : n ∈ nodes.keys) : ∃ net r ip, Network.parse mgmt.ipv4Subnet = .ok net ∧
      MgmtIps.reservationsOf net = .ok r ∧ addresses.get? n = some (Ip.text ip) ∧
        Due net r.toList nodes reservations n ip := by
  obtain ⟨net, r, cs, given, L, hnet, hr, hG, hsettle, rfl, -⟩ := assign_eq_ok.1 h
  have hlen := MgmtIps.prefixlen_le_of_reservationsOf hr
  have hS := settled_of_settleAll nodup_implicitNames hsettle
  obtain ⟨ip, hget, -, hu, hcase⟩ := owner_address hlen hG hS hn
  rcases hcase with hclaims | ⟨himp, -, hown | ⟨-, -, -, hnone⟩⟩
  · exact ⟨net, r, ip, hnet, hr, hget, .inl hclaims⟩
  · refine ⟨net, r, ip, hnet, hr, hget, ?_⟩
    rcases hG.owner_iff.1 (ownIp_eq_some.1 hown).2.2 with hclaims | ⟨hnobody, hentry⟩
    · exact .inl hclaims
    · exact .inr ⟨himp, .inl ⟨hentry, hnobody⟩⟩
  · -- A device without an address takes its share.
    have hmem : n ∈ (implicitNames nodes).filter fun m =>
        (ownIp (afterClaims (carried net r.toList reservations) cs) m).isNone :=
      List.mem_filter.2 ⟨mem_implicitNames.2 ⟨hn, himp⟩, by rw [hnone]; rfl⟩
    obtain ⟨i, hi⟩ := List.mem_iff_getElem?.1 hmem
    obtain ⟨ip', hip', hgiven⟩ := fresh_of_settleAll nodup_implicitNames hsettle hi
    have hnodup : (given.map Prod.fst).Nodup := by
      rw [hS.fst_given]
      exact nodup_implicitNames
    have hlookup := (Dict.get?_ofList_of_nodup hnodup).2 hgiven
    refine ⟨net, r, ip', hnet, hr, ?_, .inr ⟨himp, .inr ⟨i, ?_, hG.freeIps_eq hlen ▸ hip'⟩⟩⟩
    · obtain ⟨node, hnode⟩ := Dict.mem_keys_iff.1 hn
      rw [get?_addressesOf, hnode, Option.map_some, hlookup, Option.getD_some]
    · classical
      rw [← hi, newcomers]
      refine congrArg (·[i]?) (List.filter_congr fun m hm => ?_)
      rw [Bool.eq_iff_iff, decide_eq_true_iff, Option.isNone_iff_eq_none, hG.ownIp_eq_none hm]

theorem distinct_of_assign
    (h : assignStickyMgmtIpv4 nodes mgmt reservations = .ok (addresses, sticky))
    (hn : addresses.get? n = some t) (hm : addresses.get? m = some t) : n = m := by
  obtain ⟨net, r, cs, given, L, -, hr, hG, hsettle, rfl, -⟩ := assign_eq_ok.1 h
  exact distinct_addressesOf (MgmtIps.prefixlen_le_of_reservationsOf hr) hG
    (settled_of_settleAll nodup_implicitNames hsettle) hn hm

theorem keys_of_assign
    (h : assignStickyMgmtIpv4 nodes mgmt reservations = .ok (addresses, sticky)) :
    addresses.keys = nodes.keys := by
  obtain ⟨net, r, cs, given, L, -, -, -, -, rfl, -⟩ := assign_eq_ok.1 h
  exact Dict.keys_map _ _

end Due

/-! ## A small office -/

/-- A router that claims an address, one that has had one, and a new one. -/
def officeNodes : Dict String VDNode := Dict.ofList
  [("r1", { name := "r1", kind := "linux", image := "", mgmtIpv4 := "10.0.0.9",
            mgmtIpv4Explicit := true }),
   ("r2", { name := "r2", kind := "linux", image := "" }),
   ("r3", { name := "r3", kind := "linux", image := "" })]

/-- A small management network. -/
def officeMgmt : MgmtConfig where
  network := "mgmt"
  bridge := "br-mgmt"
  ipv4Subnet := "10.0.0.0/28"
  ipv4Gw := "10.0.0.14"

/-- The second router has an address, and so has one that has been removed. -/
def officeLedger : Dict String String := Dict.ofList [("r0", "10.0.0.2"), ("r2", "10.0.0.5")]

theorem noDuplicates_office : NoDuplicates officeLedger := by
  rintro k k' ip ⟨value, hget, hp⟩ ⟨value', hget', hp'⟩
  have hitems : officeLedger.items = [("r0", "10.0.0.2"), ("r2", "10.0.0.5")] := by decide
  have htext : value = value' := (Ip.text_of_parse hp).2.symm.trans (Ip.text_of_parse hp').2
  subst htext
  rw [Dict.get?_eq_some_iff, hitems, List.mem_pair] at hget hget'
  rcases hget with h | h <;> rcases hget' with h' | h' <;> simp_all

theorem assignStickyMgmtIpv4_office :
    ((assignStickyMgmtIpv4 officeNodes officeMgmt officeLedger).toOption.map (·.1.items) =
      some [("r1", "10.0.0.9"), ("r2", "10.0.0.5"), ("r3", "10.0.0.3")]) ∧
    ∀ addresses sticky,
      assignStickyMgmtIpv4 officeNodes officeMgmt officeLedger = .ok (addresses, sticky) →
        ∃ net r, Network.parse officeMgmt.ipv4Subnet = .ok net ∧
          MgmtIps.reservationsOf net = .ok r ∧
            Safe net r.toList officeNodes officeLedger addresses :=
  ⟨by decide +kernel,
    (assignStickyMgmtIpv4_safe officeNodes officeMgmt officeLedger noDuplicates_office).1⟩

end Dnlab.Config
