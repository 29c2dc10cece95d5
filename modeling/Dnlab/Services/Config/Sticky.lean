import Dnlab.Services.Config.Addresses

/-!
# Which reservations are complete

The reservations that `assignStickyMgmtIpv4` returns are meant to be complete
and stable (`Complete`): they have every device at its address, they keep what
is reserved for owners that are gone, and a second run with them changes
nothing.

A claim evicts the owner of its address by name, and not by address, so a
device that has claimed another address before in the same pass is taken off
the ledger as well. The reservations are complete just if no claim does that,
no claim is for the address of an owner without a name, and the addresses are
hosts (`complete_iff`).
-/

namespace Dnlab.Config

open Ip (Network)

/-- The address that a device claims, as it is written down. -/
def ownAddress (node : VDNode) : Option String :=
  if node.mgmtIpv4Explicit then some node.mgmtIpv4 else none

/-- The same devices in the same order, with the same claims. -/
def SameClaims (nodes nodes' : Dict String VDNode) : Prop :=
  nodes'.map (fun _ node => ownAddress node) = nodes.map fun _ node => ownAddress node

/-- What is expected of the reservations that an assignment returns. -/
structure Complete (net : Network) (reserved : List ℕ) (nodes : Dict String VDNode)
    (mgmt : MgmtConfig) (reservations addresses sticky : Dict String String) : Prop where
  /-- Every device is there with its address. -/
  assigned : ∀ n ∈ nodes.keys, sticky.get? n = addresses.get? n
  /-- The valid entries of owners that are gone are there, unless their address is claimed. -/
  kept : ∀ k ip, k ∉ nodes.keys → ValidEntry net reserved reservations k ip →
    (∀ m, ¬ClaimsIp nodes m ip) → sticky.get? k = some (Ip.text ip)
  injective : ∀ k k' t, sticky.get? k = some t → sticky.get? k' = some t → k = k'
  hosts : ∀ k t, sticky.get? k = some t → ∃ ip ∈ net.hosts, t = Ip.text ip ∧ ip ∉ reserved
  /-- A second run gives the same addresses and the same reservations. -/
  again : ∀ nodes', SameClaims nodes nodes' →
    assignStickyMgmtIpv4 nodes' mgmt sticky = .ok (addresses, sticky)

/-- The topology and the reservations get into each other's way nowhere. -/
structure Orderly (net : Network) (reserved : List ℕ) (nodes : Dict String VDNode)
    (reservations : Dict String String) : Prop where
  /-- No device claims the reserved address of one that has made its own claim before. -/
  chain : (explicitNodes nodes.items).Pairwise fun e e' => e.1 ≠ "" →
    ∀ ip, Ip.parse e'.2.mgmtIpv4 = .ok ip → ¬ValidEntry net reserved reservations e.1 ip
  /-- No device claims the address of an owner without a name that is gone. -/
  unnamed : "" ∉ nodes.keys → ∀ m ip, ClaimsIp nodes m ip →
    ¬ValidEntry net reserved reservations "" ip
  /-- What is claimed is a host. -/
  claims : ∀ m ip, ClaimsIp nodes m ip → ip ∈ net.hosts
  /-- What is reserved for owners that claim nothing is a host. -/
  entries : ∀ k ip, isExplicit nodes k = false → ValidEntry net reserved reservations k ip →
    ip ∈ net.hosts

section Sticky

variable {net : Network} {reserved : List ℕ} {nodes nodes' : Dict String VDNode}
  {reservations : Dict String String} {L L' : Ledger} {cs : List (String × ℕ)}
  {given : List (String × String)} {n k : String} {ip : ℕ}

/-! ## What stays of the reservations -/

section Claims

variable {l : List (String × VDNode)} (h : List.Forall₂ (fun (e : String × VDNode)
  (c : String × ℕ) => c.1 = e.1 ∧ Ip.parse e.2.mgmtIpv4 = .ok c.2) l cs)

include h

/-- What holds of all that is written down for devices holds of all claims. -/
theorem forall_claims {P : ℕ → Prop} :
    (∀ e ∈ l, ∀ ip, Ip.parse e.2.mgmtIpv4 = .ok ip → P ip) ↔ ∀ d ∈ cs, P d.2 := by
  induction h with
  | nil => simp
  | cons hd _ ih =>
    rw [List.forall_mem_cons, List.forall_mem_cons, ih, hd.2]
    simp

theorem pairwise_claims {R : String → ℕ → Prop} :
    (l.Pairwise fun e e' => ∀ ip, Ip.parse e'.2.mgmtIpv4 = .ok ip → R e.1 ip) ↔
      cs.Pairwise fun c d => R c.1 d.2 := by
  induction h with
  | nil => simp
  | cons hc hrest ih =>
    rw [List.pairwise_cons, List.pairwise_cons, ih, hc.1, forall_claims hrest]

end Claims

theorem Granted.pairwise_iff (hG : Granted net reserved nodes cs) :
    ((explicitNodes nodes.items).Pairwise fun e e' => e.1 ≠ "" →
      ∀ ip, Ip.parse e'.2.mgmtIpv4 = .ok ip → ¬ValidEntry net reserved reservations e.1 ip) ↔
      cs.Pairwise fun c d => c.1 ≠ "" → ¬ValidEntry net reserved reservations c.1 d.2 := by
  rw [← pairwise_claims (R := fun k ip => k ≠ "" → ¬ValidEntry net reserved reservations k ip)
    hG.claims]
  have hswap : ∀ e e' : String × VDNode, (e.1 ≠ "" → ∀ ip, Ip.parse e'.2.mgmtIpv4 = .ok ip →
      ¬ValidEntry net reserved reservations e.1 ip) ↔ ∀ ip, Ip.parse e'.2.mgmtIpv4 = .ok ip →
      e.1 ≠ "" → ¬ValidEntry net reserved reservations e.1 ip := fun e e' => forall_comm.trans
        (forall_congr' fun ip => forall_comm)
  simp only [hswap]

theorem pairwise_of_splits {α : Type} {R : α → α → Prop} {l : List α}
    (h : ∀ before c after, l = before ++ c :: after → ∀ d ∈ after, R c d) : l.Pairwise R := by
  induction l with
  | nil => exact .nil
  | cons a l ih =>
    refine List.pairwise_cons.2 ⟨h [] a l rfl, ih fun before c after hl => ?_⟩
    exact h (a :: before) c after (congrArg (a :: ·) hl)

/-- The claims are all written down in the end just if none evicts the device of an earlier one. -/
theorem Granted.sticky_claims_iff (hG : Granted net reserved nodes cs) :
    (∀ c ∈ cs, (afterClaims (carried net reserved reservations) cs).sticky.get? c.1 =
        some (Ip.text c.2)) ↔
      cs.Pairwise fun c d => c.1 ≠ "" → ¬ValidEntry net reserved reservations c.1 d.2 := by
  have hiff : ∀ {c d : String × ℕ}, (carried net reserved reservations).ipOwner.get? d.2 =
      some c.1 ↔ ValidEntry net reserved reservations c.1 d.2 := get?_carried
  constructor
  · refine fun h => pairwise_of_splits fun before c after hsplit d hd hname hentry => ?_
    have hc : c ∈ cs := by
      rw [hsplit]
      simp
    have hstay := h c hc
    rw [sticky_afterClaims_of_mem hG.nodup_names hG.nodup hsplit,
      if_pos ⟨hname, d, hd, hiff.2 hentry⟩] at hstay
    cases hstay
  · intro hpair c hc
    obtain ⟨before, after, hsplit⟩ := List.append_of_mem hc
    rw [sticky_afterClaims_of_mem hG.nodup_names hG.nodup hsplit, if_neg]
    rintro ⟨hname, d, hd, howner⟩
    rw [hsplit, List.pairwise_append, List.pairwise_cons] at hpair
    exact hpair.2.1.1 d hd hname (hiff.1 howner)

/-- An explicit device has claimed an address. -/
theorem Granted.exists_claim (hG : Granted net reserved nodes cs)
    (hx : isExplicit nodes n = true) : ∃ ip, ClaimsIp nodes n ip := by
  obtain ⟨node, hget, hexplicit⟩ := isExplicit_iff.1 hx
  have hmem : n ∈ cs.map Prod.fst := by
    rw [hG.claims.map_fst]
    exact List.mem_map.2 ⟨(n, node), mem_explicitNodes.2 ⟨hget, hexplicit⟩, rfl⟩
  obtain ⟨c, hc, rfl⟩ := List.mem_map.1 hmem
  exact ⟨c.2, hG.mem_iff.1 hc⟩

theorem isExplicit_eq_false_of_notMem (hk : k ∉ nodes.keys) : isExplicit nodes k = false := by
  rw [isExplicit, Dict.get?_eq_none_iff.2 hk]
  rfl

theorem ClaimsIp.mem_keys (h : ClaimsIp nodes n ip) : n ∈ nodes.keys := by
  obtain ⟨node, hget, -⟩ := h
  exact Dict.mem_keys_iff.2 ⟨node, hget⟩

/-- The address of a device that claims one. -/
theorem ClaimsIp.get?_addressesOf (h : ClaimsIp nodes n ip)
    (hnames : given.map Prod.fst = implicitNames nodes) :
    (addressesOf nodes given).get? n = some (Ip.text ip) := by
  have hnone : (Dict.ofList given).get? n = none := by
    rw [Dict.get?_ofList_eq_none, hnames, mem_implicitNames, h.isExplicit]
    exact fun himp => absurd himp.2 (by decide)
  obtain ⟨node, hget, -, hp⟩ := h
  rw [Config.get?_addressesOf, hget, Option.map_some, hnone, Option.getD_none,
    (Ip.text_of_parse hp).2]

/-! ## The reservations afterwards -/

section Afterwards

variable (hnet : net.prefixlen ≤ 29) (hG : Granted net reserved nodes cs)
  (hS : Settled net reserved (afterClaims (carried net reserved reservations) cs)
    (implicitNames nodes) given L)

include hnet hG hS

/-- In orderly conditions, the reservations have the devices at their addresses. -/
theorem assigned_of_orderly (hO : Orderly net reserved nodes reservations) :
    ∀ m ∈ nodes.keys, L.sticky.get? m = (addressesOf nodes given).get? m := by
  intro m hm
  obtain ⟨ip, hget, -, -, hclaims | ⟨-, hsticky, -⟩⟩ := owner_address hnet hG hS hm
  · have himp : m ∉ implicitNames nodes := by
      rw [mem_implicitNames, hclaims.isExplicit]
      exact fun h => absurd h.2 (by decide)
    rw [hget, hS.others m himp]
    exact hG.sticky_claims_iff.2 (hG.pairwise_iff.1 hO.chain) _ (hG.mem_iff.2 hclaims)
  · rw [hsticky, hget]

/-- In orderly conditions, the reservations say who owns an address, and it is a host. -/
theorem owner_of_sticky (hO : Orderly net reserved nodes reservations) {t : String}
    (ht : L.sticky.get? k = some t) : ∃ ip, t = Ip.text ip ∧ L.ipOwner.get? ip = some k ∧
      Usable net reserved ip ∧ ip ∈ net.hosts := by
  by_cases hk : k ∈ nodes.keys
  · obtain ⟨ip, hget, howner, hu, hcase⟩ := owner_address hnet hG hS hk
    rw [assigned_of_orderly hnet hG hS hO k hk, hget, Option.some.injEq] at ht
    refine ⟨ip, ht.symm, howner, hu, ?_⟩
    rcases hcase with hclaims | ⟨himp, -, hown | ⟨hhost, -⟩⟩
    · exact hO.claims _ _ hclaims
    · rcases hG.owner_iff.1 (ownIp_eq_some.1 hown).2.2 with hclaims | ⟨-, hentry⟩
      · exact hO.claims _ _ hclaims
      · exact hO.entries _ _ himp hentry
    · exact hhost
  · -- An owner that is gone still has its entry, so nobody claims its address.
    have himp := isExplicit_eq_false_of_notMem hk
    have hnot : k ∉ implicitNames nodes := fun h => hk (mem_implicitNames.1 h).1
    have hfst : k ∉ cs.map Prod.fst := by
      intro hmem
      obtain ⟨c, hc, rfl⟩ := List.mem_map.1 hmem
      exact hk (hG.mem_iff.1 hc).mem_keys
    rw [hS.others k hnot, sticky_afterClaims_of_notMem hG.nodup hfst] at ht
    split at ht
    · cases ht
    · rename_i hkept
      obtain ⟨ip, rfl, howner⟩ := (linked_carried.get?_iff k t).1 ht
      have hentry : ValidEntry net reserved reservations k ip := get?_carried.1 howner
      have hnobody : ∀ m, ¬ClaimsIp nodes m ip := by
        intro m hm
        by_cases hname : k = ""
        · subst hname
          exact hO.unnamed hk m ip hm hentry
        · exact hkept ⟨hname, _, hG.mem_iff.2 hm, howner⟩
      exact ⟨ip, rfl, hS.extends_owner _ _ (hG.owner_iff.2 (.inr ⟨hnobody, hentry⟩)), hentry.1,
        hO.entries _ _ himp hentry⟩

omit hnet in
/-- What is reserved for an owner that is gone stays, unless its address is claimed. -/
theorem kept_of_settled : ∀ k ip, k ∉ nodes.keys → ValidEntry net reserved reservations k ip →
    (∀ m, ¬ClaimsIp nodes m ip) → L.sticky.get? k = some (Ip.text ip) := by
  intro k ip hk hentry hnobody
  have hnot : k ∉ implicitNames nodes := fun h => hk (mem_implicitNames.1 h).1
  rw [hS.others k hnot,
    hG.sticky_of_entry (isExplicit_eq_false_of_notMem hk) hentry hnobody]

end Afterwards

/-! ## A second run -/

/-- Entries that are usable and not duplicates are carried over as they are. -/
theorem items_foldl_carry {entries : List (String × String)}
    (hkeys : (entries.map Prod.fst).Nodup) (hvalues : (entries.map Prod.snd).Nodup)
    (husable : ∀ e ∈ entries, ∃ ip, e.2 = Ip.text ip ∧ Usable net reserved ip)
    (hnew : ∀ e ∈ entries, e.1 ∉ L.sticky.keys)
    (hfree : ∀ e ∈ entries, ∀ ip, e.2 = Ip.text ip → Usable net reserved ip →
      L.ipOwner.get? ip = none) :
    (entries.foldl (carry net reserved) L).sticky.items = L.sticky.items ++ entries := by
  induction entries generalizing L with
  | nil => simp
  | cons e entries ih =>
    obtain ⟨k, value⟩ := e
    rw [List.map_cons, List.nodup_cons] at hkeys hvalues
    obtain ⟨ip, rfl, hu⟩ := husable _ List.mem_cons_self
    have hcarry : carry net reserved L (k, Ip.text ip) = L.assign k ip :=
      carry_of_usable (Ip.parse_text hu.lt) hu (hfree _ List.mem_cons_self ip rfl hu)
    rw [List.foldl_cons, hcarry, ih hkeys.2 hvalues.2]
    · rw [Ledger.assign_sticky, Dict.items_set_of_notMem _ (hnew _ List.mem_cons_self),
        List.append_assoc, List.singleton_append]
    · exact fun e he => husable e (List.mem_cons_of_mem _ he)
    · intro e he hmem
      rw [Ledger.assign_sticky, Dict.mem_keys_set] at hmem
      rcases hmem with rfl | hmem
      · exact hkeys.1 (List.mem_map.2 ⟨e, he, rfl⟩)
      · exact hnew e (List.mem_cons_of_mem _ he) hmem
    · intro e he ip' htext hu'
      rw [Ledger.assign_ipOwner, Dict.get?_set_of_ne]
      · exact hfree e (List.mem_cons_of_mem _ he) ip' htext hu'
      · rintro rfl
        exact hvalues.1 (List.mem_map.2 ⟨e, he, htext⟩)

/-- Reservations that are usable and injective are carried over as they are. -/
theorem sticky_carried {sticky : Dict String String}
    (husable : ∀ k t, sticky.get? k = some t → ∃ ip, t = Ip.text ip ∧ Usable net reserved ip)
    (hinj : ∀ k k' t, sticky.get? k = some t → sticky.get? k' = some t → k = k') :
    (carried net reserved sticky).sticky = sticky := by
  ext1
  refine (items_foldl_carry sticky.nodup_keys ?_ ?_ ?_ ?_).trans (List.nil_append _)
  · refine List.Nodup.map_on ?_ (List.Nodup.of_map _ sticky.nodup_keys)
    intro e he e' he' heq
    have hget := Dict.get?_eq_some_iff.2 he
    have hget' := Dict.get?_eq_some_iff.2 he'
    rw [heq] at hget
    exact Prod.ext (hinj _ _ _ hget hget') heq
  · exact fun e he => husable e.1 e.2 (Dict.get?_eq_some_iff.2 he)
  · exact fun e _ => by simp [Ledger.empty]
  · exact fun e _ ip _ _ => rfl

/-- A device that claims its own address changes nothing. -/
theorem claim_of_own (hsticky : L.sticky.get? n = some (Ip.text ip))
    (howner : L.ipOwner.get? ip = some n) : claim L n ip = L := by
  have hassign : L.assign n ip = L := by
    rw [Ledger.assign, Dict.set_of_get? hsticky, Dict.set_of_get? howner]
  rw [claim, howner]
  dsimp only
  rw [if_neg fun h => h.2 rfl, hassign]

theorem afterClaims_of_own (h : ∀ c ∈ cs, L.sticky.get? c.1 = some (Ip.text c.2) ∧
    L.ipOwner.get? c.2 = some c.1) : afterClaims L cs = L := by
  induction cs with
  | nil => rfl
  | cons c cs ih =>
    obtain ⟨hsticky, howner⟩ := h c List.mem_cons_self
    show afterClaims (claim L c.1 c.2) cs = L
    rw [claim_of_own hsticky howner]
    exact ih fun d hd => h d (List.mem_cons_of_mem _ hd)

section SameClaims

variable (hsame : SameClaims nodes nodes')

include hsame

theorem SameClaims.keys : nodes'.keys = nodes.keys := by
  have := congrArg Dict.keys hsame
  rwa [Dict.keys_map, Dict.keys_map] at this

theorem SameClaims.get? (n : String) :
    (nodes'.get? n).map ownAddress = (nodes.get? n).map ownAddress := by
  have := congrArg (·.get? n) hsame
  simpa only [Dict.get?_map] using this

theorem SameClaims.isExplicit : isExplicit nodes' n = isExplicit nodes n := by
  have hown : ∀ node : VDNode, node.mgmtIpv4Explicit = (ownAddress node).isSome := by
    intro node
    rw [ownAddress]
    cases node.mgmtIpv4Explicit <;> rfl
  have hmap : ∀ node : Option VDNode, (node.map (·.mgmtIpv4Explicit)).getD false =
      ((node.map ownAddress).map Option.isSome).getD false := by
    rintro (_ | node)
    · rfl
    · exact hown node
  rw [Config.isExplicit, Config.isExplicit, hmap, hmap, hsame.get?]

theorem SameClaims.implicitNames : implicitNames nodes' = implicitNames nodes := by
  rw [Config.implicitNames, Config.implicitNames, hsame.keys]
  exact List.filter_congr fun name _ => by rw [hsame.isExplicit]

theorem SameClaims.claims (h : Claims nodes.items cs) : Claims nodes'.items cs := by
  have hmap : ∀ l : List (String × VDNode),
      (explicitNodes l).map (fun e => (e.1, e.2.mgmtIpv4)) =
        (l.map fun e => (e.1, ownAddress e.2)).filterMap fun p => p.2.map (p.1, ·) := by
    intro l
    induction l with
    | nil => rfl
    | cons e l ih =>
      rw [explicitNodes_cons, List.map_cons, List.filterMap_cons, ownAddress]
      cases e.2.mgmtIpv4Explicit
      · exact ih
      · exact congrArg _ ih
  have hiff : ∀ l : List (String × VDNode), Claims l cs ↔
      List.Forall₂ (fun (p : String × String) (c : String × ℕ) =>
        c.1 = p.1 ∧ Ip.parse p.2 = .ok c.2) ((explicitNodes l).map fun e => (e.1, e.2.mgmtIpv4)) cs :=
    fun l => by rw [List.forall₂_map_left_iff]; rfl
  have hitems := congrArg Dict.items hsame
  rw [hiff, hmap] at h ⊢
  have hitems' : (nodes'.items.map fun e => (e.1, ownAddress e.2)) =
      nodes.items.map fun e => (e.1, ownAddress e.2) := hitems
  rwa [hitems']

theorem SameClaims.claimsIp : ClaimsIp nodes' n ip ↔ ClaimsIp nodes n ip := by
  have hiff : ∀ d : Dict String VDNode, ClaimsIp d n ip ↔
      ∃ t, (d.get? n).map ownAddress = some (some t) ∧ Ip.parse t = .ok ip := by
    intro d
    rw [ClaimsIp]
    cases d.get? n with
    | none => simp
    | some node =>
      have hown : ∀ t, ownAddress node = some t ↔
          node.mgmtIpv4Explicit = true ∧ node.mgmtIpv4 = t := by
        intro t
        rw [ownAddress]
        cases node.mgmtIpv4Explicit <;> simp
      simp [hown, and_assoc]
  rw [hiff, hiff, hsame.get?]

theorem SameClaims.due :
    Due net reserved nodes' reservations n ip ↔ Due net reserved nodes reservations n ip := by
  have hclaims : ClaimsIp nodes' = ClaimsIp nodes :=
    funext fun m => funext fun ip => propext hsame.claimsIp
  rw [Due, Due, newcomers, newcomers, freeHosts, freeHosts, hclaims, hsame.isExplicit,
    hsame.implicitNames]

end SameClaims

/-- When the reservations have the devices at their addresses, a second run changes nothing. -/
theorem again_of_assigned {mgmt : MgmtConfig} {r : MgmtIps.MgmtIPv4Reservations}
    {addresses sticky : Dict String String} (hnet : Network.parse mgmt.ipv4Subnet = .ok net)
    (hr : MgmtIps.reservationsOf net = .ok r) (hG : Granted net r.toList nodes cs)
    (husable : ∀ k t, sticky.get? k = some t → ∃ ip, t = Ip.text ip ∧ Usable net r.toList ip)
    (hinj : ∀ k k' t, sticky.get? k = some t → sticky.get? k' = some t → k = k')
    (hkeys : addresses.keys = nodes.keys)
    (hassigned : ∀ m ∈ nodes.keys, sticky.get? m = addresses.get? m)
    (hclaims : ∀ m ip, ClaimsIp nodes m ip → addresses.get? m = some (Ip.text ip))
    (hsame : SameClaims nodes nodes') :
    assignStickyMgmtIpv4 nodes' mgmt sticky = .ok (addresses, sticky) := by
  have hcarried := sticky_carried husable hinj
  have hlinked : Linked net r.toList (carried net r.toList sticky) := linked_carried
  have howner : ∀ m ip, Usable net r.toList ip → sticky.get? m = some (Ip.text ip) →
      (carried net r.toList sticky).ipOwner.get? ip = some m := by
    intro m ip hu hget
    rw [← hcarried] at hget
    obtain ⟨ip', htext, hm⟩ := (hlinked.get?_iff m _).1 hget
    rwa [Ip.text_inj hu.lt (hlinked.usable _ _ hm).lt htext]
  -- Every claim finds its own address, ...
  have hG' : Granted net r.toList nodes' cs := ⟨hsame.claims hG.claims, hG.usable, hG.nodup⟩
  have hafter : afterClaims (carried net r.toList sticky) cs = carried net r.toList sticky := by
    refine afterClaims_of_own fun c hc => ?_
    have hm : ClaimsIp nodes c.1 c.2 := hG.mem_iff.1 hc
    have hget : sticky.get? c.1 = some (Ip.text c.2) := by
      rw [hassigned _ hm.mem_keys, hclaims _ _ hm]
    exact ⟨hcarried.symm ▸ hget, howner _ _ (hG.usable c hc) hget⟩
  -- ... and so does every device that claims nothing.
  have hmem : ∀ m ∈ nodes.keys, ∃ ip, Usable net r.toList ip ∧ sticky.get? m = some (Ip.text ip) := by
    intro m hm
    obtain ⟨t, ht⟩ := Dict.mem_keys_iff.1 (hkeys ▸ hm)
    have ht' : sticky.get? m = some t := (hassigned m hm).trans ht
    obtain ⟨ip, rfl, hu⟩ := husable m t ht'
    exact ⟨ip, hu, ht'⟩
  have hown : ∀ m ∈ implicitNames nodes, ∃ ip, ownIp (carried net r.toList sticky) m = some ip := by
    intro m hm
    obtain ⟨ip, hu, hget⟩ := hmem m (mem_implicitNames.1 hm).1
    exact ⟨ip, ownIp_eq_some.2 ⟨hu.lt, hcarried.symm ▸ hget, howner m ip hu hget⟩⟩
  obtain ⟨given, hsettle, hnames, hgiven⟩ : ∃ given, settleAll net r.toList
      (carried net r.toList sticky) (implicitNames nodes) =
        .ok (given, carried net r.toList sticky) ∧ given.map Prod.fst = implicitNames nodes ∧
      ∀ n s, (n, s) ∈ given → (carried net r.toList sticky).sticky.get? n = some s :=
    settleAll_of_own hown
  refine assign_eq_ok.2 ⟨net, r, cs, given, _, hnet, hr, hG', ?_, ?_, hcarried.symm⟩
  · rw [hafter, hsame.implicitNames, hsettle]
  · refine Dict.ext_get? ?_ fun m => ?_
    · rw [addressesOf, Dict.keys_map, hkeys, hsame.keys]
    · by_cases hm : m ∈ nodes.keys
      swap
      · have hm' : m ∉ addresses.keys := hkeys ▸ hm
        refine (Dict.get?_eq_none_iff.2 hm').trans (Eq.symm ?_)
        rw [Dict.get?_eq_none_iff, addressesOf, Dict.keys_map, hsame.keys]
        exact hm
      cases hx : isExplicit nodes m with
      | true =>
        obtain ⟨ip, hclaim⟩ := hG.exists_claim hx
        have hclaim' : ClaimsIp nodes' m ip := hG'.mem_iff.1 (hG.mem_iff.2 hclaim)
        rw [hclaims m ip hclaim,
          hclaim'.get?_addressesOf (hnames.trans hsame.implicitNames.symm)]
      | false =>
        have himp : m ∈ given.map Prod.fst := by
          rw [hnames]
          exact mem_implicitNames.2 ⟨hm, hx⟩
        obtain ⟨⟨m', s⟩, hs, rfl⟩ := List.mem_map.1 himp
        have hget : (Dict.ofList given).get? m' = some s :=
          (Dict.get?_ofList_of_nodup (hnames ▸ nodup_implicitNames)).2 hs
        obtain ⟨node, hnode⟩ := Dict.mem_keys_iff.1 (hsame.keys ▸ hm)
        rw [get?_addressesOf, hnode, Option.map_some, hget, Option.getD_some, ← hassigned m' hm,
          ← hcarried, hgiven m' s hs]

end Sticky

/-! ## Completeness -/

section Complete

variable {net : Network} {r : MgmtIps.MgmtIPv4Reservations} {nodes : Dict String VDNode}
  {mgmt : MgmtConfig} {reservations addresses sticky : Dict String String}

/-- In orderly conditions, the reservations are complete. -/
theorem complete_of_orderly (hnet : Network.parse mgmt.ipv4Subnet = .ok net)
    (hr : MgmtIps.reservationsOf net = .ok r)
    (h : assignStickyMgmtIpv4 nodes mgmt reservations = .ok (addresses, sticky))
    (hO : Orderly net r.toList nodes reservations) :
    Complete net r.toList nodes mgmt reservations addresses sticky := by
  obtain ⟨net', r', cs, given, L, hnet', hr', hG, hsettle, rfl, rfl⟩ := assign_eq_ok.1 h
  obtain rfl := Except.ok.inj (hnet.symm.trans hnet')
  obtain rfl := Except.ok.inj (hr.symm.trans hr')
  have hlen := MgmtIps.prefixlen_le_of_reservationsOf hr
  have hS := settled_of_settleAll nodup_implicitNames hsettle
  have hassigned := assigned_of_orderly hlen hG hS hO
  have hinj : ∀ k k' t, L.sticky.get? k = some t → L.sticky.get? k' = some t → k = k' := by
    intro k k' t hk hk'
    obtain ⟨ip, rfl, howner, hu, -⟩ := owner_of_sticky hlen hG hS hO hk
    obtain ⟨ip', htext, howner', hu', -⟩ := owner_of_sticky hlen hG hS hO hk'
    obtain rfl := Ip.text_inj hu.lt hu'.lt htext
    exact Option.some.inj (howner.symm.trans howner')
  refine ⟨hassigned, kept_of_settled hG hS, hinj, fun k t ht => ?_, fun nodes' hsame => ?_⟩
  · obtain ⟨ip, htext, -, hu, hhost⟩ := owner_of_sticky hlen hG hS hO ht
    exact ⟨ip, hhost, htext, hu.2⟩
  · refine again_of_assigned hnet hr hG (fun k t ht => ?_) hinj (Dict.keys_map _ _) hassigned
      (fun m ip hm => hm.get?_addressesOf hS.fst_given) hsame
    obtain ⟨ip, htext, -, hu, -⟩ := owner_of_sticky hlen hG hS hO ht
    exact ⟨ip, htext, hu⟩

/-- Complete reservations tell that the conditions were orderly. -/
theorem orderly_of_complete (hnet : Network.parse mgmt.ipv4Subnet = .ok net)
    (hr : MgmtIps.reservationsOf net = .ok r)
    (h : assignStickyMgmtIpv4 nodes mgmt reservations = .ok (addresses, sticky))
    (hC : Complete net r.toList nodes mgmt reservations addresses sticky) :
    Orderly net r.toList nodes reservations := by
  obtain ⟨net', r', cs, given, L, hnet', hr', hG, hsettle, rfl, rfl⟩ := assign_eq_ok.1 h
  obtain rfl := Except.ok.inj (hnet.symm.trans hnet')
  obtain rfl := Except.ok.inj (hr.symm.trans hr')
  have hlen := MgmtIps.prefixlen_le_of_reservationsOf hr
  have hS := settled_of_settleAll nodup_implicitNames hsettle
  -- What is assigned is what is claimed.
  have hclaimed : ∀ m ip, ClaimsIp nodes m ip → L.sticky.get? m = some (Ip.text ip) := by
    intro m ip hm
    rw [hC.assigned m hm.mem_keys, hm.get?_addressesOf hS.fst_given]
  -- An address that is kept lies in the network.
  have hhost : ∀ k ip, Usable net r.toList ip → L.sticky.get? k = some (Ip.text ip) →
      ip ∈ net.hosts := by
    intro k ip hu hk
    obtain ⟨ip', hmem, htext, -⟩ := hC.hosts k _ hk
    have hlt : ip' < 2 ^ 32 :=
      Network.lt_of_contains (Network.contains_of_mem_hosts (by omega) hmem)
    obtain rfl := Ip.text_inj hu.lt hlt htext
    exact hmem
  have hclaims : ∀ m ip, ClaimsIp nodes m ip → ip ∈ net.hosts := fun m ip hm =>
    hhost m ip (hG.usable _ (hG.mem_iff.2 hm)) (hclaimed m ip hm)
  refine ⟨?_, fun hunnamed m ip hm hentry => ?_, hclaims, fun k ip hx hentry => ?_⟩
  · rw [hG.pairwise_iff, ← hG.sticky_claims_iff]
    intro c hc
    have hm : ClaimsIp nodes c.1 c.2 := hG.mem_iff.1 hc
    -- A device that claims an address is not given one.
    have himp : c.1 ∉ implicitNames nodes := by
      rw [mem_implicitNames, hm.isExplicit]
      exact fun h => absurd h.2 (by decide)
    rw [← hS.others c.1 himp]
    exact hclaimed _ _ hm
  · -- An owner without a name is not evicted, so its address is there twice.
    have hnot : "" ∉ implicitNames nodes := fun h => hunnamed (mem_implicitNames.1 h).1
    have hfst : "" ∉ cs.map Prod.fst := by
      intro hmem
      obtain ⟨c, hc, heq⟩ := List.mem_map.1 hmem
      exact hunnamed (heq ▸ (hG.mem_iff.1 hc).mem_keys)
    have hstay : L.sticky.get? "" = some (Ip.text ip) := by
      rw [hS.others "" hnot, sticky_afterClaims_of_notMem hG.nodup hfst, if_neg fun h => h.1 rfl]
      exact (linked_carried.get?_iff _ _).2 ⟨ip, rfl, get?_carried.2 hentry⟩
    exact hunnamed (hC.injective _ _ _ (hclaimed m ip hm) hstay ▸ hm.mem_keys)
  · by_cases hclaimedIp : ∃ m, ClaimsIp nodes m ip
    · obtain ⟨m, hm⟩ := hclaimedIp
      exact hclaims m ip hm
    have hnobody : ∀ m, ¬ClaimsIp nodes m ip := fun m hm => hclaimedIp ⟨m, hm⟩
    by_cases hk : k ∈ nodes.keys
    · -- A device that claims nothing keeps its address.
      have hown : ownIp (afterClaims (carried net r.toList reservations) cs) k = some ip :=
        ownIp_eq_some.2 ⟨hentry.1.lt, hG.sticky_of_entry hx hentry hnobody,
          hG.owner_iff.2 (.inr ⟨hnobody, hentry⟩)⟩
      obtain ⟨ip', -, -, -, hcase⟩ := owner_address hlen hG hS hk
      rcases hcase with hm | ⟨-, hsticky, hown' | ⟨-, -, -, hnone⟩⟩
      · rw [hm.isExplicit] at hx
        cases hx
      · obtain rfl := Option.some.inj (hown.symm.trans hown')
        exact hhost k ip hentry.1 hsticky
      · rw [hown] at hnone
        cases hnone
    · exact hhost k ip hentry.1 (hC.kept k ip hk hentry hnobody)

/-- The reservations that an assignment returns are complete just in orderly conditions. -/
theorem complete_iff (hnet : Network.parse mgmt.ipv4Subnet = .ok net)
    (hr : MgmtIps.reservationsOf net = .ok r)
    (h : assignStickyMgmtIpv4 nodes mgmt reservations = .ok (addresses, sticky)) :
    Complete net r.toList nodes mgmt reservations addresses sticky ↔
      Orderly net r.toList nodes reservations :=
  ⟨orderly_of_complete hnet hr h, complete_of_orderly hnet hr h⟩

end Complete

/-- The network of the office. -/
def officeNet : Network := ⟨0x0A000000, 28, by decide, by decide, by decide⟩

/-- What the infrastructure of the office takes. -/
def officeReserved : MgmtIps.MgmtIPv4Reservations :=
  ⟨0x0A000001, 0x0A00000C, 0x0A00000D, 0x0A00000E⟩

theorem parse_officeNet : Network.parse officeMgmt.ipv4Subnet = .ok officeNet := by decide

theorem reservationsOf_officeNet : MgmtIps.reservationsOf officeNet = .ok officeReserved :=
  MgmtIps.reservationsOf_eq_ok.2 ⟨by decide, by decide⟩

/-- Nothing is in the way in the office: the router that claims an address is the only one, and no
    entry is at the edge of the network. -/
theorem orderly_office : Orderly officeNet officeReserved.toList officeNodes officeLedger := by
  have hitems : officeLedger.items = [("r0", "10.0.0.2"), ("r2", "10.0.0.5")] := by decide
  have hentry : ∀ k ip, ValidEntry officeNet officeReserved.toList officeLedger k ip →
      k ≠ "" ∧ ip ∈ officeNet.hosts := by
    rintro k ip ⟨-, hholder⟩
    obtain ⟨value, hmem, hp⟩ := mem_of_holder hholder
    rw [hitems, List.mem_pair] at hmem
    rcases hmem with heq | heq <;> obtain ⟨rfl, rfl⟩ := Prod.mk.inj heq
    · obtain rfl : 0x0A000002 = ip := Except.ok.inj (by rw [← hp]; decide)
      decide
    · obtain rfl : 0x0A000005 = ip := Except.ok.inj (by rw [← hp]; decide)
      decide
  refine ⟨List.pairwise_singleton _ _, fun _ _ ip _ h => (hentry "" ip h).1 rfl, ?_,
    fun k ip _ h => (hentry k ip h).2⟩
  rintro m ip ⟨node, hget, hx, hp⟩
  have hmem : (m, node) ∈ explicitNodes officeNodes.items := mem_explicitNodes.2 ⟨hget, hx⟩
  obtain ⟨rfl, rfl⟩ := Prod.mk.inj (List.mem_singleton.1 hmem)
  obtain rfl : 0x0A000009 = ip := Except.ok.inj (by rw [← hp]; decide)
  decide

theorem complete_iff_office : ∃ addresses sticky,
    assignStickyMgmtIpv4 officeNodes officeMgmt officeLedger = .ok (addresses, sticky) ∧
      (Complete officeNet officeReserved.toList officeNodes officeMgmt officeLedger addresses sticky ↔
        Orderly officeNet officeReserved.toList officeNodes officeLedger) ∧
      Complete officeNet officeReserved.toList officeNodes officeMgmt officeLedger addresses
        sticky := by
  have hsome : (assignStickyMgmtIpv4 officeNodes officeMgmt officeLedger).toOption.isSome := by
    decide +kernel
  cases h : assignStickyMgmtIpv4 officeNodes officeMgmt officeLedger with
  | error e =>
    rw [h] at hsome
    cases hsome
  | ok result =>
    have hiff := complete_iff parse_officeNet reservationsOf_officeNet h
    exact ⟨result.1, result.2, rfl, hiff, hiff.2 orderly_office⟩

/-- Two routers that claim each other's addresses. -/
def swapNodes : Dict String VDNode := Dict.ofList
  [("r1", { name := "r1", kind := "linux", image := "", mgmtIpv4 := "10.0.0.9",
            mgmtIpv4Explicit := true }),
   ("r2", { name := "r2", kind := "linux", image := "", mgmtIpv4 := "10.0.0.5",
            mgmtIpv4Explicit := true })]

/-- The addresses that they had before. -/
def swapLedger : Dict String String := Dict.ofList [("r1", "10.0.0.5"), ("r2", "10.0.0.9")]

/-- When two routers swap their addresses, the claim of the second takes the first off the
    reservations, where its new address is written down already. -/
theorem not_complete_swap : ∃ addresses sticky,
    assignStickyMgmtIpv4 swapNodes officeMgmt swapLedger = .ok (addresses, sticky) ∧
      addresses.get? "r1" = some "10.0.0.9" ∧ sticky.get? "r1" = none ∧
      ¬Complete officeNet officeReserved.toList swapNodes officeMgmt swapLedger addresses sticky := by
  have hvalue : ((assignStickyMgmtIpv4 swapNodes officeMgmt swapLedger).toOption.map fun p =>
      (p.1.get? "r1", p.2.get? "r1")) = some (some "10.0.0.9", none) := by
    decide +kernel
  cases h : assignStickyMgmtIpv4 swapNodes officeMgmt swapLedger with
  | error e =>
    rw [h] at hvalue
    cases hvalue
  | ok result =>
    rw [h] at hvalue
    obtain ⟨haddress, hsticky⟩ := Prod.mk.inj (Option.some.inj hvalue)
    refine ⟨result.1, result.2, rfl, haddress, hsticky, fun hC => ?_⟩
    have hsame := hC.assigned "r1" (by decide)
    rw [haddress, hsticky] at hsame
    cases hsame

end Dnlab.Config
