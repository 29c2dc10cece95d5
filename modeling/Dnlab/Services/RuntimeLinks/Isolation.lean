import Dnlab.Services.RuntimeLinks.Build
import Dnlab.Services.RuntimeLinks.Commands
import Dnlab.Services.Scheduler.Links
import Dnlab.Utils.Naming.Parts
import Mathlib.Data.Set.Lattice
import Mathlib.Order.CompletePartialOrder

/-!
# Two labs on one host

The bridges, the names of ends that are not warm, and the VXLAN ids that the
links of a lab use on a host (`names`, `vnis`), and when those of two labs are
disjoint (`isolated_iff`). A name tells what it is of (`OfLab`), so that only two
names of the same kind can clash; which parts of the two labs must differ for
them not to is `Clash`. Nothing of the lab enters the bridge of a link within a
host: the first links within a host of two labs have one bridge.
-/

namespace Dnlab.RuntimeLinks

open Scheduler (barePlan beforeSource beforeTarget crossLink splitAll)

/-! ## What a link uses on a host -/

/-- Whether a side of a link is the port of a device on a host that is not warm. -/
def isColdOn (w : String) (s : Side) : Bool := s.host = w && s.endpoint.node.isSome && !s.warm

/-- The host-side names of a link on a host that are not those of warm ports. -/
def coldIfacesOn (w : String) (l : RuntimeLinkState) : List String :=
  ([sideA l, sideB l].filter (isColdOn w)).map (·.hostEndpoint)

/-- The VXLAN ids of a link on a host. -/
def vnisOn (w : String) (l : RuntimeLinkState) : List ℕ :=
  if l.linkType = .crossHost ∧ (l.hostA = w ∨ l.hostB = w) then [l.vxlanId] else []

/-- The bridges and interfaces of links on a host. -/
def names (w : String) (links : List RuntimeLinkState) : Set String :=
  {n | ∃ l ∈ links, n ∈ bridgesOn w l ∨ n ∈ coldIfacesOn w l}

/-- The VXLAN ids of links on a host. -/
def vnis (w : String) (links : List RuntimeLinkState) : Set ℕ :=
  {v | ∃ l ∈ links, v ∈ vnisOn w l}

/-- The links of two labs use nothing in common on a host. -/
def Isolated (w : String) (links links' : List RuntimeLinkState) : Prop :=
  Disjoint (names w links) (names w links') ∧ Disjoint (vnis w links) (vnis w links')

/-! ## A deployed lab -/

/-- A lab with the plan and the runtime links of its deployment. -/
structure Deployment where
  desired : DistributedTopology
  vds : Dict String VDResources
  hosts : Dict String HostResources
  preferences : Dict String String
  topo : DistributedTopology
  plan : SchedulePlan
  links : List RuntimeLinkState
  scheduled : Scheduler.computeSchedule desired vds hosts preferences = .ok (topo, plan)
  built : buildRuntimeLinks topo plan = .ok links

namespace Deployment

variable (D : Deployment)

/-- The name of the lab. -/
def lab : String := D.desired.name

/-- The host of a device. -/
def hostOf (node : String) : String := (D.plan.hostForVd node).getD ""

/-- A device cannot take links while it runs. -/
def Cold (node : String) : Prop := (D.topo.nodes.get? node).any WarmLinks.isEnabled = false

/-- The links between hosts before their names are made unique. -/
def across : List CrossHostLink :=
  (splitAll D.desired (barePlan D.desired D.plan.assignments) 0 D.desired.links).2

/-- The `i`-th link within a host is on the host `w`. -/
def LinkOn (w : String) (i : ℕ) : Prop :=
  ∃ l, D.plan.localLinks[i]? = some l ∧ D.hostOf l.source = w

/-- The `i`-th link within a host ends, on the host `w`, at a port that is not warm. -/
def LinkEndOn (w : String) (i : ℕ) (node iface : String) : Prop :=
  ∃ l, D.plan.localLinks[i]? = some l ∧ D.hostOf l.source = w ∧ D.Cold node ∧
    ((node = l.source ∧ iface = l.sourceIface) ∨ (node = l.target ∧ iface = l.targetIface))

/-- The `i`-th link between hosts has an end on the host `w`. -/
def TunnelOn (w : String) (i : ℕ) : Prop :=
  ∃ c, D.across[i]? = some c ∧ (c.sourceHost = w ∨ c.targetHost = w)

/-- A link between hosts ends, on the host `w`, at a port that is not warm, whose name comes there
    for the time `count`. -/
def TunnelEndOn (w : String) (node iface : String) (count : ℕ) : Prop :=
  ∃ i c, D.across[i]? = some c ∧ D.Cold node ∧
    ((c.sourceHost = w ∧ node = c.sourceNode ∧ iface = c.sourceIface ∧
        count = (beforeSource D.across i c).count c.sourceHostIface) ∨
      (c.targetHost = w ∧ node = c.targetNode ∧ iface = c.targetIface ∧
        count = (beforeTarget D.across i c).count c.targetHostIface))

/-- A device on the host `w` is attached to a real network. -/
def NetOn (w net : String) : Prop :=
  ∃ l ∈ D.desired.realNetLinks, D.hostOf l.node = w ∧ l.realNet = net

/-- A port on the host `w` that is not warm is attached to a real network. -/
def NetEndOn (w node iface : String) : Prop :=
  ∃ l ∈ D.desired.realNetLinks, D.hostOf l.node = w ∧ D.Cold node ∧ node = l.node ∧
    iface = l.iface

end Deployment

namespace Deployment

variable (D : Deployment)

theorem topo_name : D.topo.name = D.lab := by
  obtain ⟨placement, nets, -, -, h, -⟩ := Scheduler.computeSchedule_eq_ok D.scheduled
  rw [h]
  rfl

/-- The links between hosts with their names made unique. -/
theorem crossHostLinks_eq : ∃ hosts, (∀ c ∈ D.across, c.sourceHost ∈ hosts ∧ c.targetHost ∈ hosts) ∧
    D.plan.crossHostLinks = Scheduler.uniqueOnHosts hosts D.across := by
  obtain ⟨placement, nets, -, -, -, h⟩ := Scheduler.computeSchedule_eq_ok D.scheduled
  have hacross : D.across =
      (splitAll D.desired (barePlan D.desired placement.assignments) 0 D.desired.links).2 := by
    rw [across, h]
    rfl
  refine ⟨Scheduler.hostsOf (barePlan D.desired placement.assignments) D.across, fun c hc => ?_, ?_⟩
  · have hmem : ∀ h ∈ [c.sourceHost, c.targetHost],
        h ∈ Scheduler.hostsOf (barePlan D.desired placement.assignments) D.across := by
      intro host hh
      rw [Scheduler.hostsOf, List.mem_append, List.mem_filter, List.mem_dedup]
      by_cases hp : host ∈ (barePlan D.desired placement.assignments).assignments.keys
      · exact .inl hp
      · exact .inr ⟨List.mem_flatMap.2 ⟨c, hc, hh⟩, by simpa using hp⟩
    exact ⟨hmem _ (by simp), hmem _ (by simp)⟩
  · rw [hacross, h]

/-- The `i`-th link between hosts. -/
theorem crossHostLink_iff {i : ℕ} {c' : CrossHostLink} :
    D.plan.crossHostLinks[i]? = some c' ↔ ∃ c, D.across[i]? = some c ∧
      c' = Scheduler.withIfaces c
        (Naming.nthName c.sourceHostIface ((beforeSource D.across i c).count c.sourceHostIface))
        (Naming.nthName c.targetHostIface ((beforeTarget D.across i c).count c.targetHostIface)) := by
  obtain ⟨hosts, hmem, h⟩ := D.crossHostLinks_eq
  rw [h, Scheduler.getElem?_uniqueOnHosts, Option.map_eq_some_iff]
  refine exists_congr fun c => and_congr_right fun hc => ?_
  obtain ⟨hs, ht⟩ := hmem c (List.mem_of_getElem? hc)
  rw [Scheduler.renamed, if_pos hs, if_pos ht]
  exact eq_comm

/-- A link between hosts before its names are made unique. -/
theorem across_at {i : ℕ} {c : CrossHostLink} (hc : D.across[i]? = some c) :
    c.vxlanId = Ids.dataplaneVxlanBase D.lab + i ∧
      c.sourceHostIface = Naming.vxlanHostIface D.lab c.sourceNode c.sourceIface ∧
      c.targetHostIface = Naming.vxlanHostIface D.lab c.targetNode c.targetIface := by
  obtain ⟨l, -, -, rfl⟩ := (Scheduler.sorted_splitAll 0 D.desired.links).across_at i c hc
  rw [Nat.zero_add]
  exact ⟨rfl, rfl, rfl⟩

/-- The attachments to real networks are those of the topology, placed. -/
theorem realNetLinks_iff {l' : RealNetLink} :
    l' ∈ D.topo.realNetLinks ↔ ∃ l ∈ D.desired.realNetLinks,
      l' = { l with
        host := D.hostOf l.node
        bridgeIface := Naming.realnetBridgeIface l.node l.iface } := by
  obtain ⟨placement, nets, -, hnets, htopo, hplan⟩ := Scheduler.computeSchedule_eq_ok D.scheduled
  have hhost : ∀ node, D.hostOf node =
      ((barePlan D.desired placement.assignments).hostForVd node).getD "" := by
    intro node
    rw [hostOf, hplan]
    rfl
  have hall := Scheduler.placeRealNets_eq_ok hnets
  rw [htopo]
  simp only [hhost]
  constructor
  · intro hl'
    obtain ⟨l, hl, ⟨-, rfl⟩ | ⟨-, h, -⟩⟩ := ExceptRules.forall₂_exists hall hl'
    · exact ⟨l, hl, rfl⟩
    · exact absurd h (by decide)
  · rintro ⟨l, hl, rfl⟩
    obtain ⟨l', hl', ⟨-, rfl⟩ | ⟨-, h, -⟩⟩ := ExceptRules.forall₂_exists' hall hl
    · exact hl'
    · exact absurd h (by decide)

theorem cold_iff {node : String} {warm : Bool} (h : warmOf D.topo node = .ok warm) :
    D.Cold node ↔ warm = false := by
  obtain ⟨vd, hvd, rfl⟩ := warmOf_eq_ok.1 h
  rw [Cold, WarmLinks.nodeOf_eq_ok.1 hvd, Option.any_some]

end Deployment

/-- What a name of a lab on a host is of. -/
inductive OfLab (D : Deployment) (w : String) : String → Prop
  | bridge {i : ℕ} : D.LinkOn w i →
      OfLab D w (Text.first 15 ("br-rt-" ++ Naming.shortHash (linkIdAt .sameHost i) 8))
  | netBridge {net : String} : D.NetOn w net → OfLab D w (Naming.realnetBridgeName D.lab net)
  | linkEnd {i : ℕ} {node iface : String} : D.LinkEndOn w i node iface →
      OfLab D w (Naming.runtimeHostEndpoint D.lab node iface (linkIdAt .sameHost i))
  | tunnelEnd {node iface : String} {count : ℕ} : D.TunnelEndOn w node iface count →
      OfLab D w (Naming.nthName (Naming.vxlanHostIface D.lab node iface) count)
  | netEnd {node iface : String} : D.NetEndOn w node iface →
      OfLab D w (Naming.realnetBridgeIface node iface)

section Names

variable {D : Deployment} {w : String}

theorem vnisOn_eq (l : RuntimeLinkState) {v : ℕ} :
    v ∈ vnisOn w l ↔ l.linkType = .crossHost ∧ (l.hostA = w ∨ l.hostB = w) ∧ v = l.vxlanId := by
  unfold vnisOn
  split <;> simp_all

theorem mem_coldIfacesOn {l : RuntimeLinkState} {n : String} :
    n ∈ coldIfacesOn w l ↔ ∃ s, (s = sideA l ∨ s = sideB l) ∧ s.host = w ∧
      s.endpoint.node.isSome ∧ s.warm = false ∧ n = s.hostEndpoint := by
  simp only [coldIfacesOn, isColdOn, List.mem_map, List.mem_filter, List.mem_cons,
    List.not_mem_nil, or_false, Bool.and_eq_true, decide_eq_true_eq, Bool.not_eq_true']
  constructor
  · rintro ⟨s, ⟨hs, ⟨hh, hn⟩, hw⟩, rfl⟩
    exact ⟨s, hs, hh, hn, hw, rfl⟩
  · rintro ⟨s, hs, hh, hn, hw, rfl⟩
    exact ⟨s, ⟨hs, ⟨hh, hn⟩, hw⟩, rfl⟩

theorem mem_bridgesOn_within {topo : DistributedTopology} {plan : SchedulePlan} {i : ℕ} {l : Link}
    {nameA nameB : String} {warmA warmB : Bool} (hw : (plan.hostForVd l.source).getD "" = w) :
    Text.first 15 ("br-rt-" ++ Naming.shortHash (linkIdAt .sameHost i) 8) ∈
      bridgesOn w (localLinkOf topo plan i l nameA nameB warmA warmB) := by
  subst hw
  unfold bridgesOn localLinkOf
  dsimp only
  rw [if_pos rfl]
  exact List.mem_singleton_self _

theorem mem_bridgesOn_net {topo : DistributedTopology} {i : ℕ} {l : RealNetLink} {name : String}
    {warm : Bool} (hw : l.host = w) :
    Naming.realnetBridgeName topo.name l.realNet ∈ bridgesOn w (realNetLinkOf topo i l name warm) := by
  subst hw
  unfold bridgesOn realNetLinkOf
  dsimp only
  rw [if_pos rfl]
  exact List.mem_singleton_self _

/-- The names of a link within a host. -/
theorem ofLab_of_within {i : ℕ} {l : Link} {L : RuntimeLinkState}
    (hl : D.plan.localLinks[i]? = some l) (hL : localRuntimeLink D.topo D.plan i l = .ok L)
    {n : String} (hn : n ∈ bridgesOn w L ∨ n ∈ coldIfacesOn w L) : OfLab D w n := by
  obtain ⟨nameA, nameB, warmA, warmB, hA, hB, hwA, hwB, rfl⟩ := localRuntimeLink_eq_ok.1 hL
  rcases hn with hn | hn
  · unfold bridgesOn at hn
    split at hn
    · rename_i hhost
      obtain rfl := List.mem_singleton.1 hn
      exact .bridge ⟨l, hl, hhost⟩
    · exact absurd hn List.not_mem_nil
  · obtain ⟨s, rfl | rfl, hhost, -, hcold, rfl⟩ := mem_coldIfacesOn.1 hn
    · obtain rfl : warmA = false := hcold
      have hname := endpointName_of_not_warm hA hwA
      rw [Text.orElse, if_pos rfl, D.topo_name] at hname
      exact hname ▸ .linkEnd ⟨l, hl, hhost, (D.cold_iff hwA).2 rfl, .inl ⟨rfl, rfl⟩⟩
    · obtain rfl : warmB = false := hcold
      have hname := endpointName_of_not_warm hB hwB
      rw [Text.orElse, if_pos rfl, D.topo_name] at hname
      exact hname ▸ .linkEnd ⟨l, hl, hhost, (D.cold_iff hwB).2 rfl, .inr ⟨rfl, rfl⟩⟩

theorem nthName_ne_empty (lab node iface : String) (count : ℕ) :
    Naming.nthName (Naming.vxlanHostIface lab node iface) count ≠ "" := by
  intro h
  have hk := Naming.kind_nthName_vxlanHostIface lab node iface count
  rw [h] at hk
  exact absurd hk (by decide)

/-- The names of a link between hosts. -/
theorem ofLab_of_across {i : ℕ} {c : CrossHostLink} {L : RuntimeLinkState}
    (hc : D.plan.crossHostLinks[i]? = some c) (hL : crossRuntimeLink D.topo i c = .ok L)
    {n : String} (hn : n ∈ bridgesOn w L ∨ n ∈ coldIfacesOn w L) : OfLab D w n := by
  obtain ⟨nameA, nameB, warmA, warmB, hA, hB, hwA, hwB, rfl⟩ := crossRuntimeLink_eq_ok.1 hL
  obtain ⟨c, hac, rfl⟩ := D.crossHostLink_iff.1 hc
  obtain ⟨-, hsrc, htgt⟩ := D.across_at hac
  rcases hn with hn | hn
  · unfold bridgesOn at hn
    split at hn <;> exact absurd hn List.not_mem_nil
  · obtain ⟨s, rfl | rfl, hhost, -, hcold, rfl⟩ := mem_coldIfacesOn.1 hn
    · obtain rfl : warmA = false := hcold
      have hname := endpointName_of_not_warm hA hwA
      rw [Scheduler.withIfaces, hsrc, Text.orElse, if_neg (nthName_ne_empty _ _ _ _),
        ← hsrc] at hname
      have hof : OfLab D w (Naming.nthName (Naming.vxlanHostIface D.lab c.sourceNode c.sourceIface)
          ((beforeSource D.across i c).count c.sourceHostIface)) :=
        .tunnelEnd ⟨i, c, hac, (D.cold_iff hwA).2 rfl, .inl ⟨hhost, rfl, rfl, rfl⟩⟩
      rw [← hsrc] at hof
      exact hname ▸ hof
    · obtain rfl : warmB = false := hcold
      have hname := endpointName_of_not_warm hB hwB
      rw [Scheduler.withIfaces, htgt, Text.orElse, if_neg (nthName_ne_empty _ _ _ _),
        ← htgt] at hname
      have hof : OfLab D w (Naming.nthName (Naming.vxlanHostIface D.lab c.targetNode c.targetIface)
          ((beforeTarget D.across i c).count c.targetHostIface)) :=
        .tunnelEnd ⟨i, c, hac, (D.cold_iff hwB).2 rfl, .inr ⟨hhost, rfl, rfl, rfl⟩⟩
      rw [← htgt] at hof
      exact hname ▸ hof

theorem realnetBridgeIface_ne_empty (node iface : String) :
    Naming.realnetBridgeIface node iface ≠ "" := by
  intro h
  have hk := Naming.kind_realnetBridgeIface node iface
  rw [h] at hk
  exact absurd hk (by decide)

/-- The names of an attachment to a real network. -/
theorem ofLab_of_net {i : ℕ} {l : RealNetLink} {L : RuntimeLinkState}
    (hl : D.topo.realNetLinks[i]? = some l) (hL : realNetRuntimeLink D.topo i l = .ok L)
    {n : String} (hn : n ∈ bridgesOn w L ∨ n ∈ coldIfacesOn w L) : OfLab D w n := by
  obtain ⟨name, warm, hname, hw, rfl⟩ := realNetRuntimeLink_eq_ok.1 hL
  obtain ⟨l, hdes, rfl⟩ := D.realNetLinks_iff.1 (List.mem_of_getElem? hl)
  rcases hn with hn | hn
  · unfold bridgesOn at hn
    split at hn
    · rename_i hhost
      obtain rfl := List.mem_singleton.1 hn
      rw [realNetLinkOf, D.topo_name]
      exact .netBridge ⟨l, hdes, hhost, rfl⟩
    · exact absurd hn List.not_mem_nil
  · obtain ⟨s, rfl | rfl, hhost, hnode, hcold, rfl⟩ := mem_coldIfacesOn.1 hn
    · obtain rfl : warm = false := hcold
      have h := endpointName_of_not_warm hname hw
      rw [realNetFallback, Text.orElse, Text.orElse, if_neg (realnetBridgeIface_ne_empty _ _),
        if_neg (realnetBridgeIface_ne_empty _ _)] at h
      exact h ▸ .netEnd ⟨l, hdes, hhost, (D.cold_iff hw).2 rfl, rfl, rfl⟩
    · exact absurd hnode (by simp [sideB, realNetLinkOf, Endpoint.net])

/-- The names of the links of a lab on a host, by what they are of. -/
theorem mem_names_iff {n : String} : n ∈ names w D.links ↔ OfLab D w n := by
  constructor
  · rintro ⟨L, hL, hn⟩
    -- One case for each kind of link.
    rcases planned_of_mem D.built hL with ⟨hl, hL⟩ | ⟨hl, hL⟩ | ⟨hl, hL⟩
    · exact ofLab_of_within hl hL hn
    · exact ofLab_of_across hl hL hn
    · exact ofLab_of_net hl hL hn
  · intro h
    cases h with
    | bridge h =>
      obtain ⟨l, hl, hhost⟩ := h
      obtain ⟨L, hL, hok⟩ := exists_within D.built hl
      obtain ⟨nameA, nameB, warmA, warmB, -, -, -, -, rfl⟩ := localRuntimeLink_eq_ok.1 hok
      exact ⟨_, hL, .inl (mem_bridgesOn_within hhost)⟩
    | netBridge h =>
      obtain ⟨l, hl, hhost, rfl⟩ := h
      obtain ⟨i, hi⟩ := List.getElem?_of_mem (D.realNetLinks_iff.2 ⟨l, hl, rfl⟩)
      obtain ⟨L, hL, hok⟩ := exists_net D.built hi
      obtain ⟨name, warm, -, -, rfl⟩ := realNetRuntimeLink_eq_ok.1 hok
      exact ⟨_, hL, .inl (D.topo_name ▸ mem_bridgesOn_net hhost)⟩
    | linkEnd h =>
      obtain ⟨l, hl, hhost, hcold, hend⟩ := h
      obtain ⟨L, hL, hok⟩ := exists_within D.built hl
      obtain ⟨nameA, nameB, warmA, warmB, hA, hB, hwA, hwB, rfl⟩ := localRuntimeLink_eq_ok.1 hok
      refine ⟨_, hL, .inr (mem_coldIfacesOn.2 ?_)⟩
      -- A name is only given to an end without a warm port.
      rcases hend with ⟨rfl, rfl⟩ | ⟨rfl, rfl⟩
      · obtain rfl := (D.cold_iff hwA).1 hcold
        have hname := endpointName_of_not_warm hA hwA
        rw [Text.orElse, if_pos rfl, D.topo_name] at hname
        exact ⟨_, .inl rfl, hhost, rfl, rfl, hname.symm⟩
      · obtain rfl := (D.cold_iff hwB).1 hcold
        have hname := endpointName_of_not_warm hB hwB
        rw [Text.orElse, if_pos rfl, D.topo_name] at hname
        exact ⟨_, .inr rfl, hhost, rfl, rfl, hname.symm⟩
    | tunnelEnd h =>
      obtain ⟨i, c, hc, hcold, hend⟩ := h
      obtain ⟨L, hL, hok⟩ := exists_across D.built (D.crossHostLink_iff.2 ⟨c, hc, rfl⟩)
      obtain ⟨nameA, nameB, warmA, warmB, hA, hB, hwA, hwB, rfl⟩ := crossRuntimeLink_eq_ok.1 hok
      -- The scheduler has named the ends of a tunnel already.
      obtain ⟨-, hsrc, htgt⟩ := D.across_at hc
      refine ⟨_, hL, .inr (mem_coldIfacesOn.2 ?_)⟩
      rcases hend with ⟨hhost, rfl, rfl, rfl⟩ | ⟨hhost, rfl, rfl, rfl⟩
      · obtain rfl := (D.cold_iff hwA).1 hcold
        have hname := endpointName_of_not_warm hA hwA
        rw [Scheduler.withIfaces, hsrc, Text.orElse, if_neg (nthName_ne_empty _ _ _ _)] at hname
        rw [hsrc]
        exact ⟨_, .inl rfl, hhost, rfl, rfl, hname.symm⟩
      · obtain rfl := (D.cold_iff hwB).1 hcold
        have hname := endpointName_of_not_warm hB hwB
        rw [Scheduler.withIfaces, htgt, Text.orElse, if_neg (nthName_ne_empty _ _ _ _)] at hname
        rw [htgt]
        exact ⟨_, .inr rfl, hhost, rfl, rfl, hname.symm⟩
    | netEnd h =>
      obtain ⟨l, hl, hhost, hcold, rfl, rfl⟩ := h
      obtain ⟨i, hi⟩ := List.getElem?_of_mem (D.realNetLinks_iff.2 ⟨l, hl, rfl⟩)
      obtain ⟨L, hL, hok⟩ := exists_net D.built hi
      obtain ⟨name, warm, hname, hw, rfl⟩ := realNetRuntimeLink_eq_ok.1 hok
      obtain rfl := (D.cold_iff hw).1 hcold
      have h := endpointName_of_not_warm hname hw
      rw [realNetFallback, Text.orElse, Text.orElse, if_neg (realnetBridgeIface_ne_empty _ _),
        if_neg (realnetBridgeIface_ne_empty _ _)] at h
      exact ⟨_, hL, .inr (mem_coldIfacesOn.2 ⟨_, .inl rfl, hhost, rfl, rfl, h.symm⟩)⟩

/-- The VXLAN ids of the links of a lab on a host. -/
theorem mem_vnis_iff {v : ℕ} :
    v ∈ vnis w D.links ↔ ∃ i, D.TunnelOn w i ∧ v = Ids.dataplaneVxlanBase D.lab + i := by
  constructor
  · rintro ⟨L, hL, hv⟩
    obtain ⟨htype, hhost, rfl⟩ := (vnisOn_eq L).1 hv
    rcases planned_of_mem D.built hL with ⟨hl, hL⟩ | ⟨hl, hL⟩ | ⟨hl, hL⟩
    · obtain ⟨_, _, _, _, -, -, -, -, rfl⟩ := localRuntimeLink_eq_ok.1 hL
      exact absurd htype (by simp [localLinkOf])
    · obtain ⟨_, _, _, _, -, -, -, -, rfl⟩ := crossRuntimeLink_eq_ok.1 hL
      obtain ⟨c, hc, rfl⟩ := D.crossHostLink_iff.1 hl
      exact ⟨_, ⟨c, hc, hhost⟩, (D.across_at hc).1⟩
    · obtain ⟨_, _, -, -, rfl⟩ := realNetRuntimeLink_eq_ok.1 hL
      exact absurd htype (by simp [realNetLinkOf])
  · rintro ⟨i, ⟨c, hc, hhost⟩, rfl⟩
    obtain ⟨L, hL, hok⟩ := exists_across D.built (D.crossHostLink_iff.2 ⟨c, hc, rfl⟩)
    obtain ⟨_, _, _, _, -, -, -, -, rfl⟩ := crossRuntimeLink_eq_ok.1 hok
    exact ⟨_, hL, (vnisOn_eq _).2 ⟨rfl, hhost, (D.across_at hc).1.symm⟩⟩

end Names

/-! ## Clashes -/

/-- Two labs use the same name or VXLAN id on a host: parts of them that the name or id is made of
    are the same. -/
inductive Clash (D D' : Deployment) (w : String) : Prop
  /-- Links within the host with the same short digest of their numbers, such as the same
      numbers. -/
  | bridge {i j : ℕ} : D.LinkOn w i → D'.LinkOn w j →
      Naming.shortHash (linkIdAt .sameHost i) 8 = Naming.shortHash (linkIdAt .sameHost j) 8 →
      Clash D D' w
  /-- Real networks with the same letters of the lab and of their name. -/
  | netBridge {net net' : String} : D.NetOn w net → D'.NetOn w net' →
      Text.first 5 (Naming.sanitizeLabName D.lab) ++ Naming.sanitizedShort net =
        Text.first 5 (Naming.sanitizeLabName D'.lab) ++ Naming.sanitizedShort net' →
      Clash D D' w
  /-- Ends of links within the host with the same letters of node and interface and the same
      digits of the number. -/
  | linkEnd {i j : ℕ} {node node' iface iface' : String} :
      D.LinkEndOn w i node iface → D'.LinkEndOn w j node' iface' →
      Naming.nodeShort node = Naming.nodeShort node' →
      Naming.ifaceShort 4 iface = Naming.ifaceShort 4 iface' →
      Text.first (Naming.room (Naming.hostEndpointStart node iface))
          (Naming.lidShort (linkIdAt .sameHost i)) =
        Text.first (Naming.room (Naming.hostEndpointStart node iface))
          (Naming.lidShort (linkIdAt .sameHost j)) →
      Clash D D' w
  /-- Ends of links between hosts, of labs with the same short digest, with the same letters of
      node and interface. -/
  | tunnelEnd {node node' iface iface' : String} {count count' : ℕ} :
      D.TunnelEndOn w node iface count → D'.TunnelEndOn w node' iface' count' →
      Naming.shortHash D.lab 3 = Naming.shortHash D'.lab 3 →
      Naming.nodeShort node = Naming.nodeShort node' →
      Text.first (Naming.room (Naming.vxlanIfaceStart D.lab node))
          (Naming.ifaceShort 3 iface ++ Naming.countText count) =
        Text.first (Naming.room (Naming.vxlanIfaceStart D.lab node))
          (Naming.ifaceShort 3 iface' ++ Naming.countText count') →
      Clash D D' w
  /-- Attachments to real networks with the same letters of node and interface. -/
  | netEnd {node node' iface iface' : String} :
      D.NetEndOn w node iface → D'.NetEndOn w node' iface' →
      Text.first 4 node = Text.first 4 node' →
      Text.first (Naming.room (Naming.bridgeIfaceStart node)) (Naming.shortenIface iface) =
        Text.first (Naming.room (Naming.bridgeIfaceStart node)) (Naming.shortenIface iface') →
      Clash D D' w
  /-- Links between hosts as far from each other as the bases of the labs. -/
  | tunnel {i j : ℕ} : D.TunnelOn w i → D'.TunnelOn w j →
      Ids.dataplaneVxlanBase D.lab + i = Ids.dataplaneVxlanBase D'.lab + j → Clash D D' w

theorem bridgeName_inj {i j : ℕ} :
    Text.first 15 ("br-rt-" ++ Naming.shortHash (linkIdAt .sameHost i) 8) =
        Text.first 15 ("br-rt-" ++ Naming.shortHash (linkIdAt .sameHost j) 8) ↔
      Naming.shortHash (linkIdAt .sameHost i) 8 = Naming.shortHash (linkIdAt .sameHost j) 8 := by
  have hplain : ∀ i, Text.first 15 ("br-rt-" ++ Naming.shortHash (linkIdAt .sameHost i) 8) =
      "br-rt-" ++ Naming.shortHash (linkIdAt .sameHost i) 8 := by
    intro i
    refine Text.first_of_length_le ?_
    rw [String.toList_append, List.length_append, Naming.length_shortHash (by decide)]
    decide
  rw [hplain, hplain, Text.append_left_inj]

/-- The first letters of a name, which tell what it is of. -/
def tag (n : String) : List Char :=
  if n.toList.take 3 = ['b', 'r', '-'] then ['b', 'r', '-'] else Naming.kind n

theorem tag_eq_kind {n : String} (h : Naming.kind n ≠ ['b', 'r']) : tag n = Naming.kind n := by
  refine if_neg fun h3 => h ?_
  have h2 := congrArg (List.take 2) h3
  rw [List.take_take] at h2
  exact h2

theorem tag_bridge (i : ℕ) :
    tag (Text.first 15 ("br-rt-" ++ Naming.shortHash (linkIdAt .sameHost i) 8)) =
      ['b', 'r', '-'] := by
  refine if_pos ?_
  rw [Text.toList_first, String.toList_append, List.take_take,
    List.take_append_of_le_length (by decide)]
  decide

theorem tag_netBridge (lab net : String) :
    tag (Naming.realnetBridgeName lab net) = ['b', 'r'] := by
  obtain ⟨c, l, h, hc⟩ := Naming.realnetBridgeName_start lab net
  rw [tag, if_neg, Naming.kind_realnetBridgeName]
  rw [h]
  simpa using hc

/-- A name of a lab is of what its first letters tell. -/
theorem OfLab.of_tag {D : Deployment} {w n : String} (h : OfLab D w n) :
    (tag n = ['b', 'r', '-'] ∧ ∃ i, D.LinkOn w i ∧
      n = Text.first 15 ("br-rt-" ++ Naming.shortHash (linkIdAt .sameHost i) 8)) ∨
    (tag n = ['b', 'r'] ∧ ∃ net, D.NetOn w net ∧ n = Naming.realnetBridgeName D.lab net) ∨
    (tag n = ['r', 't'] ∧ ∃ i node iface, D.LinkEndOn w i node iface ∧
      n = Naming.runtimeHostEndpoint D.lab node iface (linkIdAt .sameHost i)) ∨
    (tag n = ['v', 'x'] ∧ ∃ node iface count, D.TunnelEndOn w node iface count ∧
      n = Naming.nthName (Naming.vxlanHostIface D.lab node iface) count) ∨
    (tag n = ['r', 'n'] ∧ ∃ node iface, D.NetEndOn w node iface ∧
      n = Naming.realnetBridgeIface node iface) := by
  have hkind : ∀ {n : String} {k : List Char}, Naming.kind n = k → k ≠ ['b', 'r'] → tag n = k :=
    fun hk hne => (tag_eq_kind (hk ▸ hne)).trans hk
  cases h with
  | bridge h => exact .inl ⟨tag_bridge _, _, h, rfl⟩
  | netBridge h => exact .inr (.inl ⟨tag_netBridge _ _, _, h, rfl⟩)
  | linkEnd h =>
    exact .inr (.inr (.inl ⟨hkind (Naming.kind_runtimeHostEndpoint _ _ _ _) (by decide),
      _, _, _, h, rfl⟩))
  | tunnelEnd h =>
    exact .inr (.inr (.inr (.inl ⟨hkind (Naming.kind_nthName_vxlanHostIface _ _ _ _) (by decide),
      _, _, _, h, rfl⟩)))
  | netEnd h =>
    exact .inr (.inr (.inr (.inr ⟨hkind (Naming.kind_realnetBridgeIface _ _) (by decide),
      _, _, h, rfl⟩)))

/-- Two labs use the same name on a host only for things of the same kind. -/
theorem clash_of_name {D D' : Deployment} {w n : String} (h : OfLab D w n) (h' : OfLab D' w n) :
    Clash D D' w := by
  rcases h.of_tag with ⟨t, h⟩ | ⟨t, h⟩ | ⟨t, h⟩ | ⟨t, h⟩ | ⟨t, h⟩ <;>
    rcases h'.of_tag with ⟨t', h'⟩ | ⟨t', h'⟩ | ⟨t', h'⟩ | ⟨t', h'⟩ | ⟨t', h'⟩ <;>
    -- Names with different first letters are different.
    first
    | exact absurd (t.symm.trans t') (by decide)
    | skip
  · obtain ⟨i, hi, hn⟩ := h
    obtain ⟨j, hj, hn'⟩ := h'
    exact .bridge hi hj (bridgeName_inj.1 (hn.symm.trans hn'))
  · obtain ⟨net, hnet, hn⟩ := h
    obtain ⟨net', hnet', hn'⟩ := h'
    exact .netBridge hnet hnet' (Naming.realnetBridgeName_inj.1 (hn.symm.trans hn'))
  · obtain ⟨i, node, iface, he, hn⟩ := h
    obtain ⟨j, node', iface', he', hn'⟩ := h'
    obtain ⟨h₁, h₂, h₃⟩ := Naming.runtimeHostEndpoint_inj.1 (hn.symm.trans hn')
    exact .linkEnd he he' h₁ h₂ h₃
  · obtain ⟨node, iface, count, he, hn⟩ := h
    obtain ⟨node', iface', count', he', hn'⟩ := h'
    obtain ⟨h₁, h₂, h₃⟩ := Naming.nthName_vxlanHostIface_inj.1 (hn.symm.trans hn')
    exact .tunnelEnd he he' h₁ h₂ h₃
  · obtain ⟨node, iface, he, hn⟩ := h
    obtain ⟨node', iface', he', hn'⟩ := h'
    obtain ⟨h₁, h₂⟩ := Naming.realnetBridgeIface_inj.1 (hn.symm.trans hn')
    exact .netEnd he he' h₁ h₂

/-- Two labs are isolated on a host if and only if they do not clash there. -/
theorem isolated_iff (D D' : Deployment) (w : String) :
    Isolated w D.links D'.links ↔ ¬Clash D D' w := by
  unfold Isolated
  rw [Set.disjoint_left, Set.disjoint_left]
  simp only [mem_names_iff, mem_vnis_iff]
  constructor
  · rintro ⟨hnames, hvnis⟩ hclash
    cases hclash with
    | bridge hi hj h =>
      refine hnames (.bridge hi) ?_
      rw [bridgeName_inj.2 h]
      exact .bridge hj
    | netBridge hn hn' h =>
      refine hnames (.netBridge hn) ?_
      rw [Naming.realnetBridgeName_inj.2 h]
      exact .netBridge hn'
    | linkEnd he he' h₁ h₂ h₃ =>
      refine hnames (.linkEnd he) ?_
      rw [Naming.runtimeHostEndpoint_inj.2 ⟨h₁, h₂, h₃⟩]
      exact .linkEnd he'
    | tunnelEnd he he' h₁ h₂ h₃ =>
      refine hnames (.tunnelEnd he) ?_
      rw [Naming.nthName_vxlanHostIface_inj.2 ⟨h₁, h₂, h₃⟩]
      exact .tunnelEnd he'
    | netEnd he he' h₁ h₂ =>
      refine hnames (.netEnd he) ?_
      rw [Naming.realnetBridgeIface_inj.2 ⟨h₁, h₂⟩]
      exact .netEnd he'
    | tunnel hi hj h => exact hvnis ⟨_, hi, rfl⟩ ⟨_, hj, h⟩
  · intro hclash
    refine ⟨fun n h h' => hclash (clash_of_name h h'), ?_⟩
    rintro v ⟨i, hi, rfl⟩ ⟨j, hj, h⟩
    exact hclash (.tunnel hi hj h)

/-! ## Two labs with one link each -/

/-- A lab with two linked routers. -/
def pairTopology (lab : String) : DistributedTopology where
  name := lab
  master := { name := "master", host := "10.0.0.1", isMaster := true }
  workers := .ofList [("w1", { name := "w1", host := "10.0.0.2" })]
  underlayIface := "eth0"
  nodes := .ofList [("r1", ⟨"r1", "linux", "alpine:3", "", false, ∅, ∅, ""⟩),
    ("r2", ⟨"r2", "linux", "alpine:3", "", false, ∅, ∅, ""⟩)]
  links := [⟨"r1", "eth1", "r2", "eth1"⟩]
  mgmt :=
    { network := "mgmt", bridge := "br-mgmt", ipv4Subnet := "172.20.0.0/24"
      ipv4Gw := "172.20.0.1" }

/-- What the routers need. -/
def pairResources : Dict String VDResources :=
  .ofList [("r1", ⟨"r1", "alpine:3", 1, 256⟩), ("r2", ⟨"r2", "alpine:3", 1, 256⟩)]

/-- One worker. -/
def oneWorker : Dict String HostResources := .ofList [("w1", ⟨"w1", "10.0.0.2", 8, 16384, false⟩)]

/-- The deployment of such a lab, as far as it matters here. -/
def deployPair (lab : String) : Except Err (List Link × Option String) := do
  let (topo, plan) ← Scheduler.computeSchedule (pairTopology lab) pairResources oneWorker ∅
  let _ ← buildRuntimeLinks topo plan
  pure (plan.localLinks, plan.hostForVd "r1")

theorem exists_deployment (lab : String)
    (h : deployPair lab = .ok ((pairTopology lab).links, some "w1")) :
    ∃ D : Deployment, D.lab = lab ∧ D.LinkOn "w1" 0 := by
  unfold deployPair at h
  simp only [ExceptRules.bind_eq_ok, ExceptRules.pure_eq_ok] at h
  obtain ⟨⟨topo, plan⟩, hplan, links, hlinks, h⟩ := h
  obtain ⟨hlocal, hhost⟩ := Prod.mk.inj h
  refine ⟨⟨pairTopology lab, _, _, _, topo, plan, links, hplan, hlinks⟩, rfl,
    ⟨"r1", "eth1", "r2", "eth1"⟩, ?_, ?_⟩
  · rw [hlocal]
    rfl
  · rw [Deployment.hostOf, hhost]
    rfl

/-- The two labs bridge their links with one bridge. -/
theorem not_isolated_pairs : ¬∀ D D' : Deployment, D.lab ≠ D'.lab →
    ∀ w, Isolated w D.links D'.links := by
  intro h
  obtain ⟨D, hD, hlink⟩ := exists_deployment "a" (by decide +kernel)
  obtain ⟨D', hD', hlink'⟩ := exists_deployment "b" (by decide +kernel)
  have hdisjoint := (h D D' (by rw [hD, hD']; decide) "w1").1
  exact Set.disjoint_left.1 hdisjoint (mem_names_iff.2 (.bridge hlink))
    (mem_names_iff.2 (.bridge hlink'))

end Dnlab.RuntimeLinks
