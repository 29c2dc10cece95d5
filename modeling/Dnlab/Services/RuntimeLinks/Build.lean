import Dnlab.Lib.Except
import Dnlab.Services.RuntimeLinks
import Mathlib.Data.List.Basic

/-!
# The runtime links of a plan

What a link of `buildRuntimeLinks` looks like: it comes from one link of the
plan or one attachment of the topology (`Planned`), whose kind and position are
its id, so that the ids of a list are distinct. The name of each end is that of
`endpointName`, and the name of a warm end is the name of its port.
-/

namespace Dnlab.RuntimeLinks

open WarmLinks (nodeOf isEnabled)

/-- `topo.nodes[node]` takes links while it runs. -/
def WarmNode (topo : DistributedTopology) (node : String) : Prop :=
  ∃ vd, nodeOf topo node = .ok vd ∧ isEnabled vd = true

theorem endpointName_eq_ok {topo : DistributedTopology} {node iface lid fallback name : String} :
    endpointName topo node iface lid fallback = .ok name ↔
      ∃ vd, nodeOf topo node = .ok vd ∧ name =
        if isEnabled vd then Naming.runtimePortEndpoint topo.name node iface
        else Text.orElse fallback (Naming.runtimeHostEndpoint topo.name node iface lid) := by
  unfold endpointName
  rw [ExceptRules.bind_eq_ok]
  refine exists_congr fun vd => and_congr_right fun _ => ?_
  split <;> exact ExceptRules.pure_eq_ok.trans eq_comm

theorem warmOf_eq_ok {topo : DistributedTopology} {node : String} {warm : Bool} :
    warmOf topo node = .ok warm ↔ ∃ vd, nodeOf topo node = .ok vd ∧ warm = isEnabled vd := by
  unfold warmOf
  rw [ExceptRules.bind_eq_ok]
  exact exists_congr fun vd => and_congr_right fun _ => ExceptRules.pure_eq_ok.trans eq_comm

/-- The name of a warm end is that of its port. -/
theorem endpointName_of_warm {topo : DistributedTopology} {node iface lid fallback name : String}
    (h : endpointName topo node iface lid fallback = .ok name) (hw : WarmNode topo node) :
    name = Naming.runtimePortEndpoint topo.name node iface := by
  obtain ⟨vd, hvd, hen⟩ := hw
  obtain ⟨vd', hvd', hname⟩ := endpointName_eq_ok.1 h
  obtain rfl : vd = vd' := Except.ok.inj (hvd.symm.trans hvd')
  rw [hname, if_pos hen]

/-- The name of an end that is not warm is the one that the plan fixed, or that of the link. -/
theorem endpointName_of_not_warm {topo : DistributedTopology}
    {node iface lid fallback name : String}
    (h : endpointName topo node iface lid fallback = .ok name) (hw : warmOf topo node = .ok false) :
    name = Text.orElse fallback (Naming.runtimeHostEndpoint topo.name node iface lid) := by
  obtain ⟨vd, hvd, hen⟩ := warmOf_eq_ok.1 hw
  obtain ⟨vd', hvd', hname⟩ := endpointName_eq_ok.1 h
  obtain rfl : vd = vd' := Except.ok.inj (hvd.symm.trans hvd')
  rw [hname, if_neg (by simp [← hen])]

section Links

variable {topo : DistributedTopology} {plan : SchedulePlan} {idx : ℕ} {L : RuntimeLinkState}

/-- The runtime link of a link within a host, with the names and warm flags of its ends. -/
def localLinkOf (topo : DistributedTopology) (plan : SchedulePlan) (idx : ℕ) (l : Link)
    (nameA nameB : String) (warmA warmB : Bool) : RuntimeLinkState where
  id := linkIdAt .sameHost idx
  linkType := .sameHost
  endpointA := .vd l.source l.sourceIface
  endpointB := .vd l.target l.targetIface
  hostA := (plan.hostForVd l.source).getD ""
  hostB := (plan.hostForVd l.source).getD ""
  hostEndpointA := nameA
  hostEndpointB := nameB
  containerA := Naming.microVdContainerName topo.name l.source
  containerB := Naming.microVdContainerName topo.name l.target
  warmA := warmA
  warmB := warmB

theorem localRuntimeLink_eq_ok {l : Link} :
    localRuntimeLink topo plan idx l = .ok L ↔ ∃ nameA nameB warmA warmB,
      endpointName topo l.source l.sourceIface (linkIdAt .sameHost idx) "" = .ok nameA ∧
      endpointName topo l.target l.targetIface (linkIdAt .sameHost idx) "" = .ok nameB ∧
      warmOf topo l.source = .ok warmA ∧ warmOf topo l.target = .ok warmB ∧
      L = localLinkOf topo plan idx l nameA nameB warmA warmB := by
  unfold localRuntimeLink
  simp only [ExceptRules.bind_eq_ok, ExceptRules.pure_eq_ok]
  constructor
  · rintro ⟨nameA, hA, nameB, hB, warmA, hwA, warmB, hwB, rfl⟩
    exact ⟨nameA, nameB, warmA, warmB, hA, hB, hwA, hwB, rfl⟩
  · rintro ⟨nameA, nameB, warmA, warmB, hA, hB, hwA, hwB, rfl⟩
    exact ⟨nameA, hA, nameB, hB, warmA, hwA, warmB, hwB, rfl⟩

/-- The runtime link of a link between hosts, with the names and warm flags of its ends. -/
def crossLinkOf (topo : DistributedTopology) (idx : ℕ) (l : CrossHostLink)
    (nameA nameB : String) (warmA warmB : Bool) : RuntimeLinkState where
  id := linkIdAt .crossHost idx
  linkType := .crossHost
  endpointA := .vd l.sourceNode l.sourceIface
  endpointB := .vd l.targetNode l.targetIface
  hostA := l.sourceHost
  hostB := l.targetHost
  hostEndpointA := nameA
  hostEndpointB := nameB
  containerA := Naming.microVdContainerName topo.name l.sourceNode
  containerB := Naming.microVdContainerName topo.name l.targetNode
  warmA := warmA
  warmB := warmB
  vxlanId := l.vxlanId

theorem crossRuntimeLink_eq_ok {l : CrossHostLink} :
    crossRuntimeLink topo idx l = .ok L ↔ ∃ nameA nameB warmA warmB,
      endpointName topo l.sourceNode l.sourceIface (linkIdAt .crossHost idx) l.sourceHostIface =
        .ok nameA ∧
      endpointName topo l.targetNode l.targetIface (linkIdAt .crossHost idx) l.targetHostIface =
        .ok nameB ∧
      warmOf topo l.sourceNode = .ok warmA ∧ warmOf topo l.targetNode = .ok warmB ∧
      L = crossLinkOf topo idx l nameA nameB warmA warmB := by
  unfold crossRuntimeLink
  simp only [ExceptRules.bind_eq_ok, ExceptRules.pure_eq_ok]
  constructor
  · rintro ⟨nameA, hA, nameB, hB, warmA, hwA, warmB, hwB, rfl⟩
    exact ⟨nameA, nameB, warmA, warmB, hA, hB, hwA, hwB, rfl⟩
  · rintro ⟨nameA, nameB, warmA, warmB, hA, hB, hwA, hwB, rfl⟩
    exact ⟨nameA, hA, nameB, hB, warmA, hwA, warmB, hwB, rfl⟩

/-- The runtime link of an attachment, with the name and warm flag of its end. -/
def realNetLinkOf (topo : DistributedTopology) (idx : ℕ) (l : RealNetLink) (name : String)
    (warm : Bool) : RuntimeLinkState where
  id := linkIdAt .realNet idx
  linkType := .realNet
  endpointA := .vd l.node l.iface
  endpointB := .net l.realNet
  hostA := l.host
  hostB := l.host
  hostEndpointA := name
  hostEndpointB := Naming.realnetBridgeName topo.name l.realNet
  containerA := Naming.microVdContainerName topo.name l.node
  warmA := warm

theorem realNetRuntimeLink_eq_ok {l : RealNetLink} :
    realNetRuntimeLink topo idx l = .ok L ↔ ∃ name warm,
      endpointName topo l.node l.iface (linkIdAt .realNet idx) (realNetFallback l) = .ok name ∧
      warmOf topo l.node = .ok warm ∧ L = realNetLinkOf topo idx l name warm := by
  unfold realNetRuntimeLink
  simp only [ExceptRules.bind_eq_ok, ExceptRules.pure_eq_ok]
  constructor
  · rintro ⟨name, hn, warm, hw, rfl⟩
    exact ⟨name, warm, hn, hw, rfl⟩
  · rintro ⟨name, warm, hn, hw, rfl⟩
    exact ⟨name, hn, warm, hw, rfl⟩

/-- A link that a plan and its topology ask for, with its kind and position. -/
inductive Planned (topo : DistributedTopology) (plan : SchedulePlan) : RuntimeLinkState → Prop
  | within {i : ℕ} {l : Link} {L : RuntimeLinkState} : plan.localLinks[i]? = some l →
      localRuntimeLink topo plan i l = .ok L → Planned topo plan L
  | across {i : ℕ} {l : CrossHostLink} {L : RuntimeLinkState} :
      plan.crossHostLinks[i]? = some l → crossRuntimeLink topo i l = .ok L → Planned topo plan L
  | net {i : ℕ} {l : RealNetLink} {L : RuntimeLinkState} : topo.realNetLinks[i]? = some l →
      realNetRuntimeLink topo i l = .ok L → Planned topo plan L

end Links

section Build

variable {topo : DistributedTopology} {plan : SchedulePlan} {links : List RuntimeLinkState}

/-- The links of a plan are those within hosts, between hosts and to real networks. -/
theorem buildRuntimeLinks_eq_ok : buildRuntimeLinks topo plan = .ok links ↔
    ∃ within across nets, links = within ++ across ++ nets ∧
      List.Forall₂ (fun li L => localRuntimeLink topo plan li.2 li.1 = .ok L)
        plan.localLinks.zipIdx within ∧
      List.Forall₂ (fun li L => crossRuntimeLink topo li.2 li.1 = .ok L)
        plan.crossHostLinks.zipIdx across ∧
      List.Forall₂ (fun li L => realNetRuntimeLink topo li.2 li.1 = .ok L)
        topo.realNetLinks.zipIdx nets := by
  unfold buildRuntimeLinks
  simp only [ExceptRules.bind_eq_ok, ExceptRules.pure_eq_ok, ExceptRules.mapM_eq_ok]
  constructor
  · rintro ⟨within, hw, across, ha, nets, hn, rfl⟩
    exact ⟨within, across, nets, rfl, hw, ha, hn⟩
  · rintro ⟨within, across, nets, rfl, hw, ha, hn⟩
    exact ⟨within, hw, across, ha, nets, hn, rfl⟩

theorem planned_of_mem (h : buildRuntimeLinks topo plan = .ok links) {L : RuntimeLinkState}
    (hL : L ∈ links) : Planned topo plan L := by
  obtain ⟨within, across, nets, rfl, hw, ha, hn⟩ := buildRuntimeLinks_eq_ok.1 h
  rcases List.mem_append.1 hL with hL | hL
  · rcases List.mem_append.1 hL with hL | hL
    · obtain ⟨⟨l, i⟩, hm, hl⟩ := ExceptRules.forall₂_exists hw hL
      exact .within (List.mem_zipIdx_iff_getElem?.1 hm) hl
    · obtain ⟨⟨l, i⟩, hm, hl⟩ := ExceptRules.forall₂_exists ha hL
      exact .across (List.mem_zipIdx_iff_getElem?.1 hm) hl
  · obtain ⟨⟨l, i⟩, hm, hl⟩ := ExceptRules.forall₂_exists hn hL
    exact .net (List.mem_zipIdx_iff_getElem?.1 hm) hl

theorem exists_within (h : buildRuntimeLinks topo plan = .ok links) {i : ℕ} {l : Link}
    (hl : plan.localLinks[i]? = some l) : ∃ L ∈ links, localRuntimeLink topo plan i l = .ok L := by
  obtain ⟨within, across, nets, rfl, hw, -, -⟩ := buildRuntimeLinks_eq_ok.1 h
  obtain ⟨L, hL, hok⟩ := ExceptRules.forall₂_exists' (a := (l, i)) hw
    (List.mem_zipIdx_iff_getElem?.2 hl)
  exact ⟨L, List.mem_append_left _ (List.mem_append_left _ hL), hok⟩

theorem exists_across (h : buildRuntimeLinks topo plan = .ok links) {i : ℕ} {l : CrossHostLink}
    (hl : plan.crossHostLinks[i]? = some l) : ∃ L ∈ links, crossRuntimeLink topo i l = .ok L := by
  obtain ⟨within, across, nets, rfl, -, ha, -⟩ := buildRuntimeLinks_eq_ok.1 h
  obtain ⟨L, hL, hok⟩ := ExceptRules.forall₂_exists' (a := (l, i)) ha
    (List.mem_zipIdx_iff_getElem?.2 hl)
  exact ⟨L, List.mem_append_left _ (List.mem_append_right _ hL), hok⟩

theorem exists_net (h : buildRuntimeLinks topo plan = .ok links) {i : ℕ} {l : RealNetLink}
    (hl : topo.realNetLinks[i]? = some l) : ∃ L ∈ links, realNetRuntimeLink topo i l = .ok L := by
  obtain ⟨within, across, nets, rfl, -, -, hn⟩ := buildRuntimeLinks_eq_ok.1 h
  obtain ⟨L, hL, hok⟩ := ExceptRules.forall₂_exists' (a := (l, i)) hn
    (List.mem_zipIdx_iff_getElem?.2 hl)
  exact ⟨L, List.mem_append_right _ hL, hok⟩

/-- The start of an id is what is before its first digit. -/
theorem takeWhile_linkIdAt (t : LinkType) (i : ℕ) :
    (linkIdAt t i).toList.takeWhile (fun c => !c.isDigit) = (idPrefix t).toList := by
  have hdigits : (toString i).toList.takeWhile (fun c => !c.isDigit) = [] := by
    rw [Nat.toString_eq_ofList_toDigits, String.toList_ofList]
    cases hds : Nat.toDigits 10 i with
    | nil => rfl
    | cons d ds =>
      have hd : d.isDigit = true := Nat.isDigit_of_mem_toDigits (b := 10) (n := i) (by decide)
        (by decide) (hds ▸ List.mem_cons_self)
      rw [List.takeWhile_cons_of_neg (by simp [hd])]
  rw [linkIdAt, String.toList_append, List.takeWhile_append_of_pos, hdigits, List.append_nil]
  cases t <;> simp [idPrefix]

theorem linkIdAt_inj {t t' : LinkType} {i i' : ℕ} (h : linkIdAt t i = linkIdAt t' i') :
    t = t' ∧ i = i' := by
  have hp := takeWhile_linkIdAt t i
  rw [h, takeWhile_linkIdAt] at hp
  have ht : t = t' := by
    revert hp
    cases t <;> cases t' <;> decide
  subst ht
  exact ⟨rfl, Text.toString_inj.1 ((Text.append_left_inj _ _ _).1 h)⟩

/-- The link of a type at a position. -/
def linkAt (topo : DistributedTopology) (plan : SchedulePlan) :
    LinkType → ℕ → Option (Except Err RuntimeLinkState)
  | .sameHost, i => (plan.localLinks[i]?).map (localRuntimeLink topo plan i)
  | .crossHost, i => (plan.crossHostLinks[i]?).map (crossRuntimeLink topo i)
  | .realNet, i => (topo.realNetLinks[i]?).map (realNetRuntimeLink topo i)
  | .pending, _ => none

/-- The id of a planned link tells its type and position. -/
theorem Planned.exists_linkAt {L : RuntimeLinkState} (h : Planned topo plan L) :
    ∃ i, L.id = linkIdAt L.linkType i ∧ linkAt topo plan L.linkType i = some (.ok L) := by
  cases h with
  | @within i l _ hl hL =>
    obtain ⟨_, _, _, _, -, -, -, -, hL'⟩ := localRuntimeLink_eq_ok.1 hL
    subst hL'
    exact ⟨i, rfl, congrArg some hL ▸ congrArg (Option.map _) hl⟩
  | @across i l _ hl hL =>
    obtain ⟨_, _, _, _, -, -, -, -, hL'⟩ := crossRuntimeLink_eq_ok.1 hL
    subst hL'
    exact ⟨i, rfl, congrArg some hL ▸ congrArg (Option.map _) hl⟩
  | @net i l _ hl hL =>
    obtain ⟨_, _, -, -, hL'⟩ := realNetRuntimeLink_eq_ok.1 hL
    subst hL'
    exact ⟨i, rfl, congrArg some hL ▸ congrArg (Option.map _) hl⟩

/-- The id of a planned link determines it. -/
theorem Planned.eq_of_id_eq {L L' : RuntimeLinkState} (h : Planned topo plan L)
    (h' : Planned topo plan L') (hid : L.id = L'.id) : L = L' := by
  obtain ⟨i, hi, hL⟩ := h.exists_linkAt
  obtain ⟨i', hi', hL'⟩ := h'.exists_linkAt
  obtain ⟨ht, rfl⟩ := linkIdAt_inj (hi.symm.trans (hid.trans hi'))
  rw [ht, hL', Option.some.injEq] at hL
  exact (Except.ok.inj hL).symm

end Build

end Dnlab.RuntimeLinks
