import Dnlab.Services.Generator.Names
import Dnlab.Services.Scheduler.Links

/-!
# Files and recorded links agree

A device's file names the host-side end of each of its ports, and the recorded
links name the ends they are attached by. The two agree on an end (`EndAgrees`)
just when the name does not have to be made unique: `buildRuntimeLinks` records
the name before `ensureUnique` (`namesAgree_iff`). The second port of a link from
a device to itself is not written at all, unless it is a spare warm port.
-/

namespace Dnlab.Generator

open RuntimeLinks WarmLinks

/-! ## What is written -/

/-- A device is assigned to a host. -/
def Scheduled (plan : SchedulePlan) (host node : String) : Prop :=
  ∃ a, plan.assignments.get? host = some a ∧ node ∈ a.vdNames

/-- The file of a device on a host gives a port the host-side name `name`, for a link or as a
    spare port. -/
def WrittenAs (files : Dict String (Dict String ClabDict)) (host node iface lid name : String) :
    Prop :=
  ∃ fs c, files.get? host = some fs ∧ fs.get? node = some c ∧
    ∃ e ∈ c.links, (e.linkId = lid ∨ e.linkId = "") ∧
      e.endpoints = [node ++ ":" ++ iface, "host:" ++ name]

/-- The file of the device at the end `s` of a link gives the end the recorded name, and no
    other. -/
def EndAgrees (plan : SchedulePlan) (files : Dict String (Dict String ClabDict))
    (L : RuntimeLinkState) (s : Side) : Prop :=
  ∀ node iface, s.endpoint = .vd node iface → Scheduled plan s.host node →
    (∃ name, WrittenAs files s.host node iface L.id name) ∧
      ∀ name, WrittenAs files s.host node iface L.id name → name = s.hostEndpoint

/-- The files and the recorded links agree on every end on a scheduled device. -/
def NamesAgree (plan : SchedulePlan) (files : Dict String (Dict String ClabDict))
    (links : List RuntimeLinkState) : Prop :=
  ∀ L ∈ links, EndAgrees plan files L (sideA L) ∧ EndAgrees plan files L (sideB L)

/-- A port of a device is one of its warm ports, and no line of its file takes it. -/
def SparePort (topo : DistributedTopology) (plan : SchedulePlan) (host node iface : String)
    (names : Dict EndpointKey String) : Prop :=
  ∃ capacity, WarmLinks.capacityForNode topo node = .ok capacity ∧
    (∃ k < capacity, iface = portName (k + 1)) ∧
    iface ∉ attachedPorts node (plannedLinks topo plan host node names)

section Files

variable {topo : DistributedTopology} {plan : SchedulePlan}
  {webui : Dict String (List WebUIAllocation)} {files : Dict String (Dict String ClabDict)}

theorem buildMicroClabDict_links {host vd : String} {names : Dict EndpointKey String}
    {c : ClabDict} (h : buildMicroClabDict topo plan host vd names webui = .ok c) :
    ∃ capacity, capacityForNode topo vd = .ok capacity ∧
      c.links = microLinks topo plan host vd names capacity := by
  unfold buildMicroClabDict at h
  simp only [ExceptRules.bind_eq_ok, ExceptRules.pure_eq_ok] at h
  obtain ⟨_, _, capacity, hc, rfl⟩ := h
  exact ⟨capacity, hc, rfl⟩

/-- The file of a device on a host. -/
theorem file_of_scheduled (h : generateMicroTopologyFiles topo plan webui = .ok files)
    {host node : String} (hs : Scheduled plan host node) :
    ∃ names fs c capacity, microHostEndpoints topo plan = .ok names ∧
      files.get? host = some fs ∧ fs.get? node = some c ∧
      capacityForNode topo node = .ok capacity ∧
      c.links = microLinks topo plan host node names capacity := by
  unfold generateMicroTopologyFiles at h
  simp only [ExceptRules.bind_eq_ok, ExceptRules.pure_eq_ok, ExceptRules.mapM_eq_ok] at h
  obtain ⟨names, hnames, pairs, hpairs, rfl⟩ := h
  obtain ⟨a, ha, hn⟩ := hs
  -- The hosts of the files are those of the plan with a device, each once.
  have hkeys : pairs.map Prod.fst =
      (plan.assignments.items.filter fun p => p.2.vdNames ≠ []).map Prod.fst := by
    generalize plan.assignments.items.filter (fun p => p.2.vdNames ≠ []) = active at hpairs
    induction hpairs with
    | nil => rfl
    | cons hp _ ih =>
      obtain ⟨_, _, rfl⟩ := hp
      rw [List.map_cons, List.map_cons, ih]
  have hnodup : (pairs.map Prod.fst).Nodup := by
    rw [hkeys]
    exact plan.assignments.nodup_keys.sublist (List.filter_sublist.map _)
  have hactive : (host, a) ∈ plan.assignments.items.filter fun p => p.2.vdNames ≠ [] :=
    List.mem_filter.2 ⟨Dict.get?_eq_some_iff.1 ha, by simpa using List.ne_nil_of_mem hn⟩
  obtain ⟨pair, hpair, clabs, hclabs, rfl⟩ := ExceptRules.forall₂_exists' hpairs hactive
  have hget := (Dict.get?_ofList_of_nodup hnodup).2 hpair
  unfold hostFiles at hclabs
  simp only [ExceptRules.bind_eq_ok, ExceptRules.pure_eq_ok, ExceptRules.mapM_eq_ok] at hclabs
  obtain ⟨cs, hcs, rfl⟩ := hclabs
  obtain ⟨q, hq, -⟩ := ExceptRules.forall₂_exists' hcs hn
  -- The same device listed twice has the same file twice.
  cases hc : (Dict.ofList cs).get? node with
  | none =>
    rw [Dict.get?_ofList_eq_none] at hc
    obtain ⟨q, hq, _, _, rfl⟩ := ExceptRules.forall₂_exists' hcs hn
    exact absurd (List.mem_map_of_mem (f := Prod.fst) hq) hc
  | some c =>
    obtain ⟨vd, -, c', hc', heq⟩ := ExceptRules.forall₂_exists hcs (Dict.mem_of_get?_ofList hc)
    rw [Prod.mk.injEq] at heq
    obtain ⟨rfl, rfl⟩ := heq
    obtain ⟨capacity, hcap, hl⟩ := buildMicroClabDict_links hc'
    exact ⟨names, _, _, capacity, hnames, hget, hc, hcap, hl⟩

/-- The files of a host are those of the devices that are assigned to it. -/
theorem mem_keys_files_iff (h : generateMicroTopologyFiles topo plan webui = .ok files)
    (host node : String) : node ∈ (files.getD host ∅).keys ↔ Scheduled plan host node := by
  constructor
  · intro hn
    rw [Dict.getD] at hn
    cases hfs : files.get? host with
    | none => exact absurd (hfs ▸ hn) (by simp)
    | some fs =>
      rw [hfs] at hn
      obtain ⟨c, hc⟩ := Dict.mem_keys_iff.1 hn
      unfold generateMicroTopologyFiles at h
      simp only [ExceptRules.bind_eq_ok, ExceptRules.pure_eq_ok, ExceptRules.mapM_eq_ok] at h
      obtain ⟨names, -, pairs, hpairs, rfl⟩ := h
      obtain ⟨p, hp, clabs, hclabs, heq⟩ :=
        ExceptRules.forall₂_exists hpairs (Dict.mem_of_get?_ofList hfs)
      obtain ⟨rfl, rfl⟩ := Prod.mk.inj heq
      simp only [hostFiles, ExceptRules.bind_eq_ok, ExceptRules.pure_eq_ok,
        ExceptRules.mapM_eq_ok] at hclabs
      obtain ⟨cs, hcs, rfl⟩ := hclabs
      obtain ⟨vd, hvd, clab, -, hvd'⟩ :=
        ExceptRules.forall₂_exists hcs (Dict.mem_of_get?_ofList hc)
      obtain ⟨rfl, -⟩ := Prod.mk.inj hvd'
      exact ⟨p.2, Dict.get?_eq_some_iff.2 (List.mem_filter.1 hp).1, hvd⟩
  · intro hs
    obtain ⟨-, fs, c, -, -, hfs, hc, -⟩ := file_of_scheduled h hs
    rw [Dict.getD, hfs]
    exact Dict.mem_keys_iff.2 ⟨c, hc⟩

/-! ### The links of a file -/

section Links

variable {host vd : String} {names : Dict EndpointKey String}

theorem eq_clabLink_of_mem_plannedLinks {e : ClabLink}
    (h : e ∈ plannedLinks topo plan host vd names) :
    ∃ t i iface, e = clabLink names (linkIdAt t i) vd iface ∧
      (t = .sameHost → ∃ l, plan.localLinks[i]? = some l ∧
        iface = if l.source = vd then l.sourceIface else l.targetIface) := by
  unfold plannedLinks at h
  rcases List.mem_append.1 h with h | h
  · rcases List.mem_append.1 h with h | h
    · obtain ⟨⟨l, i⟩, hl, h⟩ := List.mem_flatMap.1 h
      have hl' := List.mem_zipIdx_iff_getElem?.1 hl
      dsimp only at h
      split at h
      · rename_i hs
        exact ⟨.sameHost, i, _, List.mem_singleton.1 h, fun _ => ⟨l, hl', (if_pos hs).symm⟩⟩
      · rename_i hs
        split at h
        · exact ⟨.sameHost, i, _, List.mem_singleton.1 h, fun _ => ⟨l, hl', (if_neg hs).symm⟩⟩
        · exact absurd h List.not_mem_nil
    · obtain ⟨⟨l, i⟩, -, h⟩ := List.mem_flatMap.1 h
      dsimp only at h
      split at h
      · exact ⟨.crossHost, i, _, List.mem_singleton.1 h, fun h => absurd h (by decide)⟩
      · split at h
        · exact ⟨.crossHost, i, _, List.mem_singleton.1 h, fun h => absurd h (by decide)⟩
        · exact absurd h List.not_mem_nil
  · obtain ⟨⟨l, i⟩, -, h⟩ := List.mem_flatMap.1 h
    dsimp only at h
    split at h
    · exact ⟨.realNet, i, _, List.mem_singleton.1 h, fun h => absurd h (by decide)⟩
    · exact absurd h List.not_mem_nil

theorem portText_inj {iface iface' : String} (h : vd ++ ":" ++ iface = vd ++ ":" ++ iface') :
    iface = iface' :=
  (Text.append_left_inj _ _ _).1 h

/-- An end is the second port of a link from a device to itself. -/
def SecondOfSelfLink (L : RuntimeLinkState) (s : Side) : Prop :=
  L.endpointA.node = L.endpointB.node ∧ s.endpoint ≠ L.endpointA

/-- Every end of a planned link is written, but the second of a link from a device to itself. -/
theorem clabLink_mem_plannedLinks (hp : Proper plan) {L : RuntimeLinkState}
    (hL : Planned topo plan L) {s : Side} (hs : s = sideA L ∨ s = sideB L) {iface : String}
    (hv : s.endpoint = .vd vd iface) (hself : ¬SecondOfSelfLink L s) :
    clabLink names L.id vd iface ∈ plannedLinks topo plan s.host vd names := by
  unfold plannedLinks
  cases hL with
  | @within i l _ hl hL =>
    obtain ⟨_, _, _, _, -, -, -, -, rfl⟩ := localRuntimeLink_eq_ok.1 hL
    refine List.mem_append_left _ (List.mem_append_left _ (List.mem_flatMap.2
      ⟨(l, i), List.mem_zipIdx_iff_getElem?.2 hl, ?_⟩))
    rcases hs with rfl | rfl
    · obtain ⟨rfl, rfl⟩ : l.sourceIface = iface ∧ l.source = vd := by
        simpa [sideA, localLinkOf, Endpoint.vd] using hv
      simp [localLinkOf, linkIdAt, idPrefix]
    · obtain ⟨rfl, rfl⟩ : l.targetIface = iface ∧ l.target = vd := by
        simpa [sideB, localLinkOf, Endpoint.vd] using hv
      -- The second end of a link from a node to itself is written only if it is the first one.
      by_cases hst : l.source = l.target
      · have hi : l.targetIface = l.sourceIface := by
          by_contra hne
          refine hself ⟨by simp [localLinkOf, Endpoint.vd, hst], ?_⟩
          simp [sideB, localLinkOf, Endpoint.vd, hne]
        simp [localLinkOf, linkIdAt, idPrefix, hst, hi]
      · simp [localLinkOf, linkIdAt, idPrefix, hst]
  | @across i l _ hl hL =>
    obtain ⟨_, _, _, _, -, -, -, -, rfl⟩ := crossRuntimeLink_eq_ok.1 hL
    have hne := hp l (List.mem_of_getElem? hl)
    refine List.mem_append_left _ (List.mem_append_right _ (List.mem_flatMap.2
      ⟨(l, i), List.mem_zipIdx_iff_getElem?.2 hl, ?_⟩))
    rcases hs with rfl | rfl
    · obtain ⟨rfl, rfl⟩ : l.sourceIface = iface ∧ l.sourceNode = vd := by
        simpa [sideA, crossLinkOf, Endpoint.vd] using hv
      simp [sideA, crossLinkOf, linkIdAt, idPrefix]
    · obtain ⟨rfl, rfl⟩ : l.targetIface = iface ∧ l.targetNode = vd := by
        simpa [sideB, crossLinkOf, Endpoint.vd] using hv
      simp [sideB, crossLinkOf, linkIdAt, idPrefix, hne]
  | @net i l _ hl hL =>
    obtain ⟨_, _, -, -, rfl⟩ := realNetRuntimeLink_eq_ok.1 hL
    refine List.mem_append_right _ (List.mem_flatMap.2
      ⟨(l, i), List.mem_zipIdx_iff_getElem?.2 hl, ?_⟩)
    rcases hs with rfl | rfl
    · obtain ⟨rfl, rfl⟩ : l.iface = iface ∧ l.node = vd := by
        simpa [sideA, realNetLinkOf, Endpoint.vd] using hv
      simp [sideA, realNetLinkOf, linkIdAt, idPrefix]
    · simp [sideB, realNetLinkOf, Endpoint.vd, Endpoint.net] at hv

/-- The second port of a link from a device to itself is not written for the link. -/
theorem clabLink_notMem_plannedLinks (hp : Proper plan) {L : RuntimeLinkState}
    (hL : Planned topo plan L) {s : Side} (hs : s = sideA L ∨ s = sideB L) {iface : String}
    (hv : s.endpoint = .vd vd iface) (hself : SecondOfSelfLink L s) :
    clabLink names L.id vd iface ∉ plannedLinks topo plan host vd names := by
  intro hmem
  obtain ⟨t, i, iface', he, hlocal⟩ := eq_clabLink_of_mem_plannedLinks hmem
  rw [clabLink, clabLink, ClabLink.mk.injEq, List.cons.injEq] at he
  obtain ⟨hid, hport, -⟩ := he
  obtain rfl := portText_inj hport
  obtain rfl : s = sideB L := by
    rcases hs with rfl | rfl
    · exact absurd rfl hself.2
    · rfl
  cases hL with
  | within hl hL =>
    obtain ⟨_, _, _, _, -, -, -, -, rfl⟩ := localRuntimeLink_eq_ok.1 hL
    obtain ⟨rfl, rfl⟩ := linkIdAt_inj hid
    obtain ⟨l', hl', hi⟩ := hlocal rfl
    obtain rfl := Option.some.inj (hl.symm.trans hl')
    obtain ⟨hnode, hne⟩ := hself
    simp only [sideB, localLinkOf, Endpoint.vd, Endpoint.mk.injEq, Option.some.injEq,
      and_true, ne_eq] at hv hnode hne
    rw [if_pos (hnode.trans hv.2)] at hi
    exact hne ⟨hv.1.trans hi, hnode.symm⟩
  | across hl hL =>
    obtain ⟨_, _, _, _, -, -, -, -, rfl⟩ := crossRuntimeLink_eq_ok.1 hL
    have hnode := hself.1
    simp only [crossLinkOf, Endpoint.vd, Option.some.injEq] at hnode
    exact hp _ (List.mem_of_getElem? hl) hnode
  | net _ hL =>
    obtain ⟨_, _, -, -, rfl⟩ := realNetRuntimeLink_eq_ok.1 hL
    simp [sideB, realNetLinkOf, Endpoint.vd, Endpoint.net] at hv

theorem mem_spareLinks {lab : String} {capacity : ℕ} {attached : List String} {e : ClabLink} :
    e ∈ spareLinks lab vd capacity attached ↔ ∃ iface, (∃ k < capacity, iface = portName (k + 1)) ∧
      iface ∉ attached ∧ e = ⟨"", [vd ++ ":" ++ iface,
        "host:" ++ Naming.runtimePortEndpoint lab vd iface]⟩ := by
  unfold spareLinks
  simp only [List.mem_map, List.mem_filter, List.mem_range, decide_eq_true_eq]
  constructor
  · rintro ⟨iface, ⟨⟨k, hk, rfl⟩, hna⟩, rfl⟩
    exact ⟨_, ⟨k, hk, rfl⟩, hna, rfl⟩
  · rintro ⟨iface, ⟨k, hk, rfl⟩, hna, rfl⟩
    exact ⟨_, ⟨⟨k, hk, rfl⟩, hna⟩, rfl⟩

/-- The name of a warm end is that of its port. -/
theorem hostEndpoint_of_warm {L : RuntimeLinkState} (hL : Planned topo plan L) {s : Side}
    (hs : s = sideA L ∨ s = sideB L) {iface : String} (hv : s.endpoint = .vd vd iface)
    (hw : WarmNode topo vd) : s.hostEndpoint = Naming.runtimePortEndpoint topo.name vd iface := by
  cases hL with
  | within _ hL =>
    obtain ⟨_, _, _, _, hA, hB, -, -, rfl⟩ := localRuntimeLink_eq_ok.1 hL
    rcases hs with rfl | rfl <;>
      simp only [sideA, sideB, localLinkOf, Endpoint.vd, Endpoint.mk.injEq, Option.some.injEq,
        and_true] at hv <;> obtain ⟨rfl, rfl⟩ := hv
    · exact endpointName_of_warm hA hw
    · exact endpointName_of_warm hB hw
  | across _ hL =>
    obtain ⟨_, _, _, _, hA, hB, -, -, rfl⟩ := crossRuntimeLink_eq_ok.1 hL
    rcases hs with rfl | rfl <;>
      simp only [sideA, sideB, crossLinkOf, Endpoint.vd, Endpoint.mk.injEq, Option.some.injEq,
        and_true] at hv <;> obtain ⟨rfl, rfl⟩ := hv
    · exact endpointName_of_warm hA hw
    · exact endpointName_of_warm hB hw
  | net _ hL =>
    obtain ⟨_, _, hA, -, rfl⟩ := realNetRuntimeLink_eq_ok.1 hL
    rcases hs with rfl | rfl
    · simp only [sideA, realNetLinkOf, Endpoint.vd, Endpoint.mk.injEq, Option.some.injEq,
        and_true] at hv
      obtain ⟨rfl, rfl⟩ := hv
      exact endpointName_of_warm hA hw
    · simp [sideB, realNetLinkOf, Endpoint.vd, Endpoint.net] at hv

end Links

theorem linkIdAt_ne_empty (t : LinkType) (i : ℕ) : linkIdAt t i ≠ "" := by
  intro h
  have hlen := congrArg (fun s => s.toList.length) h
  rw [linkIdAt, String.toList_append, List.length_append] at hlen
  cases t <;> simp [idPrefix] at hlen

/-- A line of a file is that of a link, or of a spare port. -/
theorem writtenAs_iff (hf : generateMicroTopologyFiles topo plan webui = .ok files)
    {L : RuntimeLinkState} (hL : Planned topo plan L) {host node iface name : String}
    (hs : Scheduled plan host node) {names : Dict EndpointKey String}
    (hn : microHostEndpoints topo plan = .ok names) :
    WrittenAs files host node iface L.id name ↔
      (clabLink names L.id node iface ∈ plannedLinks topo plan host node names ∧
        name = names.getD (L.id, node, iface) "") ∨
      (SparePort topo plan host node iface names ∧
        name = Naming.runtimePortEndpoint topo.name node iface) := by
  obtain ⟨names', fs, c, capacity, hn', hfs, hc, hcap, hl⟩ := file_of_scheduled hf hs
  obtain rfl := Except.ok.inj (hn.symm.trans hn')
  have hwritten : WrittenAs files host node iface L.id name ↔
      ∃ e ∈ microLinks topo plan host node names capacity, (e.linkId = L.id ∨ e.linkId = "") ∧
        e.endpoints = [node ++ ":" ++ iface, "host:" ++ name] := by
    rw [← hl]
    constructor
    · rintro ⟨fs', c', hfs', hc', h⟩
      obtain rfl := Option.some.inj (hfs.symm.trans hfs')
      obtain rfl := Option.some.inj (hc.symm.trans hc')
      exact h
    · exact fun h => ⟨fs, c, hfs, hc, h⟩
  obtain ⟨j, hid, -⟩ := hL.exists_linkAt
  rw [hwritten, microLinks]
  -- A line of the file is that of a link, or of a spare port.
  constructor
  · rintro ⟨e, he, hlid, hends⟩
    rcases List.mem_append.1 he with he | he
    · left
      obtain ⟨t, i, iface', rfl, -⟩ := eq_clabLink_of_mem_plannedLinks he
      simp only [clabLink, List.cons.injEq, and_true] at hends
      obtain rfl := portText_inj hends.1
      have hlid' : linkIdAt t i = L.id := hlid.resolve_right (linkIdAt_ne_empty t i)
      rw [hlid'] at he hends
      exact ⟨he, ((Text.append_left_inj _ _ _).1 hends.2).symm⟩
    · right
      obtain ⟨iface', hport, hfree, rfl⟩ := mem_spareLinks.1 he
      simp only [List.cons.injEq, and_true] at hends
      obtain rfl := portText_inj hends.1
      exact ⟨⟨capacity, hcap, hport, hfree⟩, ((Text.append_left_inj _ _ _).1 hends.2).symm⟩
  · rintro (⟨hmem, rfl⟩ | ⟨⟨capacity', hcap', hport, hfree⟩, rfl⟩)
    · exact ⟨_, List.mem_append_left _ hmem, .inl rfl, rfl⟩
    · obtain rfl := Except.ok.inj (hcap.symm.trans hcap')
      exact ⟨_, List.mem_append_right _ (mem_spareLinks.2 ⟨iface, hport, hfree, rfl⟩), .inr rfl,
        rfl⟩

/-! ## When they agree -/

/-- A key is the second port of a link of a plan from a device to itself. -/
def SecondPort (plan : SchedulePlan) (k : EndpointKey) : Prop :=
  ∃ i l, plan.localLinks[i]? = some l ∧ k = (linkIdAt .sameHost i, l.target, l.targetIface) ∧
    l.source = l.target ∧ l.sourceIface ≠ l.targetIface

theorem secondOfSelfLink_iff (hp : Proper plan) {L : RuntimeLinkState} (hL : Planned topo plan L)
    {s : Side} (hs : s = sideA L ∨ s = sideB L) {node iface : String}
    (hv : s.endpoint = .vd node iface) :
    SecondOfSelfLink L s ↔ SecondPort plan (L.id, node, iface) := by
  cases hL with
  | @within i l _ hl hL =>
    obtain ⟨_, _, _, _, -, -, -, -, rfl⟩ := localRuntimeLink_eq_ok.1 hL
    -- A link on one host is the only kind that may have both ends at one node.
    have hport : SecondPort plan (linkIdAt .sameHost i, node, iface) ↔
        node = l.target ∧ iface = l.targetIface ∧ l.source = l.target ∧
          l.sourceIface ≠ l.targetIface := by
      constructor
      · rintro ⟨i', l', hl', hk, hself⟩
        simp only [Prod.mk.injEq] at hk
        obtain ⟨hid, rfl, rfl⟩ := hk
        obtain ⟨-, rfl⟩ := linkIdAt_inj hid
        obtain rfl := Option.some.inj (hl.symm.trans hl')
        exact ⟨rfl, rfl, hself⟩
      · rintro ⟨rfl, rfl, hself⟩
        exact ⟨i, l, hl, rfl, hself⟩
    refine Iff.trans ?_ hport.symm
    rcases hs with rfl | rfl <;>
      simp only [sideA, sideB, localLinkOf, Endpoint.vd, Endpoint.mk.injEq, Option.some.injEq,
        and_true] at hv <;> obtain ⟨rfl, rfl⟩ := hv
    · simp only [SecondOfSelfLink, sideA, localLinkOf, ne_eq, not_true_eq_false, and_false,
        false_iff]
      rintro ⟨-, hi, -, hne⟩
      exact hne hi
    · simp only [SecondOfSelfLink, sideB, localLinkOf, Endpoint.vd, Option.some.injEq, ne_eq,
        Endpoint.mk.injEq, and_true]
      constructor
      · rintro ⟨hst, hne⟩
        exact ⟨trivial, trivial, hst, fun hi => hne ⟨hi.symm, hst.symm⟩⟩
      · rintro ⟨-, -, hst, hne⟩
        exact ⟨hst, fun h => hne h.1.symm⟩
  | @across i l _ hl hL =>
    obtain ⟨_, _, _, _, -, -, -, -, rfl⟩ := crossRuntimeLink_eq_ok.1 hL
    -- The ends of a tunnel are on two hosts.
    refine iff_of_false (fun h => ?_) ?_
    · have hnode := h.1
      simp only [crossLinkOf, Endpoint.vd, Option.some.injEq] at hnode
      exact hp _ (List.mem_of_getElem? hl) hnode
    · rintro ⟨i', l', -, hk, -⟩
      exact absurd (linkIdAt_inj (Prod.mk.inj hk).1).1 (by decide)
  | @net i l _ hl hL =>
    obtain ⟨_, _, -, -, rfl⟩ := realNetRuntimeLink_eq_ok.1 hL
    -- The other end is a network, not a node.
    refine iff_of_false (fun h => ?_) ?_
    · have hnode := h.1
      simp [realNetLinkOf, Endpoint.vd, Endpoint.net] at hnode
    · rintro ⟨i', l', -, hk, -⟩
      exact absurd (linkIdAt_inj (Prod.mk.inj hk).1).1 (by decide)

/-- The end `e` of a host is written as it is meant, where the ends `before` come before it. -/
def KeptBehind (topo : DistributedTopology) (plan : SchedulePlan) (before : List EndpointEntry)
    (e : EndpointEntry) : Prop :=
  (SecondPort plan e.key → SparePort topo plan e.host e.key.2.1 e.key.2.2
    (uniqueNames plan (planEnds topo plan))) ∧
  (¬SecondPort plan e.key → Naming.KeptAfter (before.map (·.raw)) e.raw)

/-- Every end on a scheduled device is written as it is meant. An end that a link lists twice
    counts where it is listed last. -/
def AllKept (topo : DistributedTopology) (plan : SchedulePlan) : Prop :=
  ∀ host before e after, entriesOn host (planEnds topo plan) = before ++ e :: after →
    e.key ∉ after.map (·.key) → Scheduled plan host e.key.2.1 → KeptBehind topo plan before e

section Iff

variable {links : List RuntimeLinkState}

/-- One end agrees just when it is written as it is meant. -/
theorem endAgrees_iff (hp : Proper plan)
    (hf : generateMicroTopologyFiles topo plan webui = .ok files)
    (hl : buildRuntimeLinks topo plan = .ok links) {L : RuntimeLinkState} (hL : L ∈ links)
    {s : Side} (hs : s = sideA L ∨ s = sideB L) {node iface : String}
    (hv : s.endpoint = .vd node iface) (hsched : Scheduled plan s.host node)
    {before after : List EndpointEntry}
    (hon : entriesOn s.host (planEnds topo plan) =
      before ++ ⟨s.host, (L.id, node, iface), s.hostEndpoint⟩ :: after)
    (hlast : (L.id, node, iface) ∉ after.map (·.key)) :
    EndAgrees plan files L s ↔
      KeptBehind topo plan before ⟨s.host, (L.id, node, iface), s.hostEndpoint⟩ := by
  have hpl := planned_of_mem hl hL
  have hends := flatMap_entriesOf hl
  have hn : microHostEndpoints topo plan = .ok (uniqueNames plan (planEnds topo plan)) := by
    rw [microHostEndpoints, endpointEntries_eq hl, hends]
    rfl
  have hw : ∀ name, WrittenAs files s.host node iface L.id name ↔ _ := fun name =>
    writtenAs_iff hf hpl hsched hn
  -- A spare port is one of a warm device.
  have hspare : SparePort topo plan s.host node iface (uniqueNames plan (planEnds topo plan)) →
      s.hostEndpoint = Naming.runtimePortEndpoint topo.name node iface := by
    rintro ⟨capacity, hcap, ⟨k, hk, -⟩, -⟩
    exact hostEndpoint_of_warm hpl hs hv (isEnabled_of_capacity hcap (Nat.ne_of_gt (by omega)))
  have hagree : EndAgrees plan files L s ↔
      (∃ name, WrittenAs files s.host node iface L.id name) ∧
        ∀ name, WrittenAs files s.host node iface L.id name → name = s.hostEndpoint := by
    refine ⟨fun h => h node iface hv hsched, fun h node' iface' hv' _ => ?_⟩
    obtain ⟨hi, hnode, -⟩ := Endpoint.mk.inj (hv.symm.trans hv')
    rw [Option.some.injEq] at hi hnode
    subst hi hnode
    exact h
  rw [hagree]
  simp only [hw]
  rw [KeptBehind, ← secondOfSelfLink_iff hp hpl hs hv]
  by_cases hself : SecondOfSelfLink L s
  · have hnot : clabLink (uniqueNames plan (planEnds topo plan)) L.id node iface ∉
        plannedLinks topo plan s.host node (uniqueNames plan (planEnds topo plan)) :=
      clabLink_notMem_plannedLinks hp hpl hs hv hself
    simp only [hnot, false_and, false_or, hself, true_implies, not_true_eq_false, and_true,
      false_implies]
    constructor
    · rintro ⟨⟨_, h, -⟩, -⟩
      exact h
    · exact fun h => ⟨⟨_, h, rfl⟩, fun name hname => hname.2.trans (hspare h).symm⟩
  · have hmem : clabLink (uniqueNames plan (planEnds topo plan)) L.id node iface ∈
        plannedLinks topo plan s.host node (uniqueNames plan (planEnds topo plan)) :=
      clabLink_mem_plannedLinks hp hpl hs hv hself
    have hname : (uniqueNames plan (planEnds topo plan)).getD (L.id, node, iface) "" = _ :=
      getD_uniqueNames (e := ⟨s.host, (L.id, node, iface), s.hostEndpoint⟩)
        (fun e he e' he' => entry_eq_of_key_eq hp hl (hends ▸ he) (hends ▸ he')) hon hlast
    simp only [hmem, true_and, hself, false_implies, not_false_eq_true, true_implies]
    rw [← Naming.nthName_eq_self_iff, ← hname]
    constructor
    · exact fun h => h.2 _ (.inl rfl)
    · intro h
      refine ⟨⟨_, .inl rfl⟩, ?_⟩
      rintro name (rfl | ⟨hsp, rfl⟩)
      · exact h
      · exact (hspare hsp).symm

/-- An entry has a last place. -/
theorem exists_last {es : List EndpointEntry} {k : EndpointKey} (h : k ∈ es.map (·.key)) :
    ∃ before e after, es = before ++ e :: after ∧ e.key = k ∧ k ∉ after.map (·.key) := by
  induction es with
  | nil => simp at h
  | cons x es ih =>
    by_cases hes : k ∈ es.map (·.key)
    · obtain ⟨before, e, after, rfl, hk, hlast⟩ := ih hes
      exact ⟨x :: before, e, after, rfl, hk, hlast⟩
    · rw [List.map_cons, List.mem_cons] at h
      exact ⟨[], x, es, rfl, (h.resolve_right hes).symm, hes⟩

/-- The files and the recorded links agree if and only if no name is changed to make it unique
    and no port of a link from a device to itself is missing. -/
theorem namesAgree_iff (hp : Proper plan)
    (hf : generateMicroTopologyFiles topo plan webui = .ok files)
    (hl : buildRuntimeLinks topo plan = .ok links) :
    NamesAgree plan files links ↔ AllKept topo plan := by
  have hends := flatMap_entriesOf hl
  constructor
  · -- The last entry of a key is that of the end of some link.
    intro h host before e after hon hlast hsched
    have he : e ∈ entriesOn host (planEnds topo plan) := hon ▸ by simp
    obtain rfl : e.host = host := of_decide_eq_true (List.mem_filter.1 he).2
    obtain ⟨L, hL, heL⟩ := List.mem_flatMap.1 (hends ▸ (List.mem_filter.1 he).1)
    obtain ⟨s, hs, node, iface, hn, hi, rfl⟩ := mem_entriesOf.1 heL
    have hv := endpoint_eq_vd (realNet_none (planned_of_mem hl hL) hs hn) hn hi
    refine (endAgrees_iff hp hf hl hL hs hv hsched hon hlast).1 ?_
    rcases hs with rfl | rfl
    · exact (h L hL).1
    · exact (h L hL).2
  · intro h L hL
    have key : ∀ s, s = sideA L ∨ s = sideB L → EndAgrees plan files L s := by
      intro s hs node iface hv hsched
      have hmem : (⟨s.host, (L.id, node, iface), s.hostEndpoint⟩ : EndpointEntry) ∈
          planEnds topo plan := by
        rw [← hends]
        exact List.mem_flatMap.2 ⟨L, hL, mem_entriesOf.2
          ⟨s, hs, node, iface, by rw [hv]; rfl, by rw [hv]; rfl, rfl⟩⟩
      have hmem' : (⟨s.host, (L.id, node, iface), s.hostEndpoint⟩ : EndpointEntry) ∈
          entriesOn s.host (planEnds topo plan) := List.mem_filter.2 ⟨hmem, by simp⟩
      obtain ⟨before, e, after, hon, hk, hlast⟩ :=
        exists_last (List.mem_map_of_mem (f := (·.key)) hmem')
      have he : e ∈ planEnds topo plan :=
        (List.mem_filter.1 (hon ▸ by simp : e ∈ entriesOn s.host (planEnds topo plan))).1
      obtain rfl := entry_eq_of_key_eq hp hl (hends ▸ he) (hends ▸ hmem) hk
      exact (endAgrees_iff hp hf hl hL hs hv hsched hon hlast).2
        (h s.host before _ after hon hlast hsched) node iface hv hsched
    exact ⟨key _ (.inl rfl), key _ (.inr rfl)⟩

end Iff

end Files

/-- Every plan that `computeSchedule` makes is proper. -/
theorem proper_of_computeSchedule {topo topo' : DistributedTopology} {plan' : SchedulePlan}
    {vds : Dict String VDResources} {hosts : Dict String HostResources} {prefs : Dict String String}
    (h : Scheduler.computeSchedule topo vds hosts prefs = .ok (topo', plan')) : Proper plan' := by
  obtain ⟨placement, nets, -, -, -, rfl⟩ := Scheduler.computeSchedule_eq_ok h
  intro c hc
  obtain ⟨i, hi⟩ := List.getElem?_of_mem hc
  obtain ⟨l, -, hne, -, rfl⟩ := (Scheduler.sorted_splitAll 0 _).of_uniqueOnHosts hi
  exact fun hnode => hne (congrArg _ hnode)

/-- Every plan that `classifyLinks` completes is proper. -/
theorem proper_of_classifyLinks {topo topo' : DistributedTopology} {plan plan' : SchedulePlan}
    {allow : Bool} (h : Scheduler.classifyLinks topo plan allow = .ok (topo', plan')) :
    Proper plan' := by
  obtain ⟨within, across, nets, hsplit, -, -, rfl⟩ := Scheduler.classifyLinks_eq_ok h
  intro c hc
  obtain ⟨i, hi⟩ := List.getElem?_of_mem hc
  obtain ⟨l, -, hne, -, rfl⟩ := (Scheduler.sorted_splitLinks hsplit).of_uniqueOnHosts hi
  exact fun hnode => hne (congrArg _ hnode)

/-! ## Two routers with one short name -/

/-- Two routers, linked by their first ports. -/
def routersTopology : DistributedTopology where
  name := "lab"
  master := { name := "master", host := "10.0.0.1", isMaster := true }
  workers := ∅
  underlayIface := "eth0"
  nodes := .ofList [("router1", ⟨"router1", "linux", "alpine:3", "", false, ∅, ∅, ""⟩),
    ("router2", ⟨"router2", "linux", "alpine:3", "", false, ∅, ∅, ""⟩)]
  links := [⟨"router1", "eth1", "router2", "eth1"⟩]
  mgmt :=
    { network := "mgmt", bridge := "br-mgmt", ipv4Subnet := "172.20.0.0/24"
      ipv4Gw := "172.20.0.1" }

/-- Both routers on one host. -/
def routersPlan : SchedulePlan where
  labName := "lab"
  assignments := .ofList [("w1",
    { hostName := "w1", hostIp := "10.0.0.2", vdNames := ["router1", "router2"] })]
  localLinks := routersTopology.links

/-- The file of the second router has another name than the one that is recorded. -/
theorem not_namesAgree_routers : ¬∀ (topo : DistributedTopology) (plan : SchedulePlan)
    (webui : Dict String (List WebUIAllocation)) (files : Dict String (Dict String ClabDict))
    (links : List RuntimeLinkState), generateMicroTopologyFiles topo plan webui = .ok files →
      buildRuntimeLinks topo plan = .ok links → NamesAgree plan files links := by
  intro h
  have hf : (generateMicroTopologyFiles routersTopology routersPlan ∅).map (fun files =>
      (files.get? "w1").bind fun fs => (fs.get? "router2").map (·.links)) =
        .ok (some [⟨"l0", ["router2:eth1", "host:rt-rout-e1-l01"]⟩]) := by decide +kernel
  have hl : (buildRuntimeLinks routersTopology routersPlan).map (fun links =>
      links.map fun L => (L.id, L.endpointB, L.hostB, L.hostEndpointB)) =
        .ok [("l0", .vd "router2" "eth1", "w1", "rt-rout-e1-l0")] := by decide +kernel
  obtain ⟨files, hfiles, hfs⟩ := ExceptRules.map_eq_ok.1 hf
  obtain ⟨links, hlinks, hends⟩ := ExceptRules.map_eq_ok.1 hl
  obtain ⟨L, rfl⟩ : ∃ L, links = [L] := by
    rcases links with _ | ⟨L, _ | ⟨L', links⟩⟩
    · simp at hends
    · exact ⟨L, rfl⟩
    · simp at hends
  simp only [List.map_cons, List.map_nil, List.cons.injEq, Prod.mk.injEq, and_true] at hends
  obtain ⟨hid, hend, hhost, hname⟩ := hends
  obtain ⟨fs, hw1, hfs⟩ := Option.bind_eq_some_iff.1 hfs
  obtain ⟨c, hc, hlines⟩ := Option.map_eq_some_iff.1 hfs
  have hagree := ((h _ _ _ _ _ hfiles hlinks) L List.mem_cons_self).2 "router2" "eth1" hend
    (show Scheduled routersPlan L.hostB "router2" from hhost ▸ ⟨_, rfl, by decide⟩)
  have hwritten : WrittenAs files L.hostB "router2" "eth1" L.id "rt-rout-e1-l01" :=
    ⟨fs, c, hhost ▸ hw1, hc, _, hlines ▸ List.mem_cons_self, .inl hid.symm, rfl⟩
  have hne : "rt-rout-e1-l01" = "rt-rout-e1-l0" := (hagree.2 _ hwritten).trans hname
  exact absurd hne (by decide)

/-- The condition for the two routers, which does not hold. -/
theorem namesAgree_iff_routers : ∃ files links,
    generateMicroTopologyFiles routersTopology routersPlan ∅ = .ok files ∧
      buildRuntimeLinks routersTopology routersPlan = .ok links ∧
      (NamesAgree routersPlan files links ↔ AllKept routersTopology routersPlan) := by
  have hf : (generateMicroTopologyFiles routersTopology routersPlan ∅).map (fun _ => ()) =
      .ok () := by decide +kernel
  have hl : (buildRuntimeLinks routersTopology routersPlan).map (fun _ => ()) = .ok () := by
    decide +kernel
  obtain ⟨files, hfiles, -⟩ := ExceptRules.map_eq_ok.1 hf
  obtain ⟨links, hlinks, -⟩ := ExceptRules.map_eq_ok.1 hl
  exact ⟨files, links, hfiles, hlinks, namesAgree_iff (fun l hl => absurd hl List.not_mem_nil) hfiles hlinks⟩

end Dnlab.Generator
