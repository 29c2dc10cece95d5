import Dnlab.Services.Generator.Agreement
import Dnlab.Services.Generator.Ports

/-!
# The ports of a single-node topology

What the links of a device's file are to be (`Complete`): one for each end of a link at the
device, and one for each of its warm ports that is free. The file lacks just the second
ports of the links within a host that join a device to itself, unless these are warm ports
(`filesComplete_iff`).
-/

namespace Dnlab.Generator

open Config (Accepted)
open Scheduler (Laid PlanOf linkOf linkEnds)
open WarmLinks

/-- The links of the file of a device on its host are those of its ports, one each. -/
structure Complete (topo : DistributedTopology) (plan : SchedulePlan) (node : String)
    (capacity : ℕ) (links : List ClabLink) : Prop where
  /-- Every link joins a port to the host. -/
  hostLink : ∀ e ∈ links, ∃ iface name, e.endpoints = [node ++ ":" ++ iface, "host:" ++ name]
  /-- The ports are the ends of the links of the device, and its warm ports. -/
  listed : ∀ iface, (∃ e ∈ links, e.endpoints.head? = some (node ++ ":" ++ iface)) ↔
    (node, iface) ∈ linkEnds topo plan ∨ WarmPort capacity iface
  /-- No two links have the same port. -/
  once : (links.map fun e => e.endpoints.head?).Nodup

/-- The files of all devices of a plan are complete. -/
def FilesComplete (topo : DistributedTopology) (plan : SchedulePlan)
    (files : Dict String (Dict String ClabDict)) : Prop :=
  ∀ host node, Scheduled plan host node → ∃ fs c capacity, files.get? host = some fs ∧
    fs.get? node = some c ∧ capacityForNode topo node = .ok capacity ∧
    Complete topo plan node capacity c.links

/-- The links of a plan that join a device to itself end at a warm port of it. -/
def SelfLinksWarm (topo : DistributedTopology) (plan : SchedulePlan) : Prop :=
  ∀ l ∈ plan.localLinks, l.source = l.target → (∃ host, Scheduled plan host l.source) →
    WarmEnd topo l.source l.targetIface

/-! ## The interfaces of a file -/

/-- The interfaces of the links of a plan in the file of a device. -/
def plannedIfaces (topo : DistributedTopology) (plan : SchedulePlan) (host node : String) :
    List String :=
  (plan.localLinks.flatMap fun l =>
    if l.source = node then [l.sourceIface]
    else if l.target = node then [l.targetIface]
    else []) ++
  (plan.crossHostLinks.flatMap fun l =>
    if l.sourceNode = node ∧ l.sourceHost = host then [l.sourceIface]
    else if l.targetNode = node ∧ l.targetHost = host then [l.targetIface]
    else []) ++
  (topo.realNetLinks.flatMap fun l => if l.node = node ∧ l.host = host then [l.iface] else [])

/-- The second interfaces of the links that join a device to itself. -/
def secondIfaces (plan : SchedulePlan) (node : String) : List String :=
  plan.localLinks.flatMap fun l =>
    if l.source = node ∧ l.target = node then [l.targetIface] else []

/-- The interface of an end, if it is at a device. -/
def ifaceAt (node : String) (e : LinkEnd) : Option String := if e.1 = node then some e.2 else none

/-- The interfaces of the spare ports of a device. -/
def spareIfaces (capacity : ℕ) (attached : List String) : List String :=
  ((List.range capacity).map fun i => portName (i + 1)).filter (· ∉ attached)

/-- Positions that do not matter. -/
theorem map_flatMap_zipIdx {α β β' γ : Type*} {l : List α} {f : α × ℕ → List β} {g : β → γ}
    {f' : α → List β'} {g' : β' → γ} (h : ∀ p, (f p).map g = (f' p.1).map g') :
    (l.zipIdx.flatMap f).map g = (l.flatMap f').map g' := by
  rw [List.map_flatMap, List.map_flatMap, funext h]
  conv_rhs => rw [← List.zipIdx_map_fst 0 l, List.flatMap_map]

section Lists

variable {topo placed : DistributedTopology} {plan : SchedulePlan} {host node : String}
  {names : Dict EndpointKey String}

theorem head?_plannedLinks :
    (plannedLinks topo plan host node names).map (fun e => e.endpoints.head?) =
      (plannedIfaces topo plan host node).map fun iface => some (node ++ ":" ++ iface) := by
  rw [plannedLinks, plannedIfaces, List.map_append, List.map_append, List.map_append,
    List.map_append]
  refine congrArg₂ _ (congrArg₂ _ (map_flatMap_zipIdx fun p => ?_) (map_flatMap_zipIdx fun p => ?_))
    (map_flatMap_zipIdx fun p => ?_)
  · dsimp only
    split_ifs <;> rfl
  · dsimp only
    split_ifs <;> rfl
  · dsimp only
    split_ifs <;> rfl

theorem head?_spareLinks (lab : String) (capacity : ℕ) (attached : List String) :
    (spareLinks lab node capacity attached).map (fun e => e.endpoints.head?) =
      (spareIfaces capacity attached).map fun iface => some (node ++ ":" ++ iface) := by
  rw [spareLinks, spareIfaces, List.map_map]
  rfl

/-- The ends of a device on its host are those in its file, and the second ones of its links to
    itself. -/
theorem perm_plannedIfaces (h : Laid topo placed plan) (hhost : plan.hostForVd node = some host) :
    List.Perm ((linkEnds placed plan).filterMap (ifaceAt node))
      (plannedIfaces placed plan host node ++ secondIfaces plan node) := by
  -- What the ends of each kind of link come to at the node.
  have hwithin : ∀ l : Link, l.ends.filterMap (ifaceAt node) =
      (if l.source = node then [l.sourceIface]
        else if l.target = node then [l.targetIface] else []) ++
      (if l.source = node ∧ l.target = node then [l.targetIface] else []) := by
    intro l
    by_cases hs : l.source = node <;> by_cases ht : l.target = node <;>
      simp [Link.ends, ifaceAt, hs, ht]
  have hacross : ∀ c ∈ plan.crossHostLinks, (linkOf c).ends.filterMap (ifaceAt node) =
      if c.sourceNode = node ∧ c.sourceHost = host then [c.sourceIface]
      else if c.targetNode = node ∧ c.targetHost = host then [c.targetIface] else [] := by
    intro c hc
    obtain ⟨hne, hsource, htarget⟩ := h.across c hc
    by_cases hs : c.sourceNode = node
    · have ht : c.targetNode ≠ node := fun ht => hne (hs.trans ht.symm)
      rw [hs, hhost] at hsource
      simp [Link.ends, linkOf, ifaceAt, hs, ht, hsource]
    · by_cases ht : c.targetNode = node
      · rw [ht, hhost] at htarget
        simp [Link.ends, linkOf, ifaceAt, hs, ht, htarget]
      · simp [Link.ends, linkOf, ifaceAt, hs, ht]
  have hnets : ∀ l ∈ placed.realNetLinks, ((ifaceAt node ∘ RealNetLink.linkEnd) l).toList =
      if l.node = node ∧ l.host = host then [l.iface] else [] := by
    intro l hl
    by_cases hn : l.node = node
    · have hon := h.netHost l hl host (hn ▸ hhost)
      simp [RealNetLink.linkEnd, ifaceAt, hn, hon]
    · simp [RealNetLink.linkEnd, ifaceAt, hn]
  rw [linkEnds, List.filterMap_append, List.filterMap_append, List.filterMap_flatMap,
    List.filterMap_flatMap, List.filterMap_map, List.flatMap_congr fun l _ => hwithin l,
    List.flatMap_congr hacross, List.filterMap_eq_flatMap_toList, List.flatMap_congr hnets,
    plannedIfaces, secondIfaces, List.append_assoc]
  refine ((List.flatMap_append_perm _ _ _).symm.append_right _).trans ?_
  rw [List.append_assoc, List.append_assoc, List.append_assoc]
  refine List.Perm.append_left _ (List.perm_append_comm.trans ?_)
  rw [List.append_assoc]

theorem mem_filterMap_ifaceAt {ends : List LinkEnd} {iface : String} :
    iface ∈ ends.filterMap (ifaceAt node) ↔ (node, iface) ∈ ends := by
  rw [List.mem_filterMap]
  constructor
  · rintro ⟨⟨n, i⟩, he, hi⟩
    rw [ifaceAt] at hi
    split at hi
    · rename_i hn
      rwa [← hn, ← Option.some.inj hi]
    · cases hi
  · exact fun he => ⟨_, he, if_pos rfl⟩

theorem nodup_filterMap_ifaceAt {ends : List LinkEnd} (h : ends.Nodup) :
    (ends.filterMap (ifaceAt node)).Nodup := by
  refine h.filterMap fun e e' i hi hi' => ?_
  rw [ifaceAt, Option.mem_def] at hi hi'
  split at hi <;> split at hi' <;> try cases hi <;> cases hi'
  rename_i hn hn'
  exact Prod.ext (hn.trans hn'.symm) ((Option.some.inj hi).trans (Option.some.inj hi').symm)

theorem mem_secondIfaces {iface : String} : iface ∈ secondIfaces plan node ↔
    ∃ l ∈ plan.localLinks, l.source = node ∧ l.target = node ∧ l.targetIface = iface := by
  rw [secondIfaces, List.mem_flatMap]
  refine exists_congr fun l => and_congr_right fun _ => ?_
  split
  · rename_i h
    rw [List.mem_singleton]
    exact ⟨fun heq => ⟨h.1, h.2, heq.symm⟩, fun heq => heq.2.2.symm⟩
  · rename_i h
    exact iff_of_false List.not_mem_nil fun heq => h ⟨heq.1, heq.2.1⟩

theorem mem_spareIfaces {capacity : ℕ} {attached : List String} {iface : String} :
    iface ∈ spareIfaces capacity attached ↔ WarmPort capacity iface ∧ iface ∉ attached := by
  rw [spareIfaces, List.mem_filter, List.mem_map, decide_eq_true_iff]
  refine and_congr_left fun _ => exists_congr fun k => ?_
  rw [List.mem_range]
  exact and_congr_right fun _ => eq_comm

theorem nodup_spareIfaces (capacity : ℕ) (attached : List String) :
    (spareIfaces capacity attached).Nodup := by
  refine (List.nodup_range.map fun m n h => ?_).filter _
  exact Nat.succ.inj (portName_inj.1 h)

theorem hostLink_microLinks {capacity : ℕ} {e : ClabLink}
    (he : e ∈ microLinks topo plan host node names capacity) :
    ∃ iface name, e.endpoints = [node ++ ":" ++ iface, "host:" ++ name] := by
  rcases List.mem_append.1 he with he | he
  · obtain ⟨_, _, iface, rfl, -⟩ := eq_clabLink_of_mem_plannedLinks he
    exact ⟨iface, _, rfl⟩
  · obtain ⟨iface, -, -, rfl⟩ := mem_spareLinks.1 he
    exact ⟨iface, _, rfl⟩

/-- The ports of a list of links. -/
theorem exists_head?_iff {links : List ClabLink} {ifaces : List String}
    (h : links.map (fun e => e.endpoints.head?) =
      ifaces.map fun iface => some (node ++ ":" ++ iface)) (iface : String) :
    (∃ e ∈ links, e.endpoints.head? = some (node ++ ":" ++ iface)) ↔ iface ∈ ifaces := by
  rw [← List.mem_map, h, List.mem_map]
  constructor
  · rintro ⟨iface', hmem, heq⟩
    rwa [← portText_inj (Option.some.inj heq)]
  · exact fun hmem => ⟨iface, hmem, rfl⟩

/-- The links of a file are complete if each second interface of a link from the device to itself
    is a warm port. -/
theorem complete_microLinks_iff {capacity : ℕ} (h : Laid topo placed plan)
    (hends : topo.ends.Nodup) (hhost : plan.hostForVd node = some host)
    (hattached : capacity ≠ 0 → ∀ n,
      portName n ∈ attachedPorts node (plannedLinks placed plan host node names) ↔
        ∃ e ∈ plannedLinks placed plan host node names,
          e.endpoints.head? = some (node ++ ":" ++ portName n)) :
    Complete placed plan node capacity (microLinks placed plan host node names capacity) ↔
      ∀ iface ∈ secondIfaces plan node, WarmPort capacity iface := by
  set attached := attachedPorts node (plannedLinks placed plan host node names) with hdef
  set planned := plannedIfaces placed plan host node with hplanned
  have hperm := perm_plannedIfaces h hhost
  have hnodup := hperm.nodup_iff.1 (nodup_filterMap_ifaceAt (h.nodup hends))
  rw [← hplanned] at hperm hnodup
  obtain ⟨hnodupPlanned, -, hdisjoint⟩ := List.nodup_append'.1 hnodup
  have hown (iface : String) : (node, iface) ∈ linkEnds placed plan ↔
      iface ∈ planned ∨ iface ∈ secondIfaces plan node := by
    rw [← mem_filterMap_ifaceAt, hperm.mem_iff, List.mem_append]
  have hspare (iface : String) : iface ∈ spareIfaces capacity attached ↔
      WarmPort capacity iface ∧ iface ∉ planned := by
    rw [mem_spareIfaces]
    refine and_congr_right fun hwarm => not_congr ?_
    obtain ⟨k, hk, rfl⟩ := hwarm
    rw [hattached (Nat.ne_of_gt (Nat.zero_lt_of_lt hk)), exists_head?_iff head?_plannedLinks]
  have hheads : (microLinks placed plan host node names capacity).map
      (fun e => e.endpoints.head?) = (planned ++ spareIfaces capacity attached).map
        fun iface => some (node ++ ":" ++ iface) := by
    rw [microLinks, List.map_append, List.map_append, head?_plannedLinks, head?_spareLinks]
  -- Listed are the interfaces of planned links and the warm ports.
  have hlisted (iface : String) : (∃ e ∈ microLinks placed plan host node names capacity,
      e.endpoints.head? = some (node ++ ":" ++ iface)) ↔
        iface ∈ planned ∨ WarmPort capacity iface := by
    rw [exists_head?_iff hheads, List.mem_append, hspare]
    tauto
  constructor
  · intro hcomplete iface hsecond
    rcases (hlisted iface).1 ((hcomplete.listed iface).2 (.inl ((hown iface).2 (.inr hsecond)))) with
      hmem | hwarm
    · exact absurd hsecond (hdisjoint hmem)
    · exact hwarm
  · intro hsecond
    refine ⟨fun e he => hostLink_microLinks he, fun iface => ?_, ?_⟩
    · rw [hlisted, hown]
      constructor
      · rintro (hmem | hwarm)
        · exact .inl (.inl hmem)
        · exact .inr hwarm
      · rintro ((hmem | hmem) | hwarm)
        · exact .inl hmem
        · exact .inr (hsecond iface hmem)
        · exact .inr hwarm
    · rw [hheads]
      refine (List.nodup_append'.2 ⟨hnodupPlanned, nodup_spareIfaces _ _, ?_⟩).map
        fun iface iface' heq => portText_inj (Option.some.inj heq)
      exact fun iface hmem hmem' => ((hspare iface).1 hmem').2 hmem

end Lists

/-! ## The files of a plan -/

section Files

variable {topo placed : DistributedTopology} {plan : SchedulePlan} {host node : String}
  {names : Dict EndpointKey String} {capacity : ℕ}

/-- A device whose name the code cannot read in an endpoint has no links. -/
theorem plannedLinks_of_colon (hacc : Accepted topo) (h : Laid topo placed plan)
    (hhost : plan.hostForVd node = some host) (hcolon : ':' ∈ node.toList) :
    plannedLinks placed plan host node names = [] := by
  have hnone : plannedIfaces placed plan host node = [] := by
    refine List.eq_nil_iff_forall_not_mem.2 fun iface hmem => ?_
    have hown := mem_filterMap_ifaceAt.1
      ((perm_plannedIfaces h hhost).mem_iff.2 (List.mem_append_left _ hmem))
    exact (hacc.mayEnd (h.ends.subset hown)).noColon hcolon
  have hheads : (plannedLinks placed plan host node names).map (fun e => e.endpoints.head?) = _ :=
    head?_plannedLinks
  rw [hnone] at hheads
  exact List.map_eq_nil_iff.1 hheads

/-- What the code reads back from the links that it has written. -/
theorem mem_attachedPorts_plannedLinks (hacc : Accepted topo) (h : Laid topo placed plan)
    (hhost : plan.hostForVd node = some host) (hnames : microHostEndpoints placed plan = .ok names)
    (hcap : capacityForNode placed node = .ok capacity) (hpos : capacity ≠ 0) (n : ℕ) :
    portName n ∈ attachedPorts node (plannedLinks placed plan host node names) ↔
      ∃ e ∈ plannedLinks placed plan host node names,
        e.endpoints.head? = some (node ++ ":" ++ portName n) := by
  by_cases hcolon : ':' ∈ node.toList
  · rw [plannedLinks_of_colon hacc h hhost hcolon]
    refine iff_of_false List.not_mem_nil ?_
    rintro ⟨e, he, -⟩
    exact List.not_mem_nil he
  · have hlinks : ∀ e ∈ plannedLinks placed plan host node names,
        ∃ lid iface, e = clabLink names lid node iface := fun e he => by
      obtain ⟨_, _, iface, heq, -⟩ := eq_clabLink_of_mem_plannedLinks he
      exact ⟨_, iface, heq⟩
    exact portName_mem_attachedPorts_iff hcolon hlinks
      (getD_ne_portName hnames (isEnabled_of_capacity hcap hpos)) n

theorem mem_linkEnds_of_secondIfaces {iface : String} (h : iface ∈ secondIfaces plan node) :
    (node, iface) ∈ linkEnds placed plan := by
  obtain ⟨l, hl, -, rfl, rfl⟩ := mem_secondIfaces.1 h
  exact List.mem_append_left _ (List.mem_append_left _ (List.mem_flatMap.2
    ⟨l, hl, List.mem_cons_of_mem _ List.mem_cons_self⟩))

/-- The files of a plan are complete if the links that join a device to itself end at a warm port of
    it, and only then. -/
theorem filesComplete_iff {webui : Dict String (List WebUIAllocation)}
    {files : Dict String (Dict String ClabDict)} (hacc : Accepted topo) (hends : topo.ends.Nodup)
    (hplan : PlanOf topo placed plan)
    (h : generateMicroTopologyFiles placed plan webui = .ok files) :
    FilesComplete placed plan files ↔ SelfLinksWarm placed plan := by
  have hlaid := hplan.laid hacc
  -- A device on its host: its file, and what makes that complete.
  have hfile : ∀ host node, Scheduled plan host node → ∃ fs c capacity,
      files.get? host = some fs ∧ fs.get? node = some c ∧
      capacityForNode placed node = .ok capacity ∧
      (Complete placed plan node capacity c.links ↔
        ∀ iface ∈ secondIfaces plan node, WarmEnd placed node iface) := by
    intro host node hs
    obtain ⟨names, fs, c, capacity, hnames, hfs, hc, hcap, hlinks⟩ := file_of_scheduled h hs
    obtain ⟨a, ha, hnode⟩ := hs
    have hhost := hlaid.oneHost host a node ha hnode
    refine ⟨fs, c, capacity, hfs, hc, hcap, ?_⟩
    rw [hlinks, complete_microLinks_iff hlaid hends hhost fun hpos =>
      mem_attachedPorts_plannedLinks hacc hlaid hhost hnames hcap hpos]
    exact forall₂_congr fun iface hmem =>
      warmPort_iff hcap (hlaid.mem_ends (mem_linkEnds_of_secondIfaces hmem))
  constructor
  · rintro hcomplete l hl hself ⟨host, hs⟩
    obtain ⟨fs, c, capacity, hfs, hc, hcap, hiff⟩ := hfile host l.source hs
    obtain ⟨fs', c', capacity', hfs', hc', hcap', hdone⟩ := hcomplete host l.source hs
    obtain rfl := Option.some.inj (hfs.symm.trans hfs')
    obtain rfl := Option.some.inj (hc.symm.trans hc')
    obtain rfl := Except.ok.inj (hcap.symm.trans hcap')
    exact hiff.1 hdone l.targetIface (mem_secondIfaces.2 ⟨l, hl, rfl, hself.symm, rfl⟩)
  · intro hwarm host node hs
    obtain ⟨fs, c, capacity, hfs, hc, hcap, hiff⟩ := hfile host node hs
    refine ⟨fs, c, capacity, hfs, hc, hcap, hiff.2 fun iface hmem => ?_⟩
    obtain ⟨l, hl, rfl, hself, rfl⟩ := mem_secondIfaces.1 hmem
    exact hwarm l hl hself.symm ⟨host, hs⟩

end Files

/-! ## A device linked to itself -/

/-- A router whose first two ports are linked. -/
def loopTopology : DistributedTopology :=
  { routersTopology with
    nodes := .ofList [("r1", ⟨"r1", "linux", "alpine:3", "", false, ∅, ∅, ""⟩)]
    links := [⟨"r1", "eth1", "r1", "eth2"⟩] }

/-- The router is on the master. -/
def loopBare : SchedulePlan where
  labName := "lab"
  assignments := .ofList [("master",
    { hostName := "master", hostIp := "10.0.0.1", vdNames := ["r1"] })]

theorem accepted_loop : Accepted loopTopology := ⟨[["r1:eth1", "r1:eth2"]], rfl⟩

theorem oneHost_loop : Scheduler.OneHost loopBare := by
  intro host a node ha hnode
  obtain ⟨rfl, rfl⟩ := Prod.mk.inj (List.mem_singleton.1 (Dict.get?_eq_some_iff.1 ha))
  obtain rfl := List.mem_singleton.1 hnode
  rfl

/-- The plan of the router. -/
def loopPlan : SchedulePlan := { loopBare with localLinks := loopTopology.links }

theorem planOf_loop : PlanOf loopTopology loopTopology loopPlan := by
  have hclassify : Scheduler.classifyLinks loopTopology loopBare true =
      .ok (loopTopology, loopPlan) := rfl
  exact .classified loopTopology.nodes oneHost_loop hclassify

/-- The second port is not in the file. -/
theorem not_filesComplete_loop : ¬∀ (topo placed : DistributedTopology) (plan : SchedulePlan)
    (webui : Dict String (List WebUIAllocation)) (files : Dict String (Dict String ClabDict)),
    Accepted topo → topo.ends.Nodup → PlanOf topo placed plan →
      generateMicroTopologyFiles placed plan webui = .ok files → FilesComplete placed plan files := by
  intro h
  have hf : (generateMicroTopologyFiles loopTopology loopPlan ∅).map (fun files =>
      (files.get? "master").bind fun fs => (fs.get? "r1").map fun c =>
        c.links.map fun e => e.endpoints.head?) = .ok (some [some "r1:eth1"]) := by decide +kernel
  obtain ⟨files, hfiles, hlinks⟩ := ExceptRules.map_eq_ok.1 hf
  obtain ⟨fs, hfs, hlinks⟩ := Option.bind_eq_some_iff.1 hlinks
  obtain ⟨c, hc, hlinks⟩ := Option.map_eq_some_iff.1 hlinks
  obtain ⟨fs', c', _, hfs', hc', -, hcomplete⟩ := h loopTopology loopTopology loopPlan ∅ files
    accepted_loop (by decide) planOf_loop hfiles "master" "r1" ⟨_, rfl, by decide⟩
  obtain rfl := Option.some.inj (hfs.symm.trans hfs')
  obtain rfl := Option.some.inj (hc.symm.trans hc')
  obtain ⟨e, he, hhead⟩ := (hcomplete.listed "eth2").2 (.inl (by decide))
  have hmem := List.mem_map_of_mem (f := fun e : ClabLink => e.endpoints.head?) he
  rw [hlinks, hhead] at hmem
  exact absurd hmem (by decide)

/-- A router that takes links while it runs, linked in the same way. -/
def warmLoop : DistributedTopology :=
  { loopTopology with
    nodes := .ofList [("r1", ⟨"r1", "openwrt", "openwrt:23.05-dnlab", "", false,
      .ofList [(WarmLinks.imageStatusEnv, "validated")], ∅, ""⟩)] }

theorem filesComplete_iff_loop : ∃ files,
    generateMicroTopologyFiles warmLoop loopPlan ∅ = .ok files ∧
      FilesComplete warmLoop loopPlan files := by
  have hf : (generateMicroTopologyFiles warmLoop loopPlan ∅).map (fun _ => ()) = .ok () := by
    decide +kernel
  obtain ⟨files, hfiles, -⟩ := ExceptRules.map_eq_ok.1 hf
  have hclassify : Scheduler.classifyLinks warmLoop loopBare true = .ok (warmLoop, loopPlan) := rfl
  have hplan : PlanOf warmLoop { warmLoop with nodes := warmLoop.nodes } loopPlan :=
    .classified _ oneHost_loop hclassify
  refine ⟨files, hfiles,
    (filesComplete_iff ⟨[["r1:eth1", "r1:eth2"]], rfl⟩ (by decide) hplan hfiles).2 ?_⟩
  -- The one link ends at the second port, which the router numbers.
  intro l hl _ _
  obtain rfl := List.mem_singleton.1 hl
  exact ⟨_, rfl, by decide +kernel, by decide +kernel⟩

end Dnlab.Generator
