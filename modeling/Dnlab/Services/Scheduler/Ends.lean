import Dnlab.Services.Config.Links
import Dnlab.Services.Scheduler.Soundness
import Mathlib.Data.List.Flatten
import Mathlib.Data.List.Perm.Subperm

/-!
# The ends of the links of a plan

What every plan of a topology says about its links (`Laid`), whether `computeSchedule`
made the plan or `classifyLinks` completed one: it has no link end that the topology does
not have, and each of them on the host of its device.
-/

namespace Dnlab

/-- A device and an interface. -/
abbrev LinkEnd := String × String

/-- The ends of a link. -/
def Link.ends (l : Link) : List LinkEnd := [(l.source, l.sourceIface), (l.target, l.targetIface)]

/-- The end of an attachment to a real network. -/
def RealNetLink.linkEnd (l : RealNetLink) : LinkEnd := (l.node, l.iface)

/-- The ends of all links of a topology. -/
def DistributedTopology.ends (topo : DistributedTopology) : List LinkEnd :=
  topo.links.flatMap Link.ends ++ topo.realNetLinks.map RealNetLink.linkEnd

/-- A link of an accepted topology may end at its devices. -/
theorem Config.Accepted.mayEnd {topo : DistributedTopology} (h : Config.Accepted topo) {e : LinkEnd}
    (he : e ∈ topo.ends) : Config.MayEnd topo.nodes e.1 := by
  rcases List.mem_append.1 he with he | he
  · obtain ⟨l, hl, hend⟩ := List.mem_flatMap.1 he
    simp only [Link.ends, List.mem_cons, List.not_mem_nil, or_false] at hend
    rcases hend with rfl | rfl
    · exact (h.link hl).1
    · exact (h.link hl).2
  · obtain ⟨l, hl, rfl⟩ := List.mem_map.1 he
    exact (h.realNetLink hl).1

namespace Scheduler

open Config (Accepted)

/-- The ends of all links of a plan: within a host, between hosts, and to real networks. -/
def linkEnds (topo : DistributedTopology) (plan : SchedulePlan) : List LinkEnd :=
  plan.localLinks.flatMap Link.ends ++
    plan.crossHostLinks.flatMap (fun c => (linkOf c).ends) ++
    topo.realNetLinks.map RealNetLink.linkEnd

/-- No device is assigned to two hosts. -/
def OneHost (plan : SchedulePlan) : Prop :=
  ∀ host a node, plan.assignments.get? host = some a → node ∈ a.vdNames →
    plan.hostForVd node = some host

/-- A plan of a topology, and the topology with the attachments to real networks placed; the
    devices of that may have been inspected on their hosts since. -/
inductive PlanOf (topo : DistributedTopology) : DistributedTopology → SchedulePlan → Prop
  | computed {vds : Dict String VDResources} {hosts : Dict String HostResources}
      {prefs : Dict String String} {placed : DistributedTopology} {plan : SchedulePlan}
      (nodes : Dict String VDNode) (hkeyed : Keyed vds)
      (h : computeSchedule topo vds hosts prefs = .ok (placed, plan)) :
      PlanOf topo { placed with nodes := nodes } plan
  | classified {bare : SchedulePlan} {allow : Bool} {placed : DistributedTopology}
      {plan : SchedulePlan} (nodes : Dict String VDNode) (hone : OneHost bare)
      (h : classifyLinks topo bare allow = .ok (placed, plan)) :
      PlanOf topo { placed with nodes := nodes } plan

/-- What a plan and a topology with its attachments placed say about the links of `topo`. -/
structure Laid (topo placed : DistributedTopology) (plan : SchedulePlan) : Prop where
  links : placed.links = topo.links
  nets : placed.realNetLinks.map RealNetLink.linkEnd = topo.realNetLinks.map RealNetLink.linkEnd
  oneHost : OneHost plan
  planned : (plan.localLinks ++ plan.crossHostLinks.map linkOf).Subperm topo.links
  across : ∀ c ∈ plan.crossHostLinks, c.sourceNode ≠ c.targetNode ∧
    c.sourceHost = (plan.hostForVd c.sourceNode).getD "" ∧
    c.targetHost = (plan.hostForVd c.targetNode).getD ""
  netHost : ∀ l ∈ placed.realNetLinks, ∀ host, plan.hostForVd l.node = some host → l.host = host

variable {topo placed : DistributedTopology} {plan : SchedulePlan}

/-! ## The passes -/

theorem subperm_splitLinks {allow : Bool} {i : ℕ} {links within : List Link}
    {across : List CrossHostLink} (h : splitLinks topo plan allow i links = .ok (within, across)) :
    (within ++ across.map linkOf).Subperm links := by
  induction links generalizing i within across with
  | nil =>
    obtain ⟨rfl, rfl⟩ := Prod.mk.inj (Except.ok.inj h)
    exact .refl _
  | cons l links ih =>
    unfold splitLinks at h
    dsimp only at h
    split at h
    · split at h
      · exact (ih h).trans .cons_self
      · cases h
    · split at h
      · obtain ⟨⟨ls, cs⟩, hrest, heq⟩ := ExceptRules.map_eq_ok.1 h
        obtain ⟨rfl, rfl⟩ := Prod.mk.inj heq
        exact (List.subperm_cons _).2 (ih hrest)
      · obtain ⟨⟨ls, cs⟩, hrest, heq⟩ := ExceptRules.map_eq_ok.1 h
        obtain ⟨rfl, rfl⟩ := Prod.mk.inj heq
        exact List.perm_middle.subperm.trans ((List.subperm_cons _).2 (ih hrest))

theorem subperm_splitAll (i : ℕ) (links : List Link) :
    ((splitAll topo plan i links).1 ++ (splitAll topo plan i links).2.map linkOf).Subperm links := by
  rw [splitAll_fst, map_linkOf_splitAll]
  exact (List.filter_append_perm _ _).subperm

/-- The links between hosts keep their devices and hosts when their names are made unique. -/
theorem Sorted.across_uniqueOnHosts {links within : List Link} {across : List CrossHostLink}
    (h : Sorted topo plan 0 links within across) (hosts : List String) :
    ∀ c ∈ uniqueOnHosts hosts across, c.sourceNode ≠ c.targetNode ∧
      c.sourceHost = (plan.hostForVd c.sourceNode).getD "" ∧
      c.targetHost = (plan.hostForVd c.targetNode).getD "" := by
  intro c hc
  obtain ⟨i, hi⟩ := List.getElem?_of_mem hc
  obtain ⟨l, -, hne, -, rfl⟩ := h.of_uniqueOnHosts hi
  exact ⟨fun hnode => hne (congrArg _ hnode), rfl, rfl⟩

theorem linkEnd_placeRealNets {allow : Bool} {nets nets' : List RealNetLink}
    (h : placeRealNets plan allow nets = .ok nets') :
    nets'.map RealNetLink.linkEnd = nets.map RealNetLink.linkEnd := by
  have hall := placeRealNets_eq_ok h
  clear h
  induction hall with
  | nil => rfl
  | cons hl _ ih =>
    rw [List.map_cons, List.map_cons, ih]
    rcases hl with ⟨-, rfl⟩ | ⟨-, -, rfl⟩ <;> rfl

theorem host_placeRealNets {allow : Bool} {nets nets' : List RealNetLink}
    (hblank : ∀ l ∈ nets, l.host = "") (h : placeRealNets plan allow nets = .ok nets') :
    ∀ l ∈ nets', ∀ host, plan.hostForVd l.node = some host → l.host = host := by
  intro l' hl' host hhost
  obtain ⟨l, hl, hplaced⟩ := ExceptRules.forall₂_exists (placeRealNets_eq_ok h) hl'
  rcases hplaced with ⟨-, rfl⟩ | ⟨hnone, -, rfl⟩
  · exact congrArg (Option.getD · "") hhost
  · rw [hhost] at hnone
    exact (hblank _ hl).trans hnone.symm

theorem oneHost_of_chosenBy {vds : Dict String VDResources} {hosts : Dict String HostResources}
    {prefs : Dict String String} {cs : List Choice} (hk : Keyed vds)
    (hc : ChosenBy vds hosts prefs plan cs) : OneHost plan := by
  intro host a node ha hnode
  rw [hc.get?_assignments, Option.map_eq_some_iff] at ha
  obtain ⟨r, -, rfl⟩ := ha
  obtain ⟨vd, hvd, rfl⟩ := List.mem_map.1 hnode
  exact hc.hostForVd hk (mem_on.1 hvd)

/-- A plan whose links are some of those of its topology has their ends only. -/
theorem subperm_ends
    (hnets : placed.realNetLinks.map RealNetLink.linkEnd = topo.realNetLinks.map RealNetLink.linkEnd)
    (hplanned : (plan.localLinks ++ plan.crossHostLinks.map linkOf).Subperm topo.links) :
    (linkEnds placed plan).Subperm topo.ends := by
  obtain ⟨kept, hperm, hsub⟩ := hplanned
  rw [linkEnds, DistributedTopology.ends, hnets,
    ← List.flatMap_map (f := linkOf) (g := Link.ends), ← List.flatMap_append]
  exact ((hperm.symm.flatMap_right _).subperm.trans (hsub.flatMap _).subperm).append (.refl _)

/-! ## Completed plans -/

section Classify

variable {bare : SchedulePlan} {allow : Bool}

theorem planned_of_classifyLinks (h : classifyLinks topo bare allow = .ok (placed, plan)) :
    (plan.localLinks ++ plan.crossHostLinks.map linkOf).Subperm topo.links := by
  obtain ⟨within, across, nets, hsplit, -, -, rfl⟩ := classifyLinks_eq_ok h
  have hmap := map_uniqueOnHosts (f := linkOf) fun _ _ _ => rfl
  dsimp only
  rw [hmap]
  exact subperm_splitLinks hsplit

theorem ends_of_classifyLinks (h : classifyLinks topo bare allow = .ok (placed, plan)) :
    (linkEnds placed plan).Subperm topo.ends := by
  refine subperm_ends ?_ (planned_of_classifyLinks h)
  obtain ⟨_, _, nets, -, hnets, rfl, -⟩ := classifyLinks_eq_ok h
  exact linkEnd_placeRealNets hnets

theorem succeeds_placeRealNets (nets : List RealNetLink) :
    ExceptRules.Succeeds (placeRealNets plan true nets) := by
  induction nets with
  | nil => exact ⟨[], rfl⟩
  | cons l nets ih =>
    obtain ⟨rest, hrest⟩ := ih
    unfold placeRealNets
    dsimp only
    rw [hrest, if_pos rfl]
    exact .ite (fun _ => ⟨_, rfl⟩) fun _ => ⟨_, rfl⟩

theorem succeeds_splitLinks (i : ℕ) (links : List Link) :
    ExceptRules.Succeeds (splitLinks topo plan true i links) := by
  induction links generalizing i with
  | nil => exact ⟨([], []), rfl⟩
  | cons l links ih =>
    obtain ⟨rest, hrest⟩ := ih i
    obtain ⟨rest', hrest'⟩ := ih (i + 1)
    unfold splitLinks
    dsimp only
    rw [hrest, hrest', if_pos rfl]
    exact .ite (fun _ => ⟨_, rfl⟩) fun _ => .ite (fun _ => ⟨_, rfl⟩) fun _ => ⟨_, rfl⟩

/-- A plan can be completed if devices without a host are allowed. -/
theorem succeeds_classifyLinks (topo : DistributedTopology) (bare : SchedulePlan) :
    ExceptRules.Succeeds (classifyLinks topo bare true) :=
  (succeeds_splitLinks 0 _).bind fun _ _ => (succeeds_placeRealNets _).bind fun _ _ => .pure _

end Classify

/-! ## What every plan says -/

theorem PlanOf.laid (hacc : Accepted topo) (h : PlanOf topo placed plan) : Laid topo placed plan := by
  have hblank : ∀ l ∈ topo.realNetLinks, l.host = "" := fun l hl => (hacc.realNetLink hl).2
  cases h with
  | @computed vds hosts prefs _ _ nodes hkeyed h =>
    obtain ⟨cs, hc⟩ := exists_choices h
    have hone := oneHost_of_chosenBy hkeyed hc
    obtain ⟨placement, nets, -, hnets, rfl, rfl⟩ := computeSchedule_eq_ok h
    refine ⟨rfl, linkEnd_placeRealNets hnets, hone, ?_,
      (sorted_splitAll 0 _).across_uniqueOnHosts _,
      fun l hl => host_placeRealNets hblank hnets l hl⟩
    have hmap := map_uniqueOnHosts (f := linkOf) fun _ _ _ => rfl
    dsimp only
    rw [hmap]
    exact subperm_splitAll 0 _
  | @classified bare allow _ _ nodes hone h =>
    have hplanned := planned_of_classifyLinks h
    obtain ⟨within, across, nets, hsplit, hnets, rfl, rfl⟩ := classifyLinks_eq_ok h
    exact ⟨rfl, linkEnd_placeRealNets hnets, hone, hplanned,
      (sorted_splitLinks hsplit).across_uniqueOnHosts _,
      fun l hl => host_placeRealNets hblank hnets l hl⟩

namespace Laid

/-- A plan has the ends of its topology, or some of them. -/
theorem ends (h : Laid topo placed plan) : (linkEnds placed plan).Subperm topo.ends :=
  subperm_ends h.nets h.planned

theorem nodup (h : Laid topo placed plan) (hends : topo.ends.Nodup) :
    (linkEnds placed plan).Nodup := by
  obtain ⟨kept, hperm, hsub⟩ := h.ends
  exact hperm.nodup_iff.1 (hsub.nodup hends)

theorem mem_ends (h : Laid topo placed plan) {e : LinkEnd} (he : e ∈ linkEnds placed plan) :
    e ∈ placed.ends := by
  rw [DistributedTopology.ends, h.links, h.nets]
  exact h.ends.subset he

end Laid

end Scheduler

end Dnlab
