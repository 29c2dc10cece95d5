import Dnlab.Controllers.Deploy
import Dnlab.Controllers.Node.Frame
import Dnlab.Services.Generator.Renders

/-!
# Adding a device to an edited lab

What `add` builds for a new device: the plan, the files of the plan and the links. The plan has
every device that is recorded on a host of the topology, whether or not the topology still has the
device, and a file is written for each. So the files are written if the topology has all of these
devices, with warm ports that their profiles allow and with binds and ports that can be added to,
and only then (`builds_iff`).

Nothing else can fail: the links of a topology join its devices, a device without a host has its
links left out, and what is wrong with a link is remembered with it.
-/

namespace Dnlab.Node

open Ctl
open ExceptRules (Succeeds)
open Generator (Scheduled Writable generateMicroTopologyFiles)
open RuntimeLinks (EndsKnown)

variable {ρ : Type}

/-- An exception of a host that was asked for an interface. -/
def FromHost (B : Backend ρ) (e : Err) : Prop :=
  ∃ host iface r, (B.exec host (.linkShow iface) r).1 = .error e

/-- What `add` builds for a device on a host raises no exception of its own, from the world in which
    it makes the plan: the plan, the files under the ports that are published by then, the record
    under any path, and the links, from any world that still has the topology of the plan. -/
def Builds (S : Services ρ) (clients : Clients) (node host : String) (requirement : VDResources)
    (webui : Dict String (List WebUIAllocation)) (w : World ρ) : Prop :=
  ∃ plan w₁, (planWithAddedNode node host requirement).run w = (.ok plan, w₁) ∧
    (∃ files content, generateMicroTopologyFiles w₁.topo plan webui = .ok files ∧
      nodeFile host node files = .ok content) ∧
    (∀ path, Succeeds (newRuntime w₁.topo node host path)) ∧
    ∀ w₂ e, w₂.topo = w₁.topo → ((rebuildLinks S clients node plan).run w₂).1 = .error e →
      FromHost S.backend e

/-- The links of a topology join its devices. -/
def LinksKnown (topo : DistributedTopology) : Prop :=
  ∀ e ∈ topo.ends, topo.nodes.contains e.1 = true

/-- The topology has every device that is recorded on one of its hosts, and the file of each can be
    written. -/
def RecordedWritable (topo : DistributedTopology) (webui : Dict String (List WebUIAllocation))
    (st : DeploymentState) : Prop :=
  ∀ name r, st.nodeRuntime.get? name = some r → r.host ∈ topo.allHosts.keys →
    Writable topo webui name

/-- A topology file has only such links. -/
theorem linksKnown_of_accepted {topo : DistributedTopology} (h : Config.Accepted topo) :
    LinksKnown topo :=
  fun _ he => (h.mayEnd he).known

/-! ## The plan -/

section Plan

variable {topo : DistributedTopology} {st : DeploymentState} {node host : String}

theorem get?_runtimeAssignments (h : String) : (runtimeAssignments topo st).get? h =
    (topo.allHosts.get? h).map fun infra =>
      let a : HostAssignment :=
        { hostName := h
          hostIp := infra.host
          vdNames := (st.nodeRuntime.items.filter fun (_, r) => r.host = h).map Prod.fst }
      match st.scheduling.get? h with
      | some s => { a with cpuUsed := s.resourcesUsed.cpu, ramMbUsed := s.resourcesUsed.ramMb }
      | none => a := by
  rw [runtimeAssignments, assignmentsOf, Dict.get?_map, Dict.get?_map, Option.map_map]
  rfl

/-- The plan has the devices that are recorded on the hosts of the topology. -/
theorem mem_vdNames_runtimeAssignments {h : String} {a : HostAssignment}
    (ha : (runtimeAssignments topo st).get? h = some a) (name : String) :
    name ∈ a.vdNames ↔ ∃ r, st.nodeRuntime.get? name = some r ∧ r.host = h := by
  rw [get?_runtimeAssignments, Option.map_eq_some_iff] at ha
  obtain ⟨infra, -, rfl⟩ := ha
  have hnames : name ∈ (st.nodeRuntime.items.filter fun (_, r) => r.host = h).map Prod.fst ↔
      ∃ r, st.nodeRuntime.get? name = some r ∧ r.host = h := by
    simp only [List.mem_map, List.mem_filter, Prod.exists, decide_eq_true_eq,
      Dict.get?_eq_some_iff]
    constructor
    · rintro ⟨_, r, ⟨hr, hh⟩, rfl⟩
      exact ⟨r, hr, hh⟩
    · rintro ⟨r, hr, hh⟩
      exact ⟨name, r, ⟨hr, hh⟩, rfl⟩
  dsimp only
  split <;> exact hnames

/-- The devices of the plan with a device added, before the links are placed. -/
theorem scheduled_modify_iff (requirement : VDResources) (hhost : host ∈ topo.allHosts.keys)
    {plan : SchedulePlan} (hplan : plan.assignments = (runtimeAssignments topo st).modify host fun a =>
      Scheduler.HostAssignment.add a node requirement.cpu requirement.ramMb) (h name : String) :
    Scheduled plan h name ↔ (h = host ∧ name = node) ∨
      (h ∈ topo.allHosts.keys ∧ ∃ r, st.nodeRuntime.get? name = some r ∧ r.host = h) := by
  have hkeys : ∀ {h'}, h' ∈ topo.allHosts.keys ↔ ∃ a, (runtimeAssignments topo st).get? h' = some a := by
    intro h'
    rw [← Dict.mem_keys_iff, runtimeAssignments, Dict.keys_map, assignmentsOf, Dict.keys_map]
  unfold Scheduled
  rw [hplan, Dict.get?_modify, hkeys]
  -- Only the plan of the chosen host is changed.
  by_cases hh : h = host
  · subst hh
    obtain ⟨a, ha⟩ := hkeys.1 hhost
    rw [if_pos rfl, ha]
    have hold := mem_vdNames_runtimeAssignments ha name
    constructor
    · rintro ⟨a', ha', hname⟩
      obtain rfl := Option.some.inj ha'
      rcases List.mem_append.1 hname with hname | hname
      · exact .inr ⟨⟨a, rfl⟩, hold.1 hname⟩
      · exact .inl ⟨rfl, List.mem_singleton.1 hname⟩
    · rintro (⟨-, rfl⟩ | ⟨-, hname⟩)
      · exact ⟨_, rfl, List.mem_append_right _ List.mem_cons_self⟩
      · exact ⟨_, rfl, List.mem_append_left _ (hold.2 hname)⟩
  · rw [if_neg hh]
    constructor
    · rintro ⟨a, ha, hname⟩
      exact .inr ⟨⟨a, ha⟩, (mem_vdNames_runtimeAssignments ha name).1 hname⟩
    · rintro (⟨rfl, -⟩ | ⟨⟨a, ha⟩, hname⟩)
      · exact absurd rfl hh
      · exact ⟨a, ha, (mem_vdNames_runtimeAssignments ha name).2 hname⟩

end Plan

/-! ## The links -/

section Links

variable {S : Services ρ} {clients : Clients}

theorem raises_hostHasEndpoint {s : RuntimeLinks.Side} :
    Prog.Raises (FromHost S.backend) (hostHasEndpoint S clients s) := by
  refine .ite (fun _ => .pure _) fun hasked => .bind (.onPart ?_) fun _ => .pure _
  have hclient : ¬(clients.get? s.host).isNone = true := fun h => hasked (.inr (.inr (.inr h)))
  rw [Option.isNone_iff_eq_none, ← ne_eq, Option.ne_none_iff_exists'] at hclient
  obtain ⟨infra, hclient⟩ := hclient
  intro r e he
  rw [Clients.runNoCheck, hclient] at he
  exact ⟨s.host, s.hostEndpoint, r.env, he⟩

/-- What is wrong with a link is an exception of its own kind. -/
theorem raises_validateSide {s : RuntimeLinks.Side} :
    Prog.Raises (fun e => isLifecycle e = true ∨ FromHost S.backend e)
      (validateSide S clients s) := by
  unfold validateSide
  split
  · exact .pure _
  · refine .bind (.bind .get fun _ => .pure _) fun st => ?_
    split
    · exact .raise (.inl rfl)
    · refine .bind (raises_hostHasEndpoint.mono fun _ => .inr) fun there =>
        .ite (fun _ => .pure _) fun _ => .ofExcept fun e he => .inl ?_
      unfold validateWarmPort at he
      split at he
      · cases he
        rfl
      · split at he
        · cases he
          rfl
        · split at he
          · cases he
            rfl
          · cases he

theorem raises_markLinkValidation {link : RuntimeLinkState} :
    Prog.Raises (FromHost S.backend) (markLinkValidation S clients link) := by
  have hvalidate : Prog.Raises (fun e => isLifecycle e = true ∨ FromHost S.backend e)
      (validateNewHotLink S clients link) :=
    .bind raises_validateSide fun _ => raises_validateSide
  refine hvalidate.attempt_bind (fun _ => .ite (fun _ => .pure _) fun _ => .pure _) fun e he => ?_
  exact .ite (fun _ => .pure _) fun hother => .raise (he.resolve_left hother)

/-- Only a host raises an exception while the links are rebuilt, if the topology has the devices of
    their ends. -/
theorem raises_rebuildLinks {node : String} {plan : SchedulePlan} {w : World ρ} {e : Err}
    (hends : EndsKnown w.topo plan) (he : ((rebuildLinks S clients node plan).run w).1 = .error e) :
    FromHost S.backend e := by
  obtain ⟨built, hbuilt⟩ := RuntimeLinks.succeeds_buildRuntimeLinks hends
  have hdesired : desiredLinks w.topo plan w.state.nodeRuntime.keys =
      .ok (built ++ RuntimeLinks.pendingRuntimeLinks w.topo w.state.nodeRuntime.keys) :=
    ExceptRules.bind_eq_ok.2 ⟨built, hbuilt, rfl⟩
  rw [rebuildLinks, Prog.run_bind_ok (Prog.run_get w), hdesired] at he
  exact Prog.Raises.mapEach (fun _ _ => .ite (fun _ => raises_markLinkValidation) fun _ => .pure _)
    w e he

end Links

/-! ## What is built -/

section Build

variable {S : Services ρ} {clients : Clients} {node host : String} {requirement : VDResources}
  {webui : Dict String (List WebUIAllocation)} {w : World ρ}

/-- The plan with a device added, and the topology that its links were placed in. -/
theorem run_planWithAddedNode (node : String) (requirement : VDResources) (hlinks : LinksKnown w.topo)
    (hhost : host ∈ w.topo.allHosts.keys) : ∃ placed plan,
    (planWithAddedNode node host requirement).run w = (.ok plan, { w with topo := placed }) ∧
      EndsKnown placed plan ∧
      (∀ webui name, Writable placed webui name ↔ Writable w.topo webui name) ∧
      ∀ h name, Scheduled plan h name ↔ (h = host ∧ name = node) ∨
        (h ∈ w.topo.allHosts.keys ∧
          ∃ r, w.state.nodeRuntime.get? name = some r ∧ r.host = h) := by
  obtain ⟨a, ha⟩ : ∃ a, (runtimeAssignments w.topo w.state).get? host = some a := by
    rwa [← Dict.mem_keys_iff, runtimeAssignments, Dict.keys_map, assignmentsOf, Dict.keys_map]
  obtain ⟨⟨placed, plan⟩, hclassify⟩ := Scheduler.succeeds_classifyLinks w.topo
    (assignedPlan w.topo ((runtimeAssignments w.topo w.state).modify host fun a =>
      Scheduler.HostAssignment.add a node requirement.cpu requirement.ramMb))
  have hends := Scheduler.ends_of_classifyLinks hclassify
  obtain ⟨_, _, nets, -, hnets, hplaced, hplan⟩ := Scheduler.classifyLinks_eq_ok hclassify
  have hnodes : placed.nodes = w.topo.nodes := by rw [hplaced]
  refine ⟨placed, plan, ?_, fun e he => hnodes ▸ hlinks e (hends.subset he),
    fun _ => Generator.writable_congr hnodes (by rw [hplaced]) ?_ (by rw [hplaced]),
    scheduled_modify_iff requirement hhost (by rw [hplan]; rfl)⟩
  · rw [planWithAddedNode, Prog.run_bind_ok (Prog.run_get w)]
    dsimp only
    rw [ha]
    dsimp only
    rw [run_placeLinks, hclassify]
  · rw [hplaced]
    exact Scheduler.linkEnd_placeRealNets hnets

/-- Every device of the plan is written. -/
theorem writable_of_builds (hlinks : LinksKnown w.topo) (hhost : host ∈ w.topo.allHosts.keys)
    (h : Builds S clients node host requirement webui w) :
    Writable w.topo webui node ∧ RecordedWritable w.topo webui w.state := by
  obtain ⟨placed, plan, hrun, hends, hwrite, hscheduled⟩ :=
    run_planWithAddedNode node requirement hlinks hhost
  obtain ⟨plan', w₁, hrun', hfiles, -, -⟩ := h
  obtain ⟨hplan, rfl⟩ := Prod.mk.inj (hrun.symm.trans hrun')
  obtain rfl := Except.ok.inj hplan
  obtain ⟨files, _, hok, -⟩ := hfiles
  have hall := (Generator.succeeds_generateMicroTopologyFiles_iff hends).1 ⟨files, hok⟩
  refine ⟨(hwrite _ node).1 (hall host node ((hscheduled _ _).2 (.inl ⟨rfl, rfl⟩))), ?_⟩
  intro name r hr hh
  exact (hwrite _ name).1 (hall r.host name ((hscheduled _ _).2 (.inr ⟨hh, r, hr, rfl⟩)))

theorem builds_of_writable (hlinks : LinksKnown w.topo) (hhost : host ∈ w.topo.allHosts.keys)
    (hnode : Writable w.topo webui node) (hrecorded : RecordedWritable w.topo webui w.state) :
    Builds S clients node host requirement webui w := by
  obtain ⟨placed, plan, hrun, hends, hwrite, hscheduled⟩ :=
    run_planWithAddedNode node requirement hlinks hhost
  have hnode' := (hwrite _ node).2 hnode
  refine ⟨plan, _, hrun, ?_, fun path => ?_, fun w₂ e htopo he => ?_⟩
  · have hall : ∀ h name, Scheduled plan h name → Writable placed webui name := by
      intro h name hs
      rcases (hscheduled h name).1 hs with ⟨-, rfl⟩ | ⟨hh, r, hr, rfl⟩
      · exact hnode'
      · exact (hwrite _ name).2 (hrecorded name r hr hh)
    obtain ⟨files, hok⟩ : Succeeds (generateMicroTopologyFiles placed plan webui) :=
      (Generator.succeeds_generateMicroTopologyFiles_iff hends).2 hall
    obtain ⟨_, fs, c, _, -, hfs, hc, -, -⟩ :=
      Generator.file_of_scheduled hok ((hscheduled host node).2 (.inl ⟨rfl, rfl⟩))
    refine ⟨files, c, hok, ?_⟩
    rw [nodeFile, hfs]
    dsimp only
    rw [hc]
  · obtain ⟨vd, hvd, hfit, -⟩ := id hnode'
    exact .bind ⟨vd, WarmLinks.nodeOf_eq_ok.2 hvd⟩ fun _ _ =>
      .bind ((WarmLinks.succeeds_capacityForNode_iff hvd).2 hfit) fun _ _ => .pure _
  · exact raises_rebuildLinks (htopo ▸ hends) he

end Build

/-! ## A lab from which a device was deleted -/

/-- A lab whose topology has two routers, one of which keeps its data and has binds of its own. -/
def editedTopology : DistributedTopology where
  name := "lab"
  master := { name := "master", host := "10.0.0.1", isMaster := true }
  workers := ∅
  underlayIface := "eth0"
  nodes := .ofList [("r2", ⟨"r2", "linux", "alpine:3", "", false, ∅, ∅, ""⟩),
    ("r3", ⟨"r3", "linux", "router:3-dnlab", "", false, ∅,
      .ofList [("binds", .seq [.str "/opt/data:/data"]), ("ports", .seq [.int 8080])], ""⟩)]
  links := [⟨"r2", "eth1", "r3", "eth1"⟩]
  mgmt :=
    { network := "mgmt", bridge := "br-mgmt", ipv4Subnet := "172.20.0.0/24"
      ipv4Gw := "172.20.0.1" }

/-- The lab with a router that is recorded on the master. -/
def recordedWorld (router : String) : World Unit :=
  let saved : DeploymentState :=
    { labName := "lab"
      topologyFile := "lab.yml"
      runtimeMode := "per-vd"
      nodeRuntime := .ofList [(router, { node := router, host := "master" })] }
  openLab editedTopology saved ⟨(), []⟩ ∅

theorem linksKnown_recordedWorld (router : String) : LinksKnown (recordedWorld router).topo := by
  have hkeys : (recordedWorld router).topo.nodes.keys = ["r2", "r3"] := by
    rw [recordedWorld, openLab, rehydrate, Dict.keys_map]
    rfl
  intro e he
  have hends : (recordedWorld router).topo.ends = [("r2", "eth1"), ("r3", "eth1")] := rfl
  rw [hends, List.mem_pair] at he
  rw [Dict.contains_iff, hkeys]
  rcases he with rfl | rfl <;> decide

end Dnlab.Node
