import Dnlab.Controllers.World
import Dnlab.Services.Generator
import Dnlab.Services.Scheduler
import Mathlib.Logic.Relation

/-!
# The lifecycle of a single device

The operations on the devices of a running lab, after `controllers/node.py`:
`stop`, `start`, `add`, `remove` and the reconciliation of links. Each works on
a state that was read from the state file (`openLab`), and saves it at several
points; a device that cannot be added is taken back by a handler (`rollbackAdd`)
that runs commands of its own.

A reference to the record of a device that is deployed is its name here, and
what is done to a link in place is done in the list that has it.
-/

namespace Dnlab.Node

open Ctl
open RuntimeLinks (canonicalKey byKey LinkKey mergeRuntimeLinks)

/-- `NodeLifecycleError`. -/
def lifecycleError (message : String) : Err := ⟨.lifecycle, message⟩

/-- Whether `except NodeLifecycleError` catches an exception. -/
def isLifecycle (e : Err) : Bool := e.kind = .lifecycle || e.kind = .cancelled

/-! ## The controller -/

/-- The devices with the capability that is recorded for those deployed. -/
def rehydrate (nodes : Dict String VDNode) (runtimes : Dict String NodeRuntimeState) :
    Dict String VDNode :=
  nodes.map fun name vd =>
    let status := (runtimes.get? name).map (·.hotLinksStatus)
    if status = some .validated then
      { vd with env := vd.env.set WarmLinks.imageStatusEnv "validated" }
    else if status = some .experimental ∨ status = some .experimentalEnabled then
      { vd with env := vd.env.set WarmLinks.imageStatusEnv "experimental" }
    else vd

/-- What a controller starts from: the topology as parsed, and the saved state. -/
def openLab {ρ : Type} (topo : DistributedTopology) (saved : DeploymentState) (remote : Remote ρ)
    (placed : Dict String VDResources) : World ρ where
  topo := { topo with nodes := rehydrate topo.nodes saved.nodeRuntime }
  state := saved
  saved := saved
  remote := remote
  placed := placed

section Pure

variable (topo : DistributedTopology) (st : DeploymentState)

/-- The devices that are deployed, by host. -/
def assignmentsOf (runtimes : List (String × NodeRuntimeState)) : Dict String HostAssignment :=
  topo.allHosts.map fun host infra =>
    { hostName := host
      hostIp := infra.host
      vdNames := (runtimes.filter fun (_, r) => r.host = host).map Prod.fst }

/-- The assignments of `self._runtime_plan()`, with the resources that are recorded. -/
def runtimeAssignments : Dict String HostAssignment :=
  (assignmentsOf topo st.nodeRuntime.items).map fun host a =>
    match st.scheduling.get? host with
    | some s => { a with cpuUsed := s.resourcesUsed.cpu, ramMbUsed := s.resourcesUsed.ramMb }
    | none => a

/-- A plan that only says where the devices are. -/
def assignedPlan (assignments : Dict String HostAssignment) : SchedulePlan where
  labName := topo.name
  assignments := assignments

/-- `self._runtime_plan()`. -/
def runtimePlan : SchedulePlan := assignedPlan topo (runtimeAssignments topo st)

/-- `self._underlay_ips()`. -/
def underlayIps : Dict String String :=
  (topo.allHosts.map fun _ infra => infra.host).update
    (st.scheduling.items.map fun (host, s) => (host, s.host))

/-- `self._running_nodes()`. -/
def runningNodes : List String :=
  (st.nodeRuntime.items.filter fun (_, r) => r.state = .running ∨ r.state = .reconciling).map
    Prod.fst

/-- What the scheduling is after `self._update_scheduling(plan, underlay)`. -/
def updatedScheduling (plan : SchedulePlan) (underlay : Dict String String) :
    Dict String HostScheduleState :=
  plan.assignments.items.foldl (fun d (host, a) =>
    if a.vdNames = [] then d.erase host
    else d.set host
      { host := underlay.getD host a.hostIp
        topologyFile := ""
        vd := a.vdNames
        resourcesUsed := ⟨a.cpuUsed, a.ramMbUsed⟩ }) st.scheduling

/-- The names of a device and of its container in the name server. -/
def dnsEntries : List (String × String) :=
  st.nodeRuntime.values.flatMap fun r =>
    if r.mgmtIpv4 = "" then [] else [(r.container, r.mgmtIpv4), (r.node, r.mgmtIpv4)]

/-- The containers by device, for the jump host. -/
def vdMap : Dict String String :=
  .ofList (st.nodeRuntime.values.map fun r => (r.node, r.container))

/-- The relay of each container, for the jump host. -/
def relayMap : Dict String (String × ℕ × String) :=
  .ofList (st.runtimeRelays.values.flatMap fun r =>
    r.allowed.map fun container => (container, r.bindIp, r.port, r.apiKey))

/-- The links that a plan and a topology ask for. -/
def desiredLinks (plan : SchedulePlan) (nodes : List String) :
    Except Err (List RuntimeLinkState) := do
  let built ← RuntimeLinks.buildRuntimeLinks topo plan
  pure (built ++ RuntimeLinks.pendingRuntimeLinks topo nodes)

end Pure

section Controller

variable {ρ : Type} (S : Services ρ)

/-- `self._cancelled()`. -/
def cancelled : Ctl ρ Bool := remotely (Remote.pollCancelled S.backend)

/-- `self._check_cancelled()`. -/
def checkCancelled : Ctl ρ Unit := do
  if ← cancelled S then .raise ⟨.cancelled, "Node start cancelled"⟩ else pure ()

/-- `self._set_phase(runtime, phase)` for the device `node`. -/
def setPhase (node : String) (phase : NodePhase) : Ctl ρ Unit := do
  modifyRuntime node fun r => { r with state := phase }
  save

/-- `create_clients(self.topo.all_hosts)`. -/
def createClients : Ctl ρ Clients := do
  let t ← topo
  pure t.allHosts

/-- `self._connect(clients)`. -/
def connect (clients : Clients) : Ctl ρ Unit :=
  .forEach clients.keys fun host => do
    let _ ← remotely (clients.runNoCheck S.backend host .connect)
    pure ()

/-- `self._runtime(node)`. -/
def runtimeOf (node : String) : Ctl ρ NodeRuntimeState := do
  let st ← state
  match st.nodeRuntime.get? node with
  | some runtime => pure runtime
  | none => .raise (lifecycleError ("Unknown runtime VD '" ++ node ++ "'"))

/-- `self._ensure_deployed()`. -/
def ensureDeployed : Ctl ρ Unit := do
  let w ← .get
  if w.state.dnlabDeployed then pure ()
  else .raise (lifecycleError ("Lab '" ++ w.topo.name ++ "' infrastructure is not deployed"))

/-- `self._ensure_hot_add_supported()`. -/
def ensureHotAddSupported : Ctl ρ Unit := do
  let st ← state
  if st.runtimeMode = "per-vd" then pure ()
  else .raise (lifecycleError ("Live node addition requires a per-VD runtime deployment; " ++
    "stop and redeploy this legacy lab first"))

/-- `self._ensure_per_vd_runtime(runtime)`. -/
def ensurePerVdRuntime (runtime : NodeRuntimeState) : Ctl ρ Unit := do
  let t ← topo
  if Text.startsWith runtime.container ("clab-dnlab-" ++ t.name ++ "-") then pure ()
  else .raise (lifecycleError ("Single-VD start/stop requires a per-VD runtime deployment. Node '" ++
    runtime.node ++ "' is part of a legacy per-host Containerlab topology."))

/-- `self._set_default_route(client, container)`. -/
def setDefaultRoute (clients : Clients) (host container : String) : Ctl ρ Unit := do
  let t ← topo
  (do
    let _ ← remotely (clients.runNoCheck S.backend host (.defaultRoute container t.mgmt.ipv4Gw))
    pure ()).when (t.mgmt.ipv4Gw ≠ "")

/-- The polls of `self._wait_container_running`, of which the deadline allows `n`. -/
def pollContainer (clients : Clients) (host container : String) : (n : ℕ) → Ctl ρ Unit
  | 0 => .raise (lifecycleError ("Timeout waiting for " ++ container ++ " to run"))
  | n + 1 => do
    checkCancelled S
    let r ← remotely (clients.runNoCheck S.backend host (.containerStatus container))
    let status := Text.stripSpaces r.out
    if r.rc = 0 ∧ status = "running" then pure ()
    else if r.rc = 0 ∧ (status = "exited" ∨ status = "dead") then
      .raise (lifecycleError ("Container " ++ container ++ " is " ++ status))
    else do
      checkCancelled S
      pollContainer clients host container n

/-- `self._wait_container_running(client, container, timeout)`. -/
def waitContainerRunning (clients : Clients) (host container : String) : Ctl ρ Unit := do
  let n ← remotely (Remote.patience S.backend)
  pollContainer S clients host container n

/-- `client.destroy_clab(topology_file)`. -/
def destroyClab (clients : Clients) (host topologyFile : String) : Ctl ρ Unit := do
  let _ ← remotely (clients.run S.backend host (.clabDestroy topologyFile .shell) false)
  pure ()

/-- `runtime_links_svc.delete_node_links(node, self.state.runtime_links, clients)`. -/
def deleteNodeLinks (clients : Clients) (node : String) : Ctl ρ Unit :=
  onLinks (RuntimeLinks.deleteNodeLinks S.backend clients node)

/-- `runtime_links_svc.reconcile_node_links` on the links of the state. -/
def reconcileNodeLinks (clients : Clients) (node : String) (underlay : Dict String String)
    (running : List String) : Ctl ρ Unit :=
  onLinks fun links =>
    RuntimeLinks.reconcileNodeLinks S.backend clients node links underlay running

/-! ## Links -/

/-- `scheduler.classify_links(self.topo, …, allow_unscheduled=True)`: the attachments to real
    networks are placed in the topology itself. -/
def placeLinks (assignments : Dict String HostAssignment) : Ctl ρ SchedulePlan := do
  let t ← topo
  let (t', plan) ← .ofExcept (Scheduler.classifyLinks t (assignedPlan t assignments) true)
  modifyTopo fun _ => t'
  pure plan

/-- Whether a device that is deployed can take a link at `iface` while it runs. -/
def validateWarmPort (runtime : NodeRuntimeState) (node iface : String) : Except Err Unit :=
  if runtime.hotLinksStatus = .unsupported ∨ runtime.hotLinksStatus = .missing then
    .error (lifecycleError ("node '" ++ node ++ "' image is not enabled for hot links"))
  else if WarmLinks.ifaceIndex iface = 0 then
    .error (lifecycleError ("node '" ++ node ++ "' hot-link interface must use ethN naming"))
  else if WarmLinks.ifaceIndex iface > runtime.warmPorts then
    .error (lifecycleError ("node '" ++ node ++ "' only has " ++ toString runtime.warmPorts ++
      " warm ports; restart the node with a larger DNLAB_WARM_PORTS value"))
  else .ok ()

/-- Whether the host has an interface of the name that a cold end is to have. -/
def hostHasEndpoint (clients : Clients) (s : RuntimeLinks.Side) : Ctl ρ Bool :=
  if s.warm ∨ s.host = "" ∨ s.hostEndpoint = "" ∨ (clients.get? s.host).isNone then pure false
  else do
    let r ← remotely (clients.runNoCheck S.backend s.host (.linkShow s.hostEndpoint))
    pure (r.rc == 0)

/-- The checks of one end of a new link: its interface is there, or its device has a port for it. -/
def validateSide (clients : Clients) (s : RuntimeLinks.Side) : Ctl ρ Unit :=
  match s.endpoint.node.filter (· ≠ "") with
  | none => pure ()
  | some node => do
    let st ← state
    match st.nodeRuntime.get? node with
    | none => .raise (lifecycleError ("link endpoint '" ++ node ++ "' is not running"))
    | some runtime => do
      if ← hostHasEndpoint S clients s then pure ()
      else .ofExcept (validateWarmPort runtime node (s.endpoint.iface.getD ""))

/-- `self._validate_new_hot_link(link, clients)`. -/
def validateNewHotLink (clients : Clients) (link : RuntimeLinkState) : Ctl ρ Unit := do
  validateSide S clients (RuntimeLinks.sideA link)
  validateSide S clients (RuntimeLinks.sideB link)

/-- `self._mark_link_validation(link, clients)`, with the link as it is marked. -/
def markLinkValidation (clients : Clients) (link : RuntimeLinkState) : Ctl ρ RuntimeLinkState := do
  match ← (validateNewHotLink S clients link).attempt with
  | .ok () =>
    if link.validationError then
      pure { link with state := .down, lastError := "", validationError := false }
    else pure link
  | .error e =>
    if isLifecycle e then
      pure { link with state := .error, lastError := e.message, validationError := true }
    else .raise e

/-- Put a changed link back where it is: `byKey` finds the last one with its key. -/
def putBack (link : RuntimeLinkState) : List RuntimeLinkState → List RuntimeLinkState
  | [] => []
  | l :: ls =>
    if canonicalKey l = canonicalKey link ∧ ∀ m ∈ ls, canonicalKey m ≠ canonicalKey link then
      link :: ls
    else l :: putBack link ls

/-- Delete a link that is no longer desired. -/
def dropLink (clients : Clients) (link : RuntimeLinkState) : Ctl ρ Unit :=
  onLinks fun links => do
    let (link', err) ← RuntimeLinks.deleteLink S.backend clients link
    pure (putBack link' links, err)

/-- Whether a refresh validates a link: it is new, of another type than before, or invalid. -/
def needsValidation (old : Dict LinkKey RuntimeLinkState) (link : RuntimeLinkState) : Bool :=
  link.linkType ≠ .pending &&
    (((old.get? (canonicalKey link)).all fun previous => previous.linkType ≠ link.linkType) ||
      link.validationError)

/-- `self._refresh_runtime_links(clients)`. -/
def refreshRuntimeLinks (clients : Clients) : Ctl ρ Unit := do
  let w ← .get
  let deployed := w.state.nodeRuntime.items.filter fun (name, _) => w.topo.nodes.contains name
  let plan ← placeLinks (assignmentsOf w.topo deployed)
  let t ← topo
  let desired ← .ofExcept (desiredLinks t plan w.state.nodeRuntime.keys)
  let old := byKey w.state.runtimeLinks
  let rebuilt := mergeRuntimeLinks desired w.state.runtimeLinks
  let newKeys := rebuilt.map canonicalKey
  .forEach (old.items.filter fun (key, _) => key ∉ newKeys) fun (_, link) =>
    dropLink S clients link
  let links ← .mapEach rebuilt fun link =>
    if needsValidation old link then markLinkValidation S clients link else pure link
  modifyState fun st => { st with runtimeLinks := links }

/-- The links of a device are not up while it is stopped. -/
def markStopped (node : String) (clearError : Bool) (link : RuntimeLinkState) : RuntimeLinkState :=
  if node ∈ RuntimeLinks.nodesInLink link then
    { link with state := .partly, lastError := if clearError then "" else link.lastError }
  else link

/-! ## Shared services -/

/-- The key of the relays: that of the first one, or a new one. -/
def relayKey : Ctl ρ String := do
  let st ← state
  match st.runtimeRelays.values with
  | relay :: _ => pure relay.apiKey
  | [] => outside S.generateApiKey

/-- Refresh the name server, if there is one. -/
def refreshDns : Ctl ρ Unit := do
  let w ← .get
  match w.state.dns with
  | none => pure ()
  | some dns => do
    let count ← outside (S.refreshDns w.topo.name (dnsEntries w.state))
    modifyState fun st => { st with dns := some { dns with entries := count } }

/-- Refresh the jump host, if there is one. -/
def refreshJumphost : Ctl ρ Unit := do
  let w ← .get
  (outside (S.refreshJumphostInventory w.topo.name (vdMap w.state) (relayMap w.state))).when
    w.state.jumphost.isSome

/-- `self._reconcile_shared_services(plan, clients, underlay_ips)`. -/
def reconcileSharedServices (plan : SchedulePlan) (underlay : Dict String String) : Ctl ρ Unit := do
  let apiKey ← relayKey S
  let w ← .get
  let relays ← outside
    (S.reconcileRuntimeRelays w.topo plan underlay apiKey w.state.runtimeRelays)
  modifyState fun st => { st with runtimeRelays := relays }
  refreshDns S
  refreshJumphost S

/-- The shared services of the devices that are deployed. -/
def refreshSharedServices : Ctl ρ Unit := do
  let w ← .get
  reconcileSharedServices S (runtimePlan w.topo w.state) (underlayIps w.topo w.state)

/-! ## Stop and start -/

/-- The phase that a device is stopped in. -/
def stopPhase (force : Bool) (phase : NodePhase) : NodePhase :=
  if force ∧ (phase = .queued ∨ phase = .starting ∨ phase = .reconciling ∨ phase = .cancelling) then
    .cancelling
  else .stopping

/-- Remember that an operation on a device failed. -/
def recordFailure (node : String) (e : Err) : Ctl ρ Unit := do
  modifyRuntime node fun r => { r with state := .error, lastError := e.message }
  save
  .raise e

/-- Take a device and its links down, by force the device first. -/
def takeDown (clients : Clients) (node : String) (runtime : NodeRuntimeState) (force : Bool) :
    Ctl ρ Unit :=
  if force then do
    destroyClab S clients runtime.host runtime.topologyFile
    deleteNodeLinks S clients node
  else do
    deleteNodeLinks S clients node
    destroyClab S clients runtime.host runtime.topologyFile

/-- The steps of a stop. -/
def stopSteps (clients : Clients) (node : String) (runtime : NodeRuntimeState) (force : Bool) :
    Ctl ρ Unit := do
  connect S clients
  setPhase node (stopPhase force runtime.state)
  takeDown S clients node runtime force
  modifyRuntime node fun r => { r with state := .stopped, lastError := "" }
  modifyState fun st => { st with runtimeLinks := st.runtimeLinks.map (markStopped node false) }
  syncVxlanState
  save

/-- Stop a device that is deployed. -/
def stopRuntime (node : String) (runtime : NodeRuntimeState) (force : Bool) : Ctl ρ Unit := do
  ensureDeployed
  ensurePerVdRuntime runtime
  (do
    let clients ← createClients
    (stopSteps S clients node runtime force).rescue (recordFailure node)).when
      (runtime.state ≠ NodePhase.stopped)

/-- `stop(node, force=force)`. -/
def stop (node : String) (force : Bool) : Ctl ρ Unit := do
  let w ← .get
  match w.state.nodeRuntime.get? node with
  | some runtime => stopRuntime S node runtime force
  | none =>
    if force ∧ w.topo.nodes.contains node then pure ()
    else .raise (lifecycleError ("Unknown runtime VD '" ++ node ++ "'"))

/-- `self._cancel_started_node(node, runtime, clients)`: best-effort cleanup. -/
def cancelStartedNode (clients : Clients) (node : String) : Ctl ρ Unit := do
  setPhase node .cancelling
  let runtime ← runtimeOf node
  (destroyClab S clients runtime.host runtime.topologyFile).quietly.when
    ((clients.get? runtime.host).isSome ∧ runtime.topologyFile ≠ "")
  (deleteNodeLinks S clients node).quietly
  modifyRuntime node fun r => { r with state := .stopped, lastError := "" }
  (refreshRuntimeLinks S clients).quietly
  modifyState fun st => { st with runtimeLinks := st.runtimeLinks.map (markStopped node true) }
  syncVxlanState
  (refreshSharedServices S).quietly
  save

/-- Deploy the container of a device again and wait until it runs. -/
def bootRuntime (clients : Clients) (node : String) (runtime : NodeRuntimeState) : Ctl ρ Unit := do
  connect S clients
  checkCancelled S
  setPhase node .starting
  let _ ← remotely
    (clients.run S.backend runtime.host (.clabDeploy runtime.topologyFile false) true)
  checkCancelled S
  waitContainerRunning S clients runtime.host runtime.container
  checkCancelled S
  setDefaultRoute S clients runtime.host runtime.container
  setPhase node .reconciling
  let startedAt ← remotely (Remote.now S.backend)
  modifyRuntime node fun r => { r with startedAt := startedAt, lastError := "" }

/-- The steps of a start. -/
def startSteps (clients : Clients) (node : String) (runtime : NodeRuntimeState) : Ctl ρ Unit := do
  bootRuntime S clients node runtime
  let st ← state
  let running := runningNodes st
  refreshRuntimeLinks S clients
  checkCancelled S
  let w ← .get
  reconcileNodeLinks S clients node (underlayIps w.topo w.state) running
  checkCancelled S
  syncVxlanState
  setPhase node .running

/-- What `start` does about an exception of its steps. -/
def handleStart (clients : Clients) (node : String) (e : Err) : Ctl ρ Unit :=
  if e.kind = .cancelled then cancelStartedNode S clients node
  else do
    if ← cancelled S then cancelStartedNode S clients node else recordFailure node e

/-- Start a device that is deployed. -/
def startRuntime (node : String) : Ctl ρ Unit := do
  let runtime ← runtimeOf node
  ensureDeployed
  ensurePerVdRuntime runtime
  (do
    let clients ← createClients
    (startSteps S clients node runtime).rescue (handleStart S clients node)).when
      (runtime.state ≠ NodePhase.running)

/-! ## Add -/

/-- `self._resolve_underlay_ips(clients)`. -/
def resolveUnderlayIps (clients : Clients) : Ctl ρ (Dict String String) := do
  let t ← topo
  let values ← Prog.mapEach clients.keys fun host => do
    let r ← remotely (clients.runNoCheck S.backend host (.underlayAddr t.underlayIface .shell))
    let ip := Text.stripSpaces r.out
    if r.rc ≠ 0 ∨ ip = "" then
      .raise (lifecycleError ("[" ++ host ++ "] cannot resolve IPv4 for underlay interface '" ++
        t.underlayIface ++ "': rc=" ++ toString r.rc ++ " err='" ++ r.err ++ "'"))
    else pure (host, ip)
  pure (.ofList values)

/-- A host that a new device may be put on. -/
structure Candidate where
  isMaster : Bool
  running : ℕ
  ram : ℕ
  host : String

/-- `(is_master, running_count, -ram, host)` of `c` is less than that of `d`. -/
def Candidate.lt (c d : Candidate) : Bool :=
  if c.isMaster ≠ d.isMaster then d.isMaster
  else if c.running ≠ d.running then c.running < d.running
  else if c.ram ≠ d.ram then c.ram > d.ram
  else !decide (d.host.toList ≤ c.host.toList)

/-- `min(candidates)`. -/
def bestCandidate : List Candidate → Option Candidate
  | [] => none
  | c :: cs => some (cs.foldl (fun best d => if d.lt best then d else best) c)

/-- Whether a host has the image of a device and the resources it needs. -/
def candidateOn (clients : Clients) (image : String) (requirement : VDResources) (host : String)
    (capacity : HostResources) : Ctl ρ (Option Candidate) := do
  let r ← remotely (clients.runNoCheck S.backend host (.imageId image))
  let st ← state
  if r.rc ≠ 0 then pure none
  else if capacity.cpuAvailable < requirement.cpu ∨ capacity.ramMbAvailable < requirement.ramMb then
    pure none
  else
    pure (some
      { isMaster := capacity.isMaster
        running := st.nodeRuntime.values.countP (·.host = host)
        ram := capacity.ramMbAvailable
        host := host })

/-- `self._select_add_host(node, clients)`. -/
def selectAddHost (clients : Clients) (node : String) : Ctl ρ (String × VDResources) := do
  let t ← topo
  let vd ← .ofExcept (WarmLinks.nodeOf t node)
  let requirement ← outside (S.extractResources t vd)
  let available ← remotely (Scheduler.gatherHostResources S.backend clients)
  let candidates ← Prog.mapEach available.items fun (host, capacity) =>
    candidateOn S clients vd.image requirement host capacity
  match bestCandidate (candidates.filterMap id) with
  | some c => pure (c.host, requirement)
  | none => .raise (lifecycleError ("No host has image '" ++ vd.image ++
      "' and enough resources for '" ++ node ++ "'"))

/-- `self._plan_with_added_node(node, host, requirement)`. -/
def planWithAddedNode (node host : String) (requirement : VDResources) : Ctl ρ SchedulePlan := do
  let w ← .get
  let assignments := runtimeAssignments w.topo w.state
  match assignments.get? host with
  | none => .raise (Clients.missing host)
  | some _ =>
    placeLinks (assignments.modify host fun a =>
      Scheduler.HostAssignment.add a node requirement.cpu requirement.ramMb)

/-- `self._ensure_mgmt_anchor(host, plan, clients)`: whether the anchor was created. -/
def ensureMgmtAnchor (clients : Clients) (host : String) (plan : SchedulePlan) : Ctl ρ Bool := do
  let w ← .get
  if w.state.mgmtAnchors.contains host then pure false
  else if ((plan.assignments.get? host).all fun a => a.vdNames = []) then
    .raise (lifecycleError ("Cannot generate management anchor for newly active host '" ++ host ++
      "'"))
  else do
    let path := Naming.mgmtAnchorTopologyFile w.topo.name host
    let content := S.mgmtAnchorTopology w.topo host
    let _ ← remotely (clients.run S.backend host (.upload path (.text content)) true)
    let _ ← remotely (clients.run S.backend host (.clabDeploy path true) true)
    modifyState fun st =>
      { st with
        mgmtAnchors := st.mgmtAnchors.set host
          { host := host
            container := Naming.mgmtAnchorContainerName w.topo.name host
            topologyFile := path
            state := "running" } }
    save
    pure true

/-- The ports of the wishlist of a device, with those in use so far. -/
def allocatePorts (cfg : WebUIPortsCfg) (previous : Dict ℕ ℕ) :
    (existing : List ℕ) → List WebUISpec → Ctl ρ (List WebUIAllocation)
  | _, [] => pure []
  | existing, spec :: specs =>
    if spec.containerPort ≤ 0 then allocatePorts cfg previous existing specs
    else do
      let containerPort := spec.containerPort.toNat
      let hostPort ← outside (S.allocateWebuiPort cfg existing (previous.get? containerPort))
      let allocated ← allocatePorts cfg previous (hostPort :: existing) specs
      pure ({ containerPort := containerPort
              hostPort := hostPort
              bindIp := cfg.bindIp
              proto := "tcp" } :: allocated)

/-- `self._allocate_node_webui(node, clients)`. -/
def allocateNodeWebui (node : String) : Ctl ρ Unit := do
  let w ← .get
  let wishlist := w.topo.webuiWishlist.getD node []
  let existing := w.state.webuiAllocations.values.flatten.map (·.hostPort)
  let previous := Dict.ofList ((w.state.webuiAllocations.getD node []).map fun a =>
    (a.containerPort, a.hostPort))
  let allocated ← allocatePorts S w.topo.webuiPorts previous existing wishlist
  (modifyState fun st => { st with webuiAllocations := st.webuiAllocations.set node allocated }).when
    (allocated ≠ [])

/-- The local variables of `add` that its handlers read. -/
structure AddLocals where
  host : String := ""
  createdMgmtAnchor : Bool := false
  remotePath : String := ""
  /-- Whether `runtime` is set; the state then has it. -/
  registered : Bool := false
  /-- Whether the state has new links. Until then its list of links and the copy that `add` made of
      it share their links. -/
  relinked : Bool := false

/-- A program of the body of `add`. -/
abbrev AddProg (ρ α : Type) := Prog (World ρ × AddLocals) Err α

/-- Choose a host for a device: the host, what the device needs, and the addresses of the hosts. -/
def choosePlace (clients : Clients) (node : String) :
    Ctl ρ (String × VDResources × Dict String String) := do
  connect S clients
  checkCancelled S
  let underlay ← resolveUnderlayIps S clients
  let (host, requirement) ← selectAddHost S clients node
  pure (host, requirement, underlay)

/-- The plan with a device on a host. -/
def planPlace (clients : Clients) (node host : String) (requirement : VDResources) :
    Ctl ρ SchedulePlan := do
  checkCancelled S
  let t ← topo
  let vd ← .ofExcept (WarmLinks.nodeOf t node)
  let env ← remotely (WarmLinks.inspectImageOnHost S.backend S.parseLabels clients host vd)
  modifyTopo fun t => { t with nodes := t.nodes.modify node fun vd => { vd with env := env } }
  planWithAddedNode node host requirement

/-- The topology of a device under a plan. -/
def nodeFile (host node : String) (files : Dict String (Dict String ClabDict)) :
    Except Err ClabDict :=
  match files.get? host with
  | none => .error (Clients.missing host)
  | some clabs =>
    match clabs.get? node with
    | none => .error (Clients.missing node)
    | some clab => .ok clab

/-- What is recorded of a device that is to be deployed. -/
def newRuntime (topo : DistributedTopology) (node host path : String) :
    Except Err NodeRuntimeState := do
  let vd ← WarmLinks.nodeOf topo node
  let warmPorts ← WarmLinks.capacityForNode topo node
  pure
    { node := node
      state := .starting
      host := host
      container := Naming.microVdContainerName topo.name node
      topologyFile := path
      kind := vd.kind
      image := vd.image
      mgmtIpv4 := vd.mgmtIpv4
      warmPorts := warmPorts
      hotLinksStatus := WarmLinks.statusForNode vd }

/-- The state with a device that is to be deployed, its reservations and its place. -/
def withNode (st : DeploymentState) (node : String) (runtime : NodeRuntimeState)
    (reservations : Dict String String) (plan : SchedulePlan) (underlay : Dict String String) :
    DeploymentState :=
  { st with
    nodeRuntime := st.nodeRuntime.set node runtime
    mgmtIpReservations := reservations
    scheduling := updatedScheduling st plan underlay }

@[simp] theorem withNode_nodeRuntime {st : DeploymentState} {node : String}
    {runtime : NodeRuntimeState} {reservations : Dict String String} {plan : SchedulePlan}
    {underlay : Dict String String} :
    (withNode st node runtime reservations plan underlay).nodeRuntime =
      st.nodeRuntime.set node runtime := rfl

@[simp] theorem withNode_scheduling {st : DeploymentState} {node : String}
    {runtime : NodeRuntimeState} {reservations : Dict String String} {plan : SchedulePlan}
    {underlay : Dict String String} :
    (withNode st node runtime reservations plan underlay).scheduling =
      updatedScheduling st plan underlay := rfl

/-- Record a device that is to be deployed. -/
def registerNode (node : String) (runtime : NodeRuntimeState)
    (reservations : Dict String String) (plan : SchedulePlan) (underlay : Dict String String)
    (requirement : VDResources) : Ctl ρ Unit := do
  .modify fun w =>
    { w with
      state := withNode w.state node runtime reservations plan underlay
      placed := w.placed.set node requirement }
  setPhase node .starting

/-- The directory of a path. -/
def parentDir (path : String) : String :=
  Text.removeEnd path ("/" ++ Text.afterLast '/' path)

/-- Upload a text to a path whose directory is made. -/
def uploadIn (clients : Clients) (host path content : String) : Ctl ρ Unit := do
  let _ ← remotely (clients.run S.backend host (.mkdir (parentDir path)) true)
  let _ ← remotely (clients.run S.backend host (.upload path (.text content)) true)
  pure ()

/-- Upload what a device mounts. -/
def uploadAssets (clients : Clients) (host node : String) : Ctl ρ Unit := do
  let t ← topo
  let vd ← .ofExcept (WarmLinks.nodeOf t node)
  (do
    let dir := Generator.persistDirForNode t.name node vd.persistId t.persistenceRoot
    let _ ← remotely (clients.run S.backend host (.mkdir dir) true)
    pure ()).when (Generator.needsPersistBind vd.image)
  .forEach (S.renderNodeFeatureFiles t node).items fun (path, content) =>
    uploadIn S clients host path content
  .forEach (S.renderNodeAsset (t.nodeOverrides.getD node ∅)).toList fun asset =>
    uploadIn S clients host (Generator.nodeAssetPath t.name node "vswitch.xml") asset

/-- Deploy the container of a device and wait until it runs. -/
def deployNode (clients : Clients) (host node path : String) (content : ClabDict) :
    Ctl ρ Unit := do
  checkCancelled S
  uploadAssets S clients host node
  let _ ← remotely (clients.run S.backend host (.upload path (.clab content)) true)
  checkCancelled S
  let _ ← remotely (clients.run S.backend host (.clabDeploy path false) true)
  checkCancelled S
  let t ← topo
  let container := Naming.microVdContainerName t.name node
  waitContainerRunning S clients host container
  checkCancelled S
  setDefaultRoute S clients host container
  let startedAt ← remotely (Remote.now S.backend)
  modifyRuntime node fun r => { r with startedAt := startedAt, lastError := "" }
  setPhase node .reconciling

/-- Whether `add` validates a link: it continues one that is invalid, or it is a new one of the
    device. -/
def addNeedsValidation (old : Dict LinkKey RuntimeLinkState) (node : String)
    (link : RuntimeLinkState) : Bool :=
  if (old.get? (canonicalKey link)).any fun previous => previous.linkType = link.linkType then
    link.validationError
  else node ∈ RuntimeLinks.nodesInLink link

/-- The links with a device added. -/
def rebuildLinks (clients : Clients) (node : String) (plan : SchedulePlan) :
    Ctl ρ (List RuntimeLinkState) := do
  let w ← .get
  let old := byKey w.state.runtimeLinks
  let desired ← .ofExcept (desiredLinks w.topo plan w.state.nodeRuntime.keys)
  let rebuilt := mergeRuntimeLinks desired w.state.runtimeLinks
  .mapEach rebuilt fun link =>
    if addNeedsValidation old node link then markLinkValidation S clients link else pure link

/-- Bring up the links of a device, and make it known to the shared services. -/
def activateNode (clients : Clients) (node : String) (plan : SchedulePlan)
    (underlay : Dict String String) : Ctl ρ Unit := do
  checkCancelled S
  let st ← state
  reconcileNodeLinks S clients node underlay (runningNodes st)
  checkCancelled S
  syncVxlanState
  reconcileSharedServices S plan underlay
  checkCancelled S
  setPhase node .running

/-- The body of `add`. -/
def addSteps (clients : Clients) (node : String) (reservations : Dict String String) :
    AddProg ρ Unit := do
  let (host, requirement, underlay) ← (choosePlace S clients node).lift
  .setLocals fun l => { l with host := host }
  let plan ← (planPlace S clients node host requirement).lift
  let created ← (ensureMgmtAnchor S clients host plan).lift
  .setLocals fun l => { l with createdMgmtAnchor := created }
  (allocateNodeWebui S node).lift
  let w ← Prog.lift .get
  let files ← .ofExcept
    (Generator.generateMicroTopologyFiles w.topo plan w.state.webuiAllocations)
  let path := Naming.microTopologyFile w.topo.name node host
  .setLocals fun l => { l with remotePath := path }
  let content ← .ofExcept (nodeFile host node files)
  let runtime ← .ofExcept (newRuntime w.topo node host path)
  (registerNode node runtime reservations plan underlay requirement).lift
  .setLocals fun l => { l with registered := true }
  (deployNode S clients host node path content).lift
  let links ← (rebuildLinks S clients node plan).lift
  (modifyState fun st => { st with runtimeLinks := links }).lift
  .setLocals fun l => { l with relinked := true }
  (activateNode S clients node plan underlay).lift

/-- Destroy the anchor that was created for a device. -/
def dropAnchor (clients : Clients) (host : String) : Ctl ρ Unit := do
  let st ← state
  modifyState fun st => { st with mgmtAnchors := st.mgmtAnchors.erase host }
  match st.mgmtAnchors.get? host with
  | none => pure ()
  | some anchor => do
    let _ ← remotely
      (clients.runNoCheck S.backend host (.clabDestroy anchor.topologyFile .shell))
    pure ()

/-- What is restored of the state before a device was added. The copy of the list of links shares
    its links with the state until that has new ones. -/
def restore (before : DeploymentState) (l : AddLocals) (st : DeploymentState) : DeploymentState :=
  { st with
    runtimeLinks := if l.relinked then before.runtimeLinks else st.runtimeLinks
    mgmtIpReservations := before.mgmtIpReservations
    scheduling := before.scheduling
    webuiAllocations := before.webuiAllocations }

/-- Take the links and the record of a device back. -/
def unregisterNode (clients : Clients) (node : String) : Ctl ρ Unit := do
  deleteNodeLinks S clients node
  modifyState fun st => { st with nodeRuntime := st.nodeRuntime.erase node }

/-- Destroy the container that was deployed for a device. -/
def dropContainer (clients : Clients) (l : AddLocals) : Ctl ρ Unit := do
  let _ ← remotely (clients.runNoCheck S.backend l.host (.clabDestroy l.remotePath .single))
  pure ()

/-- Take back a device that could not be added; `before` is the state before it was. -/
def rollbackAdd (clients : Clients) (node : String) (before : DeploymentState) (l : AddLocals)
    (e : Err) : Ctl ρ Unit := do
  (unregisterNode S clients node).when l.registered
  modifyState (restore before l)
  syncVxlanState
  (dropContainer S clients l).when (l.remotePath ≠ "" ∧ l.host ≠ "")
  (dropAnchor S clients l.host).when (l.createdMgmtAnchor ∧ l.host ≠ "")
  (refreshSharedServices S).quietly
  save
  .raise (lifecycleError ("Failed to add node '" ++ node ++ "': " ++ e.message))

/-- What `add` does about an exception of its body. -/
def handleAdd (clients : Clients) (node : String) (before : DeploymentState) (e : Err)
    (l : AddLocals) : Ctl ρ Unit :=
  if e.kind = .cancelled then (cancelStartedNode S clients node).when l.registered
  else do
    if (← cancelled S) ∧ l.registered then cancelStartedNode S clients node
    else rollbackAdd S clients node before l e

/-- Deploy a device that is in the topology and not deployed yet. -/
def addNew (node : String) : Ctl ρ Unit := do
  let w ← .get
  let (addresses, reservations) ← .ofExcept
    (S.assignStickyMgmtIpv4 w.topo.nodes w.topo.mgmt w.state.mgmtIpReservations)
  modifyTopo fun t =>
    { t with
      nodes := t.nodes.map fun name vd => { vd with mgmtIpv4 := addresses.getD name vd.mgmtIpv4 } }
  let clients ← createClients
  (addSteps S clients node reservations).withLocals {}
    (handleAdd S clients node w.state)

/-- `add(node)`. -/
def add (node : String) : Ctl ρ Unit := do
  checkCancelled S
  ensureDeployed
  ensureHotAddSupported
  let w ← .get
  if w.state.nodeRuntime.contains node then do
    checkCancelled S
    startRuntime S node
  else if w.topo.nodes.contains node then addNew S node
  else .raise (lifecycleError ("Unknown topology VD '" ++ node ++ "'"))

/-- `start(node)`. -/
def start (node : String) : Ctl ρ Unit := do
  checkCancelled S
  let st ← state
  if st.nodeRuntime.contains node then startRuntime S node else add S node

/-- `restart(node)`. -/
def restart (node : String) : Ctl ρ Unit := do
  stop S node false
  start S node

/-! ## Remove and reconcile -/

/-- A host's record without a device; a host without devices has none. -/
def unschedule (scheduling : Dict String HostScheduleState) (node host : String) :
    Dict String HostScheduleState :=
  match scheduling.get? host with
  | none => scheduling
  | some s =>
    let vd := s.vd.filter (· ≠ node)
    if vd = [] then scheduling.erase host else scheduling.set host { s with vd := vd }

/-- What the state forgets of a device that is removed. -/
def forget (st : DeploymentState) (node host : String) : DeploymentState :=
  { st with
    runtimeLinks := st.runtimeLinks.filter fun l => node ∉ RuntimeLinks.nodesInLink l
    nodeRuntime := st.nodeRuntime.erase node
    webuiAllocations := st.webuiAllocations.erase node
    scheduling := unschedule st.scheduling node host }

/-- `remove(node)`. -/
def remove (node : String) : Ctl ρ Unit := do
  let runtime ← runtimeOf node
  ensureDeployed
  ensurePerVdRuntime runtime
  (stop S node true).when (runtime.state ≠ NodePhase.stopped)
  let clients ← createClients
  connect S clients
  modifyState fun st => forget st node runtime.host
  syncVxlanState
  let st ← state
  (dropAnchor S clients runtime.host).when
    (¬st.nodeRuntime.values.any fun r => r.host = runtime.host)
  refreshSharedServices S
  save

/-- Create the links of a device, or all. -/
def reconcileLinks (clients : Clients) (node : Option String) (underlay : Dict String String)
    (running : List String) : Ctl ρ Unit :=
  match node with
  | some node => do
    let runtime ← runtimeOf node
    ensurePerVdRuntime runtime
    reconcileNodeLinks S clients node underlay running
  | none => onLinks fun links =>
    RuntimeLinks.reconcileAllLinks S.backend clients links underlay running false

/-- `reconcile(node)`. -/
def reconcile (node : Option String) : Ctl ρ Unit := do
  ensureDeployed
  let clients ← createClients
  connect S clients
  refreshRuntimeLinks S clients
  let w ← .get
  reconcileLinks S clients (node.filter (· ≠ "")) (underlayIps w.topo w.state)
    (runningNodes w.state)
  syncVxlanState
  refreshSharedServices S
  save

/-- The end of a link that `reconcile_link` is asked for: that of a device, or a real network. -/
def wantedEnd (nodeB ifaceB realNet : String) : Endpoint :=
  if nodeB = "" then .net realNet else .vd nodeB ifaceB

/-- Create the first link with a key. -/
def createFirst (clients : Clients) (underlay : Dict String String) (running : List String)
    (wanted : LinkKey) :
    List RuntimeLinkState → Prog (Remote ρ) Err (List RuntimeLinkState × Option Err)
  | [] => pure ([], none)
  | link :: rest => do
    if canonicalKey link ≠ wanted then do
      let (rest', err) ← createFirst clients underlay running wanted rest
      pure (link :: rest', err)
    else if link.validationError ∨ link.linkType = .pending then pure (link :: rest, none)
    else do
      -- The exception is not raised again: the link shows it.
      let (link', _) ← RuntimeLinks.createLink S.backend clients underlay running false link
      pure (link' :: rest, none)

/-- `reconcile_link(node_a, iface_a, node_b, iface_b, real_net)`. -/
def reconcileLink (nodeA ifaceA nodeB ifaceB realNet : String) : Ctl ρ Unit := do
  ensureDeployed
  let clients ← createClients
  connect S clients
  refreshRuntimeLinks S clients
  let wanted := RuntimeLinks.endpointKey (.vd nodeA ifaceA) (wantedEnd nodeB ifaceB realNet)
  let w ← .get
  (Prog.raise (lifecycleError "Desired link not found in topology")).when
    (wanted ∉ w.state.runtimeLinks.map canonicalKey)
  onLinks (createFirst S clients (underlayIps w.topo w.state) (runningNodes w.state) wanted)
  syncVxlanState
  save

end Controller

/-! ## Runs -/

/-- The operations. -/
inductive Op
  | start (node : String)
  | stop (node : String) (force : Bool)
  | restart (node : String)
  | add (node : String)
  | remove (node : String)
  | reconcile (node : Option String)
  | reconcileLink (nodeA ifaceA nodeB ifaceB realNet : String)

/-- What an operation does. -/
def Op.prog {ρ : Type} (S : Services ρ) : Op → Ctl ρ Unit
  | start node => Node.start S node
  | stop node force => Node.stop S node force
  | restart node => Node.restart S node
  | add node => Node.add S node
  | remove node => Node.remove S node
  | reconcile node => Node.reconcile S node
  | reconcileLink nodeA ifaceA nodeB ifaceB realNet =>
    Node.reconcileLink S nodeA ifaceA nodeB ifaceB realNet

/-- What remains of a lab between two operations. -/
structure Lab (ρ : Type) where
  saved : DeploymentState
  remote : Remote ρ
  placed : Dict String VDResources

/-- What remains of a world. -/
def labOf {ρ : Type} (w : World ρ) : Lab ρ := ⟨w.saved, w.remote, w.placed⟩

/-- An operation on a lab, under the topology as it is then: how it ends, and what remains. -/
def Lab.perform {ρ : Type} (S : Services ρ) (topo : DistributedTopology) (op : Op) (lab : Lab ρ) :
    Except Err Unit × Lab ρ :=
  let (r, w) := (op.prog S).run (openLab topo lab.saved lab.remote lab.placed)
  (r, labOf w)

/-- One step of a run: the topology is edited, and an operation performed, where `P` holds of the
    two and of the lab before. -/
def Step {ρ : Type} (S : Services ρ) (P : DistributedTopology → Op → Lab ρ → Prop)
    (lab lab' : Lab ρ) : Prop :=
  ∃ topo op, topo.name = lab.saved.labName ∧ P topo op lab ∧ (lab.perform S topo op).2 = lab'

/-- The runs whose steps all satisfy `P`. -/
def Runs {ρ : Type} (S : Services ρ) (P : DistributedTopology → Op → Lab ρ → Prop) :
    Lab ρ → Lab ρ → Prop :=
  Relation.ReflTransGen (Step S P)

/-- What every step keeps holds after every run. -/
theorem Runs.invariant {ρ : Type} {S : Services ρ} {P : DistributedTopology → Op → Lab ρ → Prop}
    {I : Lab ρ → Prop} (hstep : ∀ topo op lab, topo.name = lab.saved.labName → P topo op lab →
      I lab → I (lab.perform S topo op).2) {lab lab' : Lab ρ} (h : Runs S P lab lab')
    (hI : I lab) : I lab' := by
  induction h with
  | refl => exact hI
  | tail _ hs ih =>
    obtain ⟨topo, op, hname, hP, rfl⟩ := hs
    exact hstep topo op _ hname hP ih

end Dnlab.Node
