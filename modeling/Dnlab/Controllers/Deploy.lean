import Dnlab.Controllers.Node

/-!
# The deployment of a lab

After `controllers/plan.py` and `controllers/deploy.py`: a schedule is computed
for the whole topology, and the phases of the deployment follow each other,
each on all hosts. A deployment that fails takes back the phases that it
recorded, and saves nothing.

The hosts work in parallel in some phases. What happens on one host does not
depend on the others, so they are run one after the other here, in the order in
which they finish; a failure is noticed when its host is reached, after all
have finished.
-/

namespace Dnlab.Deploy

open Ctl
open Node (uploadIn parentDir)

/-- What a deployment calls besides, of which only the effect on the hosts is known. -/
structure DeployServices (ρ : Type) extends Services ρ where
  /-- The order in which hosts that work in parallel finish. -/
  completed : ρ → List String → List String
  completed_perm : ∀ r hosts, (completed r hosts).Perm hosts
  /-- `check_images_on_hosts`, with the exception for images that are missing. -/
  checkImagesOnHosts : DistributedTopology → ρ → Except Err Unit × ρ
  /-- `persistence.load_placement_preferences`, if the overlays are sticky. -/
  loadPlacementPreferences : DistributedTopology → ρ → Except Err (Dict String String) × ρ
  /-- `netsetup.setup_mgmt_infra` on one host. -/
  setupMgmtInfra : DistributedTopology → SchedulePlan → (underlay : Dict String String) →
    (host : String) → ρ → Except Err Unit × ρ
  /-- `netsetup.setup_dhcp` on the master. -/
  setupDhcp : DistributedTopology → ρ → Except Err Unit × ρ
  /-- `netsetup.teardown_mgmt_infra` on one host. -/
  teardownMgmtInfra : (labName bridge host : String) → ρ → Except Err Unit × ρ
  /-- The real networks: `setup_bridges` and what is around it. -/
  deployRealnets : DistributedTopology → (underlay : Dict String String) → ρ →
    Except Err (List RealNetState) × ρ
  /-- `realnet.destroy_realnets`. -/
  destroyRealnets : (labName : String) → List RealNetState → ρ → Except Err Unit × ρ
  /-- `persistence.prepare_persistence`. -/
  preparePersistence : DistributedTopology → SchedulePlan → ρ → Except Err Unit × ρ
  /-- `persistence.save_placement_history`. -/
  savePlacementHistory : DistributedTopology → SchedulePlan → ρ → Except Err Unit × ρ
  /-- `runtime_relay.deploy_runtime_relays`. -/
  deployRuntimeRelays : DistributedTopology → SchedulePlan → (underlay : Dict String String) →
    (apiKey : String) → ρ → Except Err (Dict String RuntimeRelayState) × ρ
  /-- `runtime_relay.destroy_runtime_relays`. -/
  destroyRuntimeRelays : (labName : String) → ρ → Except Err Unit × ρ
  /-- `dns.deploy_dns`: what is recorded of it. -/
  deployDns : DistributedTopology → (entries : List (String × String)) → ρ → Except Err DnsState × ρ
  /-- `dns.destroy_dns`. -/
  destroyDns : (labName : String) → ρ → Except Err Unit × ρ
  /-- The address of the jump host in the management network. -/
  jumphostMgmtIp : MgmtConfig → Except Err String
  /-- `jumphost.collect_authorized_pubkeys`. -/
  collectAuthorizedPubkeys : ρ → Except Err String × ρ
  /-- `jumphost.deploy_jumphost`: what is recorded of it. -/
  deployJumphost : DistributedTopology → JumphostState → (vds authorizedKeys : String) →
    (relayMap : Dict String (String × ℕ × String)) → ρ → Except Err JumphostState × ρ
  /-- `trust_jumphost_hostkey` and `add_master_hosts_entry`. -/
  announceJumphost : (labName : String) → JumphostState → ρ → Except Err Unit × ρ
  /-- `jumphost.destroy_jumphost`. -/
  destroyJumphost : (labName : String) → ρ → Except Err Unit × ρ
  /-- `vxlan.verify_tunnels`. -/
  verifyTunnels : List CrossHostLink → ρ → Except Err Unit × ρ

/-- `DeployError`. -/
def deployError (message : String) : Err := ⟨.deploy, message⟩

section Controller

variable {ρ : Type} (S : DeployServices ρ)

/-! ## Planning -/

/-- `extract_resources`: what the devices need, by name. -/
def extractResources : Ctl ρ (Dict String VDResources) := do
  let t ← topo
  let resources ← Prog.mapEach t.nodes.items fun (name, vd) => do
    let r ← outside (S.extractResources t vd)
    let r : VDResources := { r with name := name }
    pure (name, r)
  pure (.ofList resources)

/-- `PlanController.run()`, after the topology is parsed: the plan, what the devices need, and the
    reservations of addresses. -/
def makePlan (previous : Option DeploymentState) :
    Ctl ρ (SchedulePlan × Dict String VDResources × Dict String String) := do
  let t ← topo
  let (addresses, reservations) ← .ofExcept (S.assignStickyMgmtIpv4 t.nodes t.mgmt
    ((previous.map (·.mgmtIpReservations)).getD ∅))
  modifyTopo fun t =>
    { t with
      nodes := t.nodes.map fun name vd => { vd with mgmtIpv4 := addresses.getD name vd.mgmtIpv4 } }
  let resources ← extractResources S
  let clients ← Node.createClients
  Node.connect S.toServices clients
  let t ← topo
  outside (S.checkImagesOnHosts t)
  let hosts ← remotely (Scheduler.gatherHostResources S.backend clients)
  let preferences ← outside (S.loadPlacementPreferences t)
  let (t', plan) ← .ofExcept (Scheduler.computeSchedule t resources hosts preferences)
  modifyTopo fun _ => t'
  pure (plan, resources, reservations)

/-- The state that a deployment starts from. -/
def initialState (topo : DistributedTopology) (plan : SchedulePlan)
    (reservations : Dict String String) (topologyFile deployedAt : String) : DeploymentState where
  labName := topo.name
  topologyFile := topologyFile
  deployedAt := deployedAt
  vrfTableId := plan.vrfTableId
  runtimeMode := "per-vd"
  mgmtIpReservations := reservations

/-! ## Phases -/

/-- `self._state.phases_completed.append(phase)`. -/
def completePhase (phase : String) : Ctl ρ Unit :=
  modifyState fun st => { st with phasesCompleted := st.phasesCompleted ++ [phase] }

/-- Work on the hosts in parallel, and note how it ended on each, in the order in which they
    finish. -/
def inParallel {α : Type} (hosts : List String) (work : String → Ctl ρ α) :
    Ctl ρ (List (String × Except Err α)) := do
  let w ← .get
  .mapEach (S.completed w.remote.env hosts) fun host => do
    let r ← (work host).attempt
    pure (host, r)

/-- The environment of a device, with the capabilities of its image on the host it is to run on. -/
def imageEnv (clients : Clients) (plan : SchedulePlan) (name : String) (vd : VDNode) :
    Ctl ρ (Dict String String) :=
  let host := (plan.hostForVd name).getD ""
  if host = "" ∨ (clients.get? host).isNone then
    pure (vd.env.set WarmLinks.imageStatusEnv "missing")
  else remotely (WarmLinks.inspectImageOnHost S.backend S.parseLabels clients host vd)

/-- `self._inspect_image_capabilities`, for one device. -/
def inspectImage (clients : Clients) (plan : SchedulePlan) (name : String) (vd : VDNode) :
    Ctl ρ Unit :=
  (do
    let env ← imageEnv S clients plan name vd
    modifyTopo fun t => { t with nodes := t.nodes.modify name fun vd => { vd with env := env } }).when
      (WarmLinks.profileForNode vd).isSome

/-- `self._resolve_underlay_ips`. -/
def resolveUnderlayIps (clients : Clients) : Ctl ρ (Dict String String) := do
  let t ← topo
  let values ← Prog.mapEach clients.keys fun host => do
    let r ← remotely (clients.runNoCheck S.backend host (.underlayAddr t.underlayIface .bare))
    let ip := Text.stripSpaces r.out
    if r.rc ≠ 0 ∨ ip = "" then
      .raise (deployError ("[" ++ host ++ "] Could not read IPv4 address of underlay interface '" ++
        t.underlayIface ++ "': rc=" ++ toString r.rc ++ " out='" ++ r.out ++ "' err='" ++ r.err ++
        "'"))
    else pure (host, ip)
  pure (.ofList values)

/-- The exception for the first host that failed. -/
def raiseMgmtFailure (results : List (String × Except Err Unit)) : Ctl ρ Unit :=
  .forEach results fun (host, r) =>
    match r with
    | .ok () => pure ()
    | .error e => .raise (deployError ("[" ++ host ++ "] Mgmt setup failed: " ++ e.message))

/-- `self._deploy_mgmt`. -/
def deployMgmt (clients : Clients) (plan : SchedulePlan) (underlay : Dict String String) :
    Ctl ρ Unit := do
  let t ← topo
  let results ← inParallel S clients.keys fun host => outside (S.setupMgmtInfra t plan underlay host)
  raiseMgmtFailure results
  (outside (S.setupDhcp t)).when (t.nodes.values.any fun vd => vd.mgmtIpv4 = "")
  modifyState fun st =>
    { st with
      mgmt := some
        { subnet := t.mgmt.ipv4Subnet
          gateway := t.mgmt.ipv4Gw
          bridge := t.mgmt.bridge
          vrf := Naming.vrfName t.name
          vxlanId := plan.mgmtVxlanId
          vxlanIface := Naming.mgmtVxlanIface t.name } }
  completePhase "mgmt"

/-- The ports of the devices with a wishlist, where the ports `used` are taken. -/
def allocateAll (cfg : WebUIPortsCfg) (previous : Dict String (List WebUIAllocation)) :
    (used : List ℕ) → List (String × List WebUISpec) → Ctl ρ (List (String × List WebUIAllocation))
  | _, [] => pure []
  | used, (node, wishlist) :: rest => do
    let hints := Dict.ofList ((previous.getD node []).map fun a => (a.containerPort, a.hostPort))
    let allocated ← Node.allocatePorts S.toServices cfg hints used wishlist
    let others ← allocateAll cfg previous (allocated.map (·.hostPort) ++ used) rest
    pure (if allocated = [] then others else (node, allocated) :: others)

/-- The ports of the deployment before. -/
def previousPorts (previous : Option DeploymentState) : Dict String (List WebUIAllocation) :=
  (previous.map (·.webuiAllocations)).getD ∅

/-- `self._allocate_webui_ports`. -/
def allocateWebuiPorts (previous : Option DeploymentState) : Ctl ρ Unit := do
  let t ← topo
  (do
    let allocated ← allocateAll S t.webuiPorts (previousPorts previous) [] t.webuiWishlist.items
    modifyState fun st => { st with webuiAllocations := .ofList allocated }
    completePhase "webui-ports").when (t.webuiWishlist.items ≠ [])

/-- `self._deploy_realnets`. -/
def deployRealnets (underlay : Dict String String) : Ctl ρ Unit := do
  let t ← topo
  (do
    let states ← outside (S.deployRealnets t underlay)
    modifyState fun st => { st with realnets := states }
    completePhase "realnet").when (t.realNets.items ≠ [])

/-- Deploy the management anchor of one host. -/
def deployMgmtAnchor (clients : Clients) (host : String) : Ctl ρ Unit := do
  let t ← topo
  let path := Naming.mgmtAnchorTopologyFile t.name host
  let _ ← remotely
    (clients.run S.backend host (.upload path (.text (S.mgmtAnchorTopology t host))) true)
  (do
    let _ ← remotely (clients.run S.backend host (.clabDeploy path true) true)
    pure ()).rescue fun e => .raise (deployError ("[" ++ host ++
      "] management anchor deploy failed (" ++ path ++ "): " ++ e.message))
  modifyState fun st =>
    { st with
      mgmtAnchors := st.mgmtAnchors.set host
        { host := host
          container := Naming.mgmtAnchorContainerName t.name host
          topologyFile := path
          state := "running" } }

/-- The hosts that devices are assigned to. -/
def activeHosts (plan : SchedulePlan) : List String :=
  (plan.assignments.items.filter fun (_, a) => a.vdNames ≠ []).map Prod.fst

/-- `self._deploy_mgmt_anchors`: the phase is recorded before the first one is deployed. -/
def deployMgmtAnchors (clients : Clients) (plan : SchedulePlan) : Ctl ρ Unit :=
  (do
    completePhase "mgmt_anchor"
    .forEach (activeHosts plan) fun host => deployMgmtAnchor S clients host).when
      (activeHosts plan ≠ [])

/-- The directories that the devices of a host need. -/
def persistDirs (topo : DistributedTopology) (vdNames : List String) : Except Err (List String) := do
  let overlays ← vdNames.mapM fun name => do
    let vd ← WarmLinks.nodeOf topo name
    pure (if Generator.needsPersistBind vd.image then
      [Generator.persistDirForNode topo.name name vd.persistId topo.persistenceRoot] else [])
  let features := vdNames.flatMap fun name =>
    (S.renderNodeFeatureFiles topo name).keys.map parentDir
  pure (overlays.flatten ++ features)

/-- Make the directories of a host, all with one command. -/
def makeDirs (clients : Clients) (host : String) (vdNames : List String) : Ctl ρ Unit := do
  let t ← topo
  let dirs ← .ofExcept (persistDirs S t vdNames)
  let sorted := dirs.dedup.insertionSort fun a b => a.toList ≤ b.toList
  (do
    let _ ← remotely (clients.run S.backend host (.mkdir (Text.join "' '" sorted)) true)
    pure ()).when (dirs ≠ [])

/-- `self._runtime_assets_for_host(topo, vd_names)`: texts by path. -/
def runtimeAssets (topo : DistributedTopology) (vdNames : List String) : Dict String String :=
  .ofList (vdNames.flatMap fun name =>
    ((S.renderNodeAsset (topo.nodeOverrides.getD name ∅)).map fun content =>
      (Generator.nodeAssetPath topo.name name "vswitch.xml", content)).toList ++
    (S.renderNodeFeatureFiles topo name).items)

/-- Deploy the container of one device. -/
def deployVd (clients : Clients) (host name : String) (content : ClabDict) :
    Ctl ρ NodeRuntimeState := do
  let t ← topo
  let path := Naming.microTopologyFile t.name name host
  let _ ← remotely (clients.run S.backend host (.upload path (.clab content)) true)
  (do
    let _ ← remotely (clients.run S.backend host (.clabDeploy path false) true)
    pure ()).rescue fun e => .raise (deployError ("[" ++ host ++
      "] containerlab deploy failed for " ++ name ++ " (" ++ path ++ "): " ++ e.message))
  .ofExcept (Node.newRuntime t name host path)

/-- Deploy the containers of one host, one after the other. -/
def deployHost (clients : Clients) (files : Dict String (Dict String ClabDict)) (host : String) :
    Ctl ρ (List NodeRuntimeState) :=
  .mapEach (files.getD host ∅).items fun (name, content) => deployVd S clients host name content

/-- Record the devices of the hosts, up to the first one that failed. -/
def recordHosts (results : List (String × Except Err (List NodeRuntimeState))) : Ctl ρ Unit :=
  .forEach results fun (host, r) =>
    match r with
    | .ok runtimes => modifyState fun st =>
      { st with nodeRuntime := st.nodeRuntime.update (runtimes.map fun r => (r.node, r)) }
    | .error e =>
      .raise (deployError ("[" ++ host ++ "] containerlab deploy failed: " ++ e.message))

/-- What is recorded of a host that devices are assigned to. -/
def scheduleHost (underlay : Dict String String) (host : String) (a : HostAssignment) :
    Except Err (String × HostScheduleState) :=
  match underlay.get? host with
  | none => .error (Clients.missing host)
  | some ip => .ok (host,
      { host := ip
        topologyFile := ""
        vd := a.vdNames
        resourcesUsed := ⟨a.cpuUsed, a.ramMbUsed⟩ })

/-- `self._deploy_clab`. -/
def deployClab (clients : Clients) (plan : SchedulePlan) (underlay : Dict String String) :
    Ctl ρ Unit := do
  let w ← .get
  let files ← .ofExcept
    (Generator.generateMicroTopologyFiles w.topo plan w.state.webuiAllocations)
  .forEach plan.assignments.items fun (host, a) => makeDirs S clients host a.vdNames
  .forEach plan.assignments.items fun (host, a) =>
    .forEach (runtimeAssets S w.topo a.vdNames).items fun (path, content) =>
      uploadIn S.toServices clients host path content
  let active := (files.items.filter fun (_, clabs) => clabs.items ≠ []).map Prod.fst
  let results ← inParallel S active fun host => deployHost S clients files host
  recordHosts results
  let entries ← .ofExcept
    ((plan.assignments.items.filter fun (_, a) => a.vdNames ≠ []).mapM fun (host, a) =>
      scheduleHost underlay host a)
  modifyState fun st => { st with scheduling := st.scheduling.update entries }
  completePhase "dnlab"

/-! ## Health -/

/-- `self._query_container_statuses(client, names)`, in the order of the names. -/
def queryContainerStatuses (clients : Clients) (host : String) (containers : List String) :
    Ctl ρ (List String) := do
  let r ← remotely (clients.runNoCheck S.backend host (.containerStatuses containers))
  let out := Text.stripSpaces r.out
  let lines := if r.rc ≠ 0 ∨ out = "" then [] else Text.split '\n' out
  pure (containers.zipIdx.map fun (_, i) => ((lines[i]?).map Text.stripSpaces).getD "missing")

/-- `self._raise_health_failure(client, host_name, failed)`. -/
def raiseHealthFailure (clients : Clients) (host : String) (failed : List (String × String)) :
    Ctl ρ Unit := do
  let t ← topo
  let details ← Prog.mapEach failed fun (name, status) => do
    let container := Naming.microVdContainerName t.name name
    let r ← remotely (clients.runNoCheck S.backend host (.containerLogs container 50))
    let logs := if r.rc = 0 then Text.stripSpaces r.out else "(logs unavailable)"
    pure ("[" ++ host ++ "] " ++ name ++ " (" ++ container ++ "): " ++ status ++ "\n" ++ logs)
  .raise (deployError ("VD container(s) failed on " ++ host ++ ":\n" ++
    Text.join "\n---\n" details))

/-- Poll the devices of one host: whether all of them run. -/
def pollHost (clients : Clients) (host : String) (vdNames : List String) : Ctl ρ Bool := do
  let t ← topo
  let statuses ← queryContainerStatuses S clients host
    (vdNames.map (Naming.microVdContainerName t.name))
  let failed := (vdNames.zip statuses).filter fun (_, s) => s = "exited" ∨ s = "dead"
  (raiseHealthFailure S clients host failed).when (failed ≠ [])
  let settled := statuses.all (· = "running")
  (do
    let startedAt ← remotely (Remote.now S.backend)
    .forEach vdNames fun name =>
      modifyRuntime name fun r => { r with state := .running, startedAt := startedAt }).when settled
  pure settled

/-- What is still missing when the deadline has passed. -/
def pendingDetail (clients : Clients) (host : String) (vdNames : List String) :
    Ctl ρ (List String) := do
  let t ← topo
  let statuses ← queryContainerStatuses S clients host
    (vdNames.map (Naming.microVdContainerName t.name))
  pure (((vdNames.zip statuses).filter fun (_, s) => s ≠ "running").map fun (name, s) =>
    name ++ "@" ++ host ++ "=" ++ s)

/-- The rounds of polls that the deadline allows, over the hosts that are not settled. -/
def pollRounds (clients : Clients) (plan : SchedulePlan) :
    (n : ℕ) → (unsettled : List String) → Ctl ρ Unit
  | 0, unsettled => do
    let details ← Prog.mapEach unsettled fun host =>
      pendingDetail S clients host (((plan.assignments.get? host).map (·.vdNames)).getD [])
    .raise (deployError ("Health-check timeout (60s): containers not running: " ++
      Text.join ", " details.flatten))
  | n + 1, unsettled => do
    let polled ← Prog.mapEach unsettled fun host => do
      let settled ← pollHost S clients host
        (((plan.assignments.get? host).map (·.vdNames)).getD [])
      pure (host, settled)
    let rest := (polled.filter fun (_, settled) => !settled).map Prod.fst
    if rest = [] then pure () else pollRounds clients plan n rest

/-- `self._health_check_vds`. -/
def healthCheckVds (clients : Clients) (plan : SchedulePlan) : Ctl ρ Unit := do
  let n ← remotely (Remote.patience S.backend)
  (pollRounds S clients plan n (activeHosts plan)).when (activeHosts plan ≠ [])

/-! ## Links and shared services -/

/-- Create the links of the dataplane. -/
def createLinks (clients : Clients) (underlay : Dict String String)
    (links : List RuntimeLinkState) : Ctl ρ (List RuntimeLinkState) := do
  let st ← state
  let running := (st.nodeRuntime.items.filter fun (_, r) => r.state = .running).map Prod.fst
  let (links', err) ← remotely
    (RuntimeLinks.reconcileAllLinks S.backend clients links underlay running true)
  match err with
  | some e => .raise e
  | none => pure links'

/-- `self._deploy_runtime_links`. -/
def deployRuntimeLinks (clients : Clients) (plan : SchedulePlan) (underlay : Dict String String) :
    Ctl ρ Unit := do
  let t ← topo
  let links ← .ofExcept (RuntimeLinks.buildRuntimeLinks t plan)
  (do
    let links' ← createLinks S clients underlay links
    modifyState fun st =>
      { st with runtimeLinks := links', vxlanDataplane := vxlanDataplaneOf links' }
    completePhase "runtime_links").when (links ≠ [])

/-- `self._deploy_runtime_relays`. -/
def deployRuntimeRelays (plan : SchedulePlan) (underlay : Dict String String) : Ctl ρ Unit := do
  let t ← topo
  let apiKey ← outside S.generateApiKey
  let relays ← outside (S.deployRuntimeRelays t plan underlay apiKey)
  modifyState fun st => { st with runtimeRelays := st.runtimeRelays.update relays.items }
  completePhase "runtime_relay"

/-- `self._deploy_dns`. -/
def deployDns : Ctl ρ Unit := do
  let w ← .get
  let dns ← outside (S.deployDns w.topo (Node.dnsEntries w.state))
  modifyState fun st => { st with dns := some dns }
  completePhase "dns"

/-- The jump host as recorded before it is deployed. -/
def plannedJumphost (topo : DistributedTopology) (st : DeploymentState) (mgmtIp : String) :
    JumphostState where
  node := "master"
  container := Naming.jumphostContainerName topo.name
  mgmtIp := mgmtIp
  hostIp := ""
  extNetwork := topo.jumphostNetwork
  resolver := (st.dns.map (·.mgmtIp)).getD ""

/-- `self._deploy_jumphost`: the phase is recorded before the jump host is deployed. -/
def deployJumphost (plan : SchedulePlan) : Ctl ρ Unit := do
  let w ← .get
  let mgmtIp ← .ofExcept
    (if w.topo.mgmt.ipv4Gw = "" then S.jumphostMgmtIp w.topo.mgmt else .ok w.topo.mgmt.ipv4Gw)
  let authorizedKeys ← outside S.collectAuthorizedPubkeys
  let planned := plannedJumphost w.topo w.state mgmtIp
  modifyState fun st => { st with jumphost := some planned }
  completePhase "jumphost"
  let vds := plan.assignments.values.flatMap (·.vdNames)
  let deployed ← outside (S.deployJumphost w.topo planned (Text.join " " vds) authorizedKeys
    (Node.relayMap w.state))
  modifyState fun st => { st with jumphost := some deployed }
  outside (S.announceJumphost w.topo.name deployed)

/-- `self._set_vd_default_routes`. -/
def setVdDefaultRoutes (clients : Clients) : Ctl ρ Unit := do
  let w ← .get
  let running := w.state.nodeRuntime.values.filter fun r =>
    r.state = .running ∧ (clients.get? r.host).isSome
  (Prog.forEach running fun r => do
    let _ ← remotely
      (clients.runNoCheck S.backend r.host (.defaultRoute r.container w.topo.mgmt.ipv4Gw))
    pure ()).when (w.topo.mgmt.ipv4Gw ≠ "")

/-- `self._verify`. -/
def verify (plan : SchedulePlan) : Ctl ρ Unit := do
  (outside (S.verifyTunnels plan.crossHostLinks)).when (plan.crossHostLinks ≠ [])
  completePhase "verify"

/-! ## Rollback -/

/-- `containerlab destroy` for a topology file, if it and its host are known. -/
def destroyFile (clients : Clients) (host topologyFile : String) : Ctl ρ Unit :=
  (do
    let _ ← remotely (clients.run S.backend host (.clabDestroy topologyFile .bare) false)
    pure ()).when ((clients.get? host).isSome ∧ topologyFile ≠ "")

/-- Delete a link, whose record is not needed any more. -/
def deleteLink (clients : Clients) (link : RuntimeLinkState) : Ctl ρ Unit := do
  let (_, err) ← remotely (RuntimeLinks.deleteLink S.backend clients link)
  match err with
  | some e => .raise e
  | none => pure ()

/-- Take back the management network. -/
def rollbackMgmt (clients : Clients) : Ctl ρ Unit := do
  let t ← topo
  .forEach clients.keys fun host => do
    let _ ← remotely (clients.run S.backend host (.networkRemove t.mgmt.network) false)
    pure ()
  .forEach clients.keys fun host => outside (S.teardownMgmtInfra t.name t.mgmt.bridge host)

/-- Take back one phase. -/
def rollbackPhase (clients : Clients) (phase : String) : Ctl ρ Unit := do
  let w ← .get
  if phase = "jumphost" then outside (S.destroyJumphost w.topo.name)
  else if phase = "dns" then outside (S.destroyDns w.topo.name)
  else if phase = "runtime_relay" then outside (S.destroyRuntimeRelays w.topo.name)
  else if phase = "runtime_links" then .forEach w.state.runtimeLinks (deleteLink S clients)
  else if phase = "realnet" then outside (S.destroyRealnets w.topo.name w.state.realnets)
  else if phase = "dnlab" then
    .forEach w.state.nodeRuntime.values fun r => destroyFile S clients r.host r.topologyFile
  else if phase = "mgmt_anchor" then
    .forEach w.state.mgmtAnchors.values fun a => destroyFile S clients a.host a.topologyFile
  else if phase = "mgmt" then rollbackMgmt S clients
  else pure ()

/-- `self._rollback(topo)`: the phases in reverse order, each whether or not one before failed. -/
def rollback (clients : Clients) : Ctl ρ Unit := do
  let st ← state
  .forEach st.phasesCompleted.reverse fun phase => (rollbackPhase S clients phase).quietly

/-! ## The deployment -/

/-- The phases, and the state saved. -/
def deployPhases (clients : Clients) (plan : SchedulePlan) (previous : Option DeploymentState)
    (resources : Dict String VDResources) : Ctl ρ Unit := do
  Node.connect S.toServices clients
  let t ← topo
  .forEach t.nodes.items fun (name, vd) => inspectImage S clients plan name vd
  let underlay ← resolveUnderlayIps S clients
  deployMgmt S clients plan underlay
  allocateWebuiPorts S previous
  deployRealnets S underlay
  let t ← topo
  outside (S.preparePersistence t plan)
  completePhase "persistence"
  deployMgmtAnchors S clients plan
  deployClab S clients plan underlay
  healthCheckVds S clients plan
  deployRuntimeLinks S clients plan underlay
  deployRuntimeRelays S plan underlay
  deployDns S
  deployJumphost S plan
  setVdDefaultRoutes S clients
  verify S plan
  .modify fun w => { w with saved := w.state, placed := resources }
  outside (S.savePlacementHistory t plan)

/-- `DeployController.run()`. -/
def run (topologyFile : String) (previous : Option DeploymentState) : Ctl ρ Unit := do
  let (plan, resources, reservations) ← makePlan S previous
  let t ← topo
  let deployedAt ← remotely (Remote.now S.backend)
  modifyState fun _ => initialState t plan reservations topologyFile deployedAt
  let clients ← Node.createClients
  (deployPhases S clients plan previous resources).rescue fun e => do
    rollback S clients
    .raise (deployError ("Deploy fallito: " ++ e.message))

end Controller

/-! ## Runs -/

section Runs

variable {ρ : Type} (S : DeployServices ρ)

/-- The world of a deployment, over what remains of a lab. -/
def openDeploy (topo : DistributedTopology) (lab : Node.Lab ρ) : World ρ where
  topo := topo
  state := lab.saved
  saved := lab.saved
  remote := lab.remote
  placed := lab.placed

/-- The deployment of a topology, with what may remain of a lab of that name: how it ends, and what
    remains then. -/
def deploy (topo : DistributedTopology) (topologyFile : String)
    (previous : Option DeploymentState) (lab : Node.Lab ρ) : Except Err Unit × Node.Lab ρ :=
  let (r, w) := (run S topologyFile previous).run (openDeploy topo lab)
  (r, Node.labOf w)

/-- One step in the life of a lab: an operation on it where `P` holds, or another deployment. -/
def LifeStep (P : DistributedTopology → Node.Op → Node.Lab ρ → Prop) (lab lab' : Node.Lab ρ) :
    Prop :=
  Node.Step S.toServices P lab lab' ∨
    ∃ topo topologyFile previous, (deploy S topo topologyFile previous lab).2 = lab'

/-- The lives of a lab whose operations all satisfy `P`. -/
def Life (P : DistributedTopology → Node.Op → Node.Lab ρ → Prop) :
    Node.Lab ρ → Node.Lab ρ → Prop :=
  Relation.ReflTransGen (LifeStep S P)

/-- What every operation and every deployment keeps holds for life. -/
theorem Life.invariant {P : DistributedTopology → Node.Op → Node.Lab ρ → Prop}
    {I : Node.Lab ρ → Prop} (hop : ∀ topo op lab, topo.name = lab.saved.labName → P topo op lab →
      I lab → I (lab.perform S.toServices topo op).2)
    (hdeploy : ∀ topo topologyFile previous lab, I lab →
      I (deploy S topo topologyFile previous lab).2)
    {lab lab' : Node.Lab ρ} (h : Life S P lab lab') (hI : I lab) : I lab' := by
  induction h with
  | refl => exact hI
  | tail _ hs ih =>
    rcases hs with ⟨topo, op, hname, hP, rfl⟩ | ⟨topo, topologyFile, previous, rfl⟩
    · exact hop topo op _ hname hP ih
    · exact hdeploy topo topologyFile previous _ ih

end Runs

/-! ### Hosts that do as they are told -/

/-- Every command succeeds, and containers run at once. -/
def quietBackend : Backend Unit where
  exec _ cmd r :=
    let out := match cmd with
      | .nproc => "8"
      | .freeRam => "16384"
      | .underlayAddr _ _ => "10.0.0.1"
      | .containerStatus _ => "running"
      | .containerStatuses containers => Text.join "\n" (containers.map fun _ => "running")
      | _ => ""
    (.ok ⟨0, out, ""⟩, r)
  cancelled r := (false, r)
  patience _ := 1
  now _ := "2024-01-01T00:00:00"

/-- Services that do nothing on such hosts. Every device needs one processor and 256 MB, and has the
    address that its topology gives it. -/
def quietServices : DeployServices Unit where
  backend := quietBackend
  parseLabels _ := ∅
  assignStickyMgmtIpv4 nodes _ _ :=
    .ok (nodes.map fun _ vd => vd.mgmtIpv4, nodes.map fun _ vd => vd.mgmtIpv4)
  extractResources _ vd r := (.ok ⟨vd.name, vd.image, 1, 256⟩, r)
  allocateWebuiPort _ _ _ r := (.ok 8443, r)
  mgmtAnchorTopology _ _ := ""
  renderNodeFeatureFiles _ _ := ∅
  renderNodeAsset _ := none
  generateApiKey r := (.ok "key", r)
  reconcileRuntimeRelays _ _ _ _ relays r := (.ok relays, r)
  refreshDns _ entries r := (.ok entries.length, r)
  refreshJumphostInventory _ _ _ r := (.ok (), r)
  completed _ hosts := hosts
  completed_perm _ _ := .refl _
  checkImagesOnHosts _ r := (.ok (), r)
  loadPlacementPreferences _ r := (.ok ∅, r)
  setupMgmtInfra _ _ _ _ r := (.ok (), r)
  setupDhcp _ r := (.ok (), r)
  teardownMgmtInfra _ _ _ r := (.ok (), r)
  deployRealnets _ _ r := (.ok [], r)
  destroyRealnets _ _ r := (.ok (), r)
  preparePersistence _ _ r := (.ok (), r)
  savePlacementHistory _ _ r := (.ok (), r)
  deployRuntimeRelays _ _ _ _ r := (.ok ∅, r)
  destroyRuntimeRelays _ r := (.ok (), r)
  deployDns _ entries r := (.ok ⟨"master", "dns", "", [], "", entries.length⟩, r)
  destroyDns _ r := (.ok (), r)
  jumphostMgmtIp mgmt := .ok mgmt.ipv4Gw
  collectAuthorizedPubkeys r := (.ok "", r)
  deployJumphost _ jumphost _ _ _ r := (.ok jumphost, r)
  announceJumphost _ _ r := (.ok (), r)
  destroyJumphost _ r := (.ok (), r)
  verifyTunnels _ r := (.ok (), r)

end Dnlab.Deploy
