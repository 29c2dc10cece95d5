import Dnlab.Models.State
import Dnlab.Utils.Naming
import Mathlib.Data.List.Sort
import Mathlib.Data.String.Basic

/-!
# Cleaning up stale labs

The planner that removes what labs have left on the hosts, after
`services/lab_cleanup.py`. What is seen on a host is attributed to a lab by its
name (`parseArtifactLab`): to the longest known lab that the name starts with,
or else to the lab that the shape of the name shows. What the saved state of a
lab names is added (`expectedArtifactsFromState`). A lab that runs, has a host
that cannot be reached or something too young is left alone; of any other lab,
nearly everything is removed (`buildCleanupPlan`).
-/

namespace Dnlab.LabCleanup

/-! ## Artifacts -/

/-- The kinds of things that a lab leaves on a host. -/
inductive ArtifactKind
  | container
  | network
  | interface
  | dnsmasq
  deriving DecidableEq

/-- Where an artifact is known from. -/
inductive ArtifactSource
  | live
  | state
  deriving DecidableEq

/-- The metadata of an artifact: a key that is absent is `none`. -/
structure Metadata where
  role : Option String := none
  containers : Option (Option Int) := none
  deriving DecidableEq

/-- Something that a lab has, or had, on a host. -/
structure CleanupArtifact where
  kind : ArtifactKind
  name : String
  host : String
  lab : String
  state : String := ""
  ageSeconds : Option ℕ := none
  shared : Bool := false
  source : ArtifactSource := .live
  metadata : Metadata := {}
  deriving DecidableEq

/-- The containers that run. -/
def dockerStatesRunning : List String := ["running"]

/-- The states of containers that may be removed in any case. -/
def cleanableContainerStates : List String := ["created", "exited", "dead", "removing"]

/-- The networks that labs share. -/
def sharedNetworks : List String := ["dnlab-jumphost", "dnlab-realnet"]

/-! ## The lab in a name -/

/-- `$`. -/
def atEnd (l : List Char) : Bool := l = [] || l = ['\n']

/-- A word followed by what `rest` accepts. -/
def after (word : String) (rest : List Char → Bool) (l : List Char) : Bool :=
  word.toList.isPrefixOf l && rest (l.drop word.toList.length)

/-- `(.+?)` before what `rest` accepts. -/
def lazyGroup (rest : List Char → Bool) : List Char → Option (List Char)
  | [] => none
  | c :: l =>
    if c = '\n' then none
    else if rest l then some [c]
    else (lazyGroup rest l).map (c :: ·)

/-- What `(.+?)` matches in `^word(.+?)rest`. -/
def labBetween (word : String) (rest : List Char → Bool) (name : String) : Option String :=
  if word.toList.isPrefixOf name.toList then
    (lazyGroup rest (name.toList.drop word.toList.length)).map .ofList
  else none

/-- `^clab-dnlab-(?P<lab>.+?)-mgmt-.+-mgmt-anchor$`. -/
def mgmtAnchorRe : String → Option String :=
  labBetween "clab-dnlab-" <| after "-mgmt-" fun l =>
    (lazyGroup (after "-mgmt-anchor" atEnd) l).isSome

/-- `^dnlab-(?P<lab>.+?)-(?:dns|jumphost|runtime-relay|syslog|log-shipper)$`. -/
def serviceContainerRe : String → Option String :=
  labBetween "dnlab-" fun l =>
    ["-dns", "-jumphost", "-runtime-relay", "-syslog", "-log-shipper"].any fun w => after w atEnd l

/-- `^dnlab-(?P<lab>.+?)-[^-]+-realnet$`. -/
def realnetContainerRe : String → Option String :=
  labBetween "dnlab-" <| after "-" fun l =>
    l.takeWhile (· ≠ '-') ≠ [] && after "-realnet" atEnd (l.dropWhile (· ≠ '-'))

/-- `^clab-(?P<lab>.+?)-[^-]+$`. -/
def legacyClabContainerRe : String → Option String :=
  labBetween "clab-" <| after "-" fun l => l ≠ [] && '-' ∉ l

/-- `^(?:vx-|br-|vrf-)(?P<lab>[A-Za-z0-9_.-]+)`, without `-mgmt` at the end. -/
def interfaceLab (name : String) : Option String :=
  ["vx-", "br-", "vrf-"].findSome? fun word =>
    if word.toList.isPrefixOf name.toList then
      match (name.toList.drop word.toList.length).takeWhile
          fun c => Text.isAlnum c || "_.-".toList.contains c with
      | [] => none
      | l => some (Text.removeEnd (.ofList l) "-mgmt")
    else none

/-- Parse `clab-dnlab-<lab>-<vd>-<vd>` without state, by the repetition of the name of the
    device. -/
def parseMicroContainerLab (name : String) : String :=
  let parts := Text.split '-' (Text.removeStart name "clab-dnlab-")
  let repeated (i : ℕ) : Bool :=
    let tail := parts.drop i
    let half := tail.length / 2
    tail.length % 2 = 0 && tail.take half = tail.drop half
  match (List.range' 1 (parts.length - 1)).find? repeated with
  | some i => Text.join "-" (parts.take i)
  | none => ""

/-- A name is one of those of a known lab. -/
def isOfLab (kind : ArtifactKind) (name lab : String) : Bool :=
  (kind = .network && [lab, "mgmt-" ++ lab, Naming.mgmtNetworkName lab].contains name) ||
    ["dnlab-" ++ lab ++ "-", "clab-dnlab-" ++ lab ++ "-", "clab-" ++ lab ++ "-"].any
      (Text.startsWith name)

/-- The known labs, the longest first. -/
def byLength (knownLabs : List String) : List String :=
  knownLabs.insertionSort fun a b => b.toList.length ≤ a.toList.length

/-- The lab that a name shows by its shape. -/
def labByShape (kind : ArtifactKind) (name : String) : String :=
  let micro := if Text.startsWith name "clab-dnlab-" then parseMicroContainerLab name else ""
  if micro ≠ "" then micro
  else
    match [mgmtAnchorRe, serviceContainerRe, realnetContainerRe, legacyClabContainerRe].findSome?
        (· name) with
    | some lab => lab
    | none => if kind = .interface then (interfaceLab name).getD "" else ""

/-- The lab encoded in the name of an artifact, or `""`. The known labs are a set, given in the
    order in which it is iterated. -/
def parseArtifactLab (kind : ArtifactKind) (name : String) (knownLabs : List String) : String :=
  if name ∈ sharedNetworks then ""
  else
    match (byLength knownLabs).find? (isOfLab kind name) with
    | some lab => lab
    | none => labByShape kind name

/-! ## The artifacts of a state -/

/-- The containers and interfaces of a real network. -/
def realnetArtifacts (lab : String) (rn : RealNetState) : List CleanupArtifact :=
  let hosts := if rn.hosts = [] then ["master"] else rn.hosts
  (if rn.bridge = "" then [] else
    hosts.map fun host => ⟨.interface, rn.bridge, host, lab, "", none, false, .state, {}⟩) ++
  (if rn.routerContainer = "" then [] else
    [⟨.container, rn.routerContainer, "master", lab, "", none, false, .state, {}⟩])

/-- The cleanup targets that a state names exactly. -/
def expectedArtifactsFromState (state : DeploymentState) : List CleanupArtifact :=
  let lab := state.labName
  let container (name host : String) (metadata : Metadata) : CleanupArtifact :=
    ⟨.container, name, host, lab, "", none, false, .state, metadata⟩
  let other (kind : ArtifactKind) (name host : String) : CleanupArtifact :=
    ⟨kind, name, host, lab, "", none, false, .state, {}⟩
  (state.nodeRuntime.values.filter fun r => r.host ≠ "" && r.container ≠ "").map
      (fun r => container r.container r.host {}) ++
    (state.dns.map fun d => container d.container d.node {}).toList ++
    (state.jumphost.map fun j => container j.container j.node {}).toList ++
    state.runtimeRelays.items.map (fun (host, relay) => container relay.container host {}) ++
    (state.mgmtAnchors.values.filter fun a => a.host ≠ "" && a.container ≠ "").map
      (fun a => container a.container a.host { role := some "mgmt-anchor" }) ++
    state.realnets.flatMap (realnetArtifacts lab) ++
    (match state.mgmt with
      | none => []
      | some mgmt => state.scheduling.keys.flatMap fun host =>
          [other .interface mgmt.vxlanIface host, other .interface mgmt.bridge host,
            other .interface mgmt.vrf host,
            other .dnsmasq ("/var/run/dnsmasq-" ++ lab ++ ".pid") host]) ++
    state.vxlanDataplane.flatMap fun link =>
      ([link.sideA, link.sideB].filter fun s => s.node ≠ "" && s.iface ≠ "").map fun s =>
        other .interface (Text.first 15 ("vx-" ++ s.iface)) s.node

/-! ## The inventory of a host -/

/-- What is seen on a host: its containers with their state and age, its networks with the number
    of their containers, and its interfaces. A host that fails on the way is not reachable, and
    what was seen before is kept. -/
structure HostListing where
  reachable : Bool
  containers : List (String × String × Option ℕ) := []
  networks : List (String × Option Int) := []
  interfaces : List String := []

/-- What is known of a host. -/
structure HostCleanupInventory where
  name : String
  reachable : Bool := false
  artifacts : List CleanupArtifact := []

/-- The containers of a host that are attributed to a lab. -/
def listContainers (host : String) (knownLabs : List String)
    (containers : List (String × String × Option ℕ)) : List CleanupArtifact :=
  containers.filterMap fun (name, state, age) =>
    let lab := parseArtifactLab .container name knownLabs
    if lab = "" then none else some ⟨.container, name, host, lab, state, age, false, .live, {}⟩

/-- The networks of a host that are attributed to a lab or shared. -/
def listNetworks (host : String) (knownLabs : List String)
    (networks : List (String × Option Int)) : List CleanupArtifact :=
  networks.filterMap fun (name, count) =>
    let shared := decide (name ∈ sharedNetworks)
    let lab := parseArtifactLab .network name knownLabs
    if lab = "" ∧ ¬shared then none
    else some ⟨.network, name, host, lab, "", none, shared, .live, { containers := some count }⟩

/-- The interfaces of a host that are attributed to a lab. -/
def listInterfaces (host : String) (knownLabs : List String) (interfaces : List String) :
    List CleanupArtifact :=
  interfaces.filterMap fun name =>
    let lab := parseArtifactLab .interface name knownLabs
    if lab = "" then none else some ⟨.interface, name, host, lab, "", none, false, .live, {}⟩

/-- The inventories of the hosts. -/
def collectInventory (knownLabs : List String) (listings : Dict String HostListing) :
    Dict String HostCleanupInventory :=
  listings.map fun host l =>
    { name := host
      reachable := l.reachable
      artifacts := listContainers host knownLabs l.containers ++
        listNetworks host knownLabs l.networks ++ listInterfaces host knownLabs l.interfaces }

/-! ## The plan -/

/-- What is planned for an artifact. -/
structure CleanupAction where
  action : String
  artifact : CleanupArtifact
  command : String
  reason : String

/-- The plan of a lab. -/
structure LabCleanupPlan where
  lab : String
  isProtected : Bool := false
  reasons : List String := []
  warnings : List String := []
  actions : List CleanupAction := []

/-- What artifacts are the same by. -/
def artifactKey (a : CleanupArtifact) : ArtifactKind × String × String := (a.kind, a.host, a.name)

/-- `prev.metadata.update(metadata)`. -/
def Metadata.update (prev new : Metadata) : Metadata where
  role := new.role.or prev.role
  containers := new.containers.or prev.containers

/-- What is known of an artifact after it was found again. -/
def mergeArtifact (prev new : CleanupArtifact) : CleanupArtifact :=
  { prev with
    state := Text.orElse new.state prev.state
    ageSeconds := new.ageSeconds.or prev.ageSeconds
    metadata := prev.metadata.update new.metadata
    source := if new.source = .state then .state else prev.source }

/-- Each artifact once. -/
def dedupeArtifacts (artifacts : List CleanupArtifact) : List CleanupArtifact :=
  (artifacts.foldl (fun (merged : Dict (ArtifactKind × String × String) CleanupArtifact) a =>
    match merged.get? (artifactKey a) with
    | none => merged.set (artifactKey a) a
    | some prev => merged.set (artifactKey a) (mergeArtifact prev a)) ∅).values

/-- An artifact is a container of a lab. -/
def isPerLabContainer (a : CleanupArtifact) : Bool := a.kind = .container && a.lab ≠ ""

/-- What to do about an artifact. -/
def actionForArtifact (a : CleanupArtifact) (state : Option DeploymentState) :
    Option CleanupAction :=
  if a.shared then none
  else
    match a.kind with
    | .container =>
      if a.state ≠ "" ∧ a.state ∉ cleanableContainerStates ∧ ¬isPerLabContainer a then none
      else some ⟨"remove-container", a, "docker rm -f " ++ Text.quote a.name,
        "stale dNLab lab container"⟩
    | .network =>
      if a.metadata.containers.join ≠ some 0 then none
      else some ⟨"remove-network", a, "docker network rm " ++ Text.quote a.name,
        "empty per-lab docker network"⟩
    | .interface =>
      if state = none ∧ a.source ≠ .state then none
      else some ⟨"delete-interface", a, "ip link delete " ++ Text.quote a.name,
        "state-derived stale lab interface"⟩
    | .dnsmasq =>
      some ⟨"stop-dnsmasq", a,
        "[ -f " ++ Text.quote a.name ++ " ] && kill $(cat " ++ Text.quote a.name ++
          ") 2>/dev/null; rm -f " ++ Text.quote a.name,
        "stale lab dnsmasq pid"⟩

/-- An artifact is the management anchor of a host. -/
def isMgmtAnchorContainer (a : CleanupArtifact) : Bool :=
  a.kind = .container && (a.metadata.role = some "mgmt-anchor" || (mgmtAnchorRe a.name).isSome)

/-- An artifact is a service of a lab. -/
def isServiceContainer (a : CleanupArtifact) : Bool :=
  a.kind = .container && (serviceContainerRe a.name).isSome

/-- The names that the containers of the devices of a lab may have. -/
def expectedVdContainerNames (lab : String) (state : DeploymentState) : List String :=
  state.nodeRuntime.values.flatMap (fun r =>
      (if r.container = "" then [] else [r.container]) ++
        (if r.node = "" then [] else
          [Naming.vdContainerName lab r.node, Naming.microVdContainerName lab r.node])) ++
    state.scheduling.values.flatMap fun s => s.vd.flatMap fun vd =>
      [Naming.vdContainerName lab vd, Naming.microVdContainerName lab vd]

/-- An artifact is the container of a device of a lab with a saved state. -/
def isVdContainer (a : CleanupArtifact) (expectedNames : List String) : Bool :=
  a.kind = .container && !(isMgmtAnchorContainer a || isServiceContainer a) &&
    expectedNames.contains a.name

/-- A device of a lab runs. Without a saved state nothing of a lab counts as running. -/
def labHasRunningVd (lab : String) (artifacts : List CleanupArtifact)
    (state : Option DeploymentState) : Bool :=
  match state with
  | none => false
  | some state => artifacts.any fun a =>
      dockerStatesRunning.contains a.state && isVdContainer a (expectedVdContainerNames lab state)

/-- The hosts of a lab with a saved state. -/
def expectedHosts (state : DeploymentState) : List String :=
  (state.scheduling.keys ++
    ((expectedArtifactsFromState state).map (·.host)).filter (· ≠ "")).dedup

/-- Why a lab is left alone. -/
def guardReasons (inventories : Dict String HostCleanupInventory) (graceSeconds : ℕ) (lab : String)
    (artifacts : List CleanupArtifact) (state : Option DeploymentState) : List String :=
  let hosts := ((state.map expectedHosts).getD []).insertionSort fun a b => a.toList ≤ b.toList
  (if labHasRunningVd lab artifacts state then ["lab-runtime-running"] else []) ++
    (hosts.filter fun host => !((inventories.get? host).map (·.reachable)).getD false).map
      ("host-unreachable:" ++ ·) ++
    (if artifacts.any fun a => (a.ageSeconds.map fun age => decide (age < graceSeconds)).getD false
      then ["artifact-inside-grace"] else [])

/-- What is left of an artifact that nothing is done about. -/
def warningFor (a : CleanupArtifact) : Option String :=
  if a.shared then some ("shared artifact skipped: " ++ a.name)
  else if a.kind = .network then some ("network skipped: " ++ a.name)
  else if a.kind = .interface ∧ a.source ≠ .state then
    some ("interface skipped without state: " ++ a.name)
  else none

/-- The artifacts of each lab: those seen, then those its state names. -/
def artifactsByLab (inventories : Dict String HostCleanupInventory)
    (states : Dict String DeploymentState) : Dict String (List CleanupArtifact) :=
  let seen := (inventories.values.flatMap (·.artifacts)).filter (·.lab ≠ "")
  let live := seen.foldl (fun d a => d.push a.lab [a]) ∅
  states.items.foldl (fun d p => d.push p.1 (expectedArtifactsFromState p.2)) live

/-- The plan of one lab. -/
def planForLab (inventories : Dict String HostCleanupInventory)
    (states : Dict String DeploymentState) (graceSeconds : ℕ) (lab : String)
    (artifacts : List CleanupArtifact) : LabCleanupPlan :=
  let artifacts := dedupeArtifacts artifacts
  let state := states.get? lab
  let reasons := guardReasons inventories graceSeconds lab artifacts state
  if reasons ≠ [] then { lab := lab, isProtected := true, reasons := reasons }
  else
    { lab := lab
      warnings := (artifacts.filter fun a => (actionForArtifact a state).isNone).filterMap warningFor
      actions := artifacts.filterMap fun a => actionForArtifact a state }

/-- The plans of all labs, by name. -/
def buildCleanupPlan (inventories : Dict String HostCleanupInventory)
    (states : Dict String DeploymentState) (graceSeconds : ℕ) : Dict String LabCleanupPlan :=
  let byLab := artifactsByLab inventories states
  let labs := byLab.keys.insertionSort fun a b => a.toList ≤ b.toList
  .ofList (labs.map fun lab =>
    (lab, planForLab inventories states graceSeconds lab (byLab.getD lab [])))

example : parseArtifactLab .container "clab-dnlab-demo-site-vjunos-node-vjunos-node" [] =
    "demo-site" := by decide
example : parseArtifactLab .container "clab-dnlab-demo-mgmt-worker1-mgmt-anchor" [] = "demo" := by
  decide
example : parseArtifactLab .network "dnlab-jumphost" ["demo"] = "" := by decide

end Dnlab.LabCleanup
