import Dnlab.Lib.Search
import Dnlab.Models.Schedule
import Dnlab.Services.WarmLinks
import Dnlab.Utils.Naming
import Mathlib.Data.Char
import Mathlib.Data.List.Lex
import Mathlib.Data.List.Sort

/-!
# Runtime links

Per-device runtime links, after `services/runtime_links.py`: the links that a
plan asks for (`buildRuntimeLinks`), their merge with the links that are
already there (`mergeRuntimeLinks`), and the commands that create and delete a
link on its hosts.

A function that changes a link in place returns the changed link, and the
exception it raised, if any: the change outlives the exception.
-/

namespace Dnlab.RuntimeLinks

open WarmLinks (nodeOf isEnabled)

/-! ## The links of a plan -/

/-- The host-side name of an endpoint: of its warm port, or else the name that the plan fixed, or
    else one made from the link. -/
def endpointName (topo : DistributedTopology) (node iface linkId fallback : String) :
    Except Err String := do
  let vd ← nodeOf topo node
  if isEnabled vd then pure (Naming.runtimePortEndpoint topo.name node iface)
  else pure (Text.orElse fallback (Naming.runtimeHostEndpoint topo.name node iface linkId))

/-- `warm_links.is_enabled(topo.nodes[node])`. -/
def warmOf (topo : DistributedTopology) (node : String) : Except Err Bool := do
  let vd ← nodeOf topo node
  pure (isEnabled vd)

/-- The runtime link of the `idx`-th link within a host. -/
def localRuntimeLink (topo : DistributedTopology) (plan : SchedulePlan) (idx : ℕ) (link : Link) :
    Except Err RuntimeLinkState := do
  let linkId := "l" ++ toString idx
  let host := (plan.hostForVd link.source).getD ""
  let nameA ← endpointName topo link.source link.sourceIface linkId ""
  let nameB ← endpointName topo link.target link.targetIface linkId ""
  let warmA ← warmOf topo link.source
  let warmB ← warmOf topo link.target
  pure
    { id := linkId
      linkType := .sameHost
      endpointA := .vd link.source link.sourceIface
      endpointB := .vd link.target link.targetIface
      hostA := host
      hostB := host
      hostEndpointA := nameA
      hostEndpointB := nameB
      containerA := Naming.microVdContainerName topo.name link.source
      containerB := Naming.microVdContainerName topo.name link.target
      warmA := warmA
      warmB := warmB }

/-- The runtime link of the `idx`-th link between hosts. -/
def crossRuntimeLink (topo : DistributedTopology) (idx : ℕ) (link : CrossHostLink) :
    Except Err RuntimeLinkState := do
  let linkId := "vx" ++ toString idx
  let nameA ← endpointName topo link.sourceNode link.sourceIface linkId link.sourceHostIface
  let nameB ← endpointName topo link.targetNode link.targetIface linkId link.targetHostIface
  let warmA ← warmOf topo link.sourceNode
  let warmB ← warmOf topo link.targetNode
  pure
    { id := linkId
      linkType := .crossHost
      endpointA := .vd link.sourceNode link.sourceIface
      endpointB := .vd link.targetNode link.targetIface
      hostA := link.sourceHost
      hostB := link.targetHost
      hostEndpointA := nameA
      hostEndpointB := nameB
      containerA := Naming.microVdContainerName topo.name link.sourceNode
      containerB := Naming.microVdContainerName topo.name link.targetNode
      warmA := warmA
      warmB := warmB
      vxlanId := link.vxlanId }

/-- The name of the port of a real network that a link falls back to. -/
def realNetFallback (link : RealNetLink) : String :=
  Text.orElse link.bridgeIface (Naming.realnetBridgeIface link.node link.iface)

/-- The runtime link of the `idx`-th attachment to a real network. -/
def realNetRuntimeLink (topo : DistributedTopology) (idx : ℕ) (link : RealNetLink) :
    Except Err RuntimeLinkState := do
  let linkId := "rn" ++ toString idx
  let name ← endpointName topo link.node link.iface linkId (realNetFallback link)
  let warm ← warmOf topo link.node
  pure
    { id := linkId
      linkType := .realNet
      endpointA := .vd link.node link.iface
      endpointB := .net link.realNet
      hostA := link.host
      hostB := link.host
      hostEndpointA := name
      hostEndpointB := Naming.realnetBridgeName topo.name link.realNet
      containerA := Naming.microVdContainerName topo.name link.node
      warmA := warm }

/-- The runtime links of a plan, all down. -/
def buildRuntimeLinks (topo : DistributedTopology) (plan : SchedulePlan) :
    Except Err (List RuntimeLinkState) := do
  let within ← plan.localLinks.zipIdx.mapM fun (l, i) => localRuntimeLink topo plan i l
  let across ← plan.crossHostLinks.zipIdx.mapM fun (l, i) => crossRuntimeLink topo i l
  let nets ← topo.realNetLinks.zipIdx.mapM fun (l, i) => realNetRuntimeLink topo i l
  pure (within ++ across ++ nets)

/-! ## The merge with the links that are there -/

/-- What the items of an endpoint are compared by. -/
def sortKey (items : List (String × String)) : List (List Char) :=
  items.flatMap fun (k, v) => [k.toList, v.toList]

/-- The identity of a pair of endpoints in any order. -/
abbrev LinkKey := List (String × String) × List (String × String)

/-- `tuple(sorted(tuple(sorted(endpoint.items())) for endpoint in (a, b)))`. -/
def endpointKey (a b : Endpoint) : LinkKey :=
  if sortKey a.items ≤ sortKey b.items then (a.items, b.items) else (b.items, a.items)

/-- Orientation-independent identity of a link. -/
def canonicalKey (link : RuntimeLinkState) : LinkKey := endpointKey link.endpointA link.endpointB

/-- The links by their identity, the last one of each. -/
def byKey (links : List RuntimeLinkState) : Dict LinkKey RuntimeLinkState :=
  .ofList (links.map fun l => (canonicalKey l, l))

/-- What a rebuilt link takes over from the link it continues. -/
def retain (link prior : RuntimeLinkState) : RuntimeLinkState :=
  { link with
    id := prior.id
    vxlanId := prior.vxlanId
    hostEndpointA :=
      if link.endpointA = prior.endpointA then prior.hostEndpointA else prior.hostEndpointB
    hostEndpointB :=
      if link.endpointA = prior.endpointA then prior.hostEndpointB else prior.hostEndpointA
    state := prior.state
    lastError := prior.lastError
    validationError := prior.validationError }

/-- The start of the ids of a type of link. -/
def idPrefix : LinkType → String
  | .sameHost => "l"
  | .crossHost => "vx"
  | .realNet => "rn"
  | .pending => "p"

/-- The `i`-th id of a type of link. -/
def linkIdAt (t : LinkType) (i : ℕ) : String := idPrefix t ++ toString i

/-- The first free id of a type of link. -/
def freshId (t : LinkType) (usedIds : List String) : String :=
  linkIdAt t (Search.firstFree (linkIdAt t) usedIds 0)

/-- The loop of the merge, with the ids and VXLAN ids used so far. -/
def mergeFrom (old : Dict LinkKey RuntimeLinkState) :
    (usedIds : List String) → (usedVxlans : List ℕ) → List RuntimeLinkState →
      List RuntimeLinkState
  | _, _, [] => []
  | usedIds, usedVxlans, link :: rest =>
    match (old.get? (canonicalKey link)).filter fun prior => prior.linkType = link.linkType with
    | some prior => retain link prior :: mergeFrom old usedIds usedVxlans rest
    | none =>
      let id := freshId link.linkType usedIds
      if link.linkType = .crossHost then
        let vxlanId := Search.firstFree (fun i => i) usedVxlans link.vxlanId
        { link with id := id, vxlanId := vxlanId } ::
          mergeFrom old (id :: usedIds) (vxlanId :: usedVxlans) rest
      else { link with id := id } :: mergeFrom old (id :: usedIds) usedVxlans rest

/-- Keep runtime identifiers stable while applying a new desired graph. -/
def mergeRuntimeLinks (rebuilt previous : List RuntimeLinkState) : List RuntimeLinkState :=
  mergeFrom (byKey previous) (previous.map (·.id))
    ((previous.map (·.vxlanId)).filter (· ≠ 0)) rebuilt

/-- `", ".join(sorted(names))`. -/
def sortedNames (names : List String) : String :=
  Text.join ", " (names.insertionSort fun s t => s.toList ≤ t.toList)

/-- A desired link that waits for the devices `missing`. -/
def pendingLink (endpointA endpointB : Endpoint) (missing : List String) : RuntimeLinkState where
  id := ""
  linkType := .pending
  endpointA := endpointA
  endpointB := endpointB
  state := .partly
  lastError := "endpoint not started: " ++ sortedNames missing

/-- Represent desired links whose endpoint has no runtime yet. -/
def pendingRuntimeLinks (topo : DistributedTopology) (scheduledNodes : List String) :
    List RuntimeLinkState :=
  let ofLink (l : Link) : Option RuntimeLinkState :=
    let missing := [l.source, l.target].dedup.filter (· ∉ scheduledNodes)
    if missing = [] then none
    else some (pendingLink (.vd l.source l.sourceIface) (.vd l.target l.targetIface) missing)
  let ofNet (l : RealNetLink) : Option RuntimeLinkState :=
    if l.node ∈ scheduledNodes then none
    else some (pendingLink (.vd l.node l.iface) (.net l.realNet) [l.node])
  topo.links.filterMap ofLink ++ topo.realNetLinks.filterMap ofNet

/-! ## The commands of a link -/

/-- The devices at the ends of a link. -/
def nodesInLink (link : RuntimeLinkState) : List String :=
  ([link.endpointA, link.endpointB].filterMap fun e => e.node.filter (· ≠ "")).dedup

/-- The bridge of a link within a host. -/
def runtimeBridgeName (link : RuntimeLinkState) : String :=
  Text.first 15 ("br-rt-" ++ Naming.shortHash link.id 8)

/-- The name under which the tunnel of a host endpoint is found again. -/
def vxlanAltname (hostEndpoint : String) : String := "vx-" ++ hostEndpoint

/-- One side of a link: its endpoint, host, host-side name and container, and whether it is warm. -/
structure Side where
  endpoint : Endpoint
  host : String
  hostEndpoint : String
  container : String
  warm : Bool

/-- The first side of a link. -/
def sideA (l : RuntimeLinkState) : Side :=
  ⟨l.endpointA, l.hostA, l.hostEndpointA, l.containerA, l.warmA⟩

/-- The second side of a link. -/
def sideB (l : RuntimeLinkState) : Side :=
  ⟨l.endpointB, l.hostB, l.hostEndpointB, l.containerB, l.warmB⟩

section Commands

variable {ρ : Type} (B : Backend ρ) (clients : Clients)

/-- The commands that say that the controller in a device is not up yet. -/
def controllerNotReady (e : Err) : Bool :=
  Text.contains (Text.lower e.message) "no such file or directory" ||
    Text.contains (Text.lower e.message) "connection refused"

/-- Wait out the gap until the controller in a device is up, for `n` repetitions. -/
def runLinkctlWhenReady (host : String) (cmd : Cmd) : (n : ℕ) → Prog (Remote ρ) Err Unit
  | 0 => do
    let _ ← clients.run B host cmd true
    pure ()
  | n + 1 =>
    (do
      let _ ← clients.run B host cmd true
      pure ()).rescue fun e =>
        if controllerNotReady e then runLinkctlWhenReady host cmd n else .raise e

/-- `[A-Za-z0-9_.-]+`. -/
def isSafeContainer (container : String) : Bool :=
  container ≠ "" && container.toList.all fun c => Text.isAlnum c || "_.-".toList.contains c

/-- Set the carrier of the warm port of one side up or down. -/
def setCarrier (up check defer : Bool) (s : Side) : Prog (Remote ρ) Err Unit :=
  let iface := s.endpoint.iface.getD ""
  let state := if up then "up" else "down"
  if !s.warm then pure ()
  else if !isSafeContainer s.container ∨ WarmLinks.ifaceIndex iface = 0 then
    .raise ⟨.value, "unsafe warm-link target " ++ s.container ++ ":" ++ iface⟩
  else if (clients.get? s.host).isNone then
    if check then
      .raise ⟨.runtime, "host client unavailable for warm-link target " ++ s.host⟩
    else pure ()
  else if defer ∧ up then do
    let _ ← clients.run B s.host (.linkctlWhenReady s.container iface) check
    pure ()
  else if !check ∨ !up then do
    let _ ← clients.run B s.host (.linkctl s.container iface state) check
    pure ()
  else do
    let n ← Remote.patience B
    runLinkctlWhenReady B clients s.host (.linkctl s.container iface state) n

/-- Set the carriers of the warm ports of a link up or down. -/
def setLinkCarriers (link : RuntimeLinkState) (up check defer : Bool) :
    Prog (Remote ρ) Err Unit := do
  setCarrier B clients up check defer (sideA link)
  setCarrier B clients up check defer (sideB link)

/-- Remember that the host interface of a side was attached to its link. -/
def noteAttached (s : Side) : Prog (Remote ρ) Err Unit :=
  Remote.note (.attached s.host s.hostEndpoint s.endpoint s.warm)

/-- Attach the host interface of a side to a bridge of `host`. -/
def attachSide (host bridge : String) (s : Side) : Prog (Remote ρ) Err Unit := do
  let _ ← clients.run B host (.linkUp s.hostEndpoint) true
  let _ ← clients.run B host (.linkMaster s.hostEndpoint bridge) true
  noteAttached s

/-- Create the bridge of a link within a host and attach both sides. -/
def createSameHost (link : RuntimeLinkState) (defer : Bool) : Prog (Remote ρ) Err Unit := do
  let host := link.hostA
  let bridge := runtimeBridgeName link
  let _ ← clients.run B host (.bridgeAdd bridge) true
  let _ ← clients.run B host (.linkUp bridge) true
  let _ ← clients.run B host (.forwardingAllow bridge) false
  (do
    attachSide B clients host bridge (sideA link)
    attachSide B clients host bridge (sideB link)
    setLinkCarriers B clients link true true defer).rescue fun e => do
      setLinkCarriers B clients link false false false
      let _ ← clients.run B host (.forwardingRemove bridge) false
      let _ ← clients.run B host (.linkDelete bridge) false
      .raise e

/-- Delete the bridge of a link within a host. -/
def deleteSameHost (link : RuntimeLinkState) : Prog (Remote ρ) Err Unit := do
  setLinkCarriers B clients link false false false
  clients.runIfPresent B link.hostA (.forwardingRemove (runtimeBridgeName link))
  clients.runIfPresent B link.hostA (.linkDelete (runtimeBridgeName link))

/-- Delete the tunnel ends of a link between hosts. -/
def deleteCrossHostNetwork (link : RuntimeLinkState) : Prog (Remote ρ) Err Unit := do
  clients.runIfPresent B link.hostA (.linkDelete (vxlanAltname link.hostEndpointA))
  clients.runIfPresent B link.hostB (.linkDelete (vxlanAltname link.hostEndpointB))

/-- `underlay_ips[host]`. -/
def underlayIp (underlayIps : Dict String String) (host : String) : Except Err String :=
  match underlayIps.get? host with
  | some ip => .ok ip
  | none => .error (Clients.missing host)

/-- Create the tunnel end of side `s` towards the host `peer`. -/
def createTunnelEnd (underlayIps : Dict String String) (link : RuntimeLinkState) (s : Side)
    (peer : String) : Prog (Remote ρ) Err Unit := do
  let remote ← .ofExcept (underlayIp underlayIps peer)
  let _ ← clients.run B s.host (.vxlanCreate s.hostEndpoint remote link.vxlanId) true
  noteAttached s

/-- `clients[host]`, for its exception. -/
def requireClient (host : String) : Prog (Remote ρ) Err Unit :=
  match clients.get? host with
  | some _ => pure ()
  | none => .raise (Clients.missing host)

/-- Create the tunnel of a link between hosts. -/
def createCrossHost (link : RuntimeLinkState) (underlayIps : Dict String String) (defer : Bool) :
    Prog (Remote ρ) Err Unit := do
  requireClient clients link.hostA
  requireClient clients link.hostB
  (do
    createTunnelEnd B clients underlayIps link (sideA link) link.hostB
    createTunnelEnd B clients underlayIps link (sideB link) link.hostA
    setLinkCarriers B clients link true true defer).rescue fun e => do
      setLinkCarriers B clients link false false false
      deleteCrossHostNetwork B clients link
      .raise e

/-- Delete the tunnel of a link between hosts. -/
def deleteCrossHost (link : RuntimeLinkState) : Prog (Remote ρ) Err Unit := do
  setLinkCarriers B clients link false false false
  deleteCrossHostNetwork B clients link

/-- Attach a device to the bridge of a real network. -/
def createRealNet (link : RuntimeLinkState) (defer : Bool) : Prog (Remote ρ) Err Unit := do
  let host := link.hostA
  let _ ← clients.run B host (.linkUp link.hostEndpointA) true
  (do
    let _ ← clients.run B host (.linkMaster link.hostEndpointA link.hostEndpointB) true
    noteAttached (sideA link)
    setLinkCarriers B clients link true true defer).rescue fun e => do
      setLinkCarriers B clients link false false false
      let _ ← clients.run B host (.linkNoMaster link.hostEndpointA) false
      .raise e

/-- Detach a device from the bridge of a real network. -/
def deleteRealNet (link : RuntimeLinkState) : Prog (Remote ρ) Err Unit := do
  setLinkCarriers B clients link false false false
  clients.runIfPresent B link.hostA (.linkNoMaster link.hostEndpointA)

/-- The commands that create a link, by its type. -/
def createByType (link : RuntimeLinkState) (underlayIps : Dict String String) (defer : Bool) :
    Prog (Remote ρ) Err Unit :=
  match link.linkType with
  | .sameHost => createSameHost B clients link defer
  | .crossHost => createCrossHost B clients link underlayIps defer
  | .realNet => createRealNet B clients link defer
  | .pending => .raise ⟨.value, "unsupported link_type '" ++ link.linkType.text ++ "'"⟩

/-- The commands that delete a link, by its type. -/
def deleteByType (link : RuntimeLinkState) : Prog (Remote ρ) Err Unit :=
  match link.linkType with
  | .sameHost => deleteSameHost B clients link
  | .crossHost => deleteCrossHost B clients link
  | .realNet => deleteRealNet B clients link
  | .pending => pure ()

/-- The ends of a link that are not running. -/
def stoppedEndpoints (link : RuntimeLinkState) (runningNodes : List String) : List String :=
  (nodesInLink link).filter (· ∉ runningNodes)

/-- Create one runtime link if both devices are running. An empty list of running devices stands
    for the devices of the link. -/
def createLink (underlayIps : Dict String String) (runningNodes : List String) (defer : Bool)
    (link : RuntimeLinkState) : Prog (Remote ρ) Err (RuntimeLinkState × Option Err) := do
  let running := if runningNodes = [] then nodesInLink link else runningNodes
  let missing := stoppedEndpoints link running
  if missing ≠ [] then
    pure ({ link with
      state := .partly
      lastError := "endpoint stopped: " ++ sortedNames missing }, none)
  else do
    match ← (createByType B clients link underlayIps defer).attempt with
    | .ok () => do
      Remote.note (.created link)
      pure ({ link with state := .up, lastError := "" }, none)
    | .error e => pure ({ link with state := .error, lastError := e.message }, some e)

/-- Delete one runtime link. -/
def deleteLink (link : RuntimeLinkState) : Prog (Remote ρ) Err (RuntimeLinkState × Option Err) := do
  Remote.note (.deleting link)
  match ← (deleteByType B clients link).attempt with
  | .ok () => pure ({ link with state := .down, lastError := "" }, none)
  | .error e => pure ({ link with state := .error, lastError := e.message }, some e)

/-- `step` on the links that satisfy `p`, in order, until one raises an exception. -/
def visitLinks (p : RuntimeLinkState → Bool)
    (step : RuntimeLinkState → Prog (Remote ρ) Err (RuntimeLinkState × Option Err)) :
    List RuntimeLinkState → Prog (Remote ρ) Err (List RuntimeLinkState × Option Err)
  | [] => pure ([], none)
  | link :: rest =>
    if p link then do
      let (link', err) ← step link
      match err with
      | some e => pure (link' :: rest, some e)
      | none => do
        let (rest', err') ← visitLinks p step rest
        pure (link' :: rest', err')
    else do
      let (rest', err') ← visitLinks p step rest
      pure (link :: rest', err')

/-- Delete the links of a device. -/
def deleteNodeLinks (node : String) (links : List RuntimeLinkState) :
    Prog (Remote ρ) Err (List RuntimeLinkState × Option Err) :=
  visitLinks (fun l => node ∈ nodesInLink l) (deleteLink B clients) links

/-- Create the links that are neither invalid nor pending. -/
def reconcileAllLinks (links : List RuntimeLinkState) (underlayIps : Dict String String)
    (runningNodes : List String) (defer : Bool) :
    Prog (Remote ρ) Err (List RuntimeLinkState × Option Err) :=
  visitLinks (fun l => !(l.validationError || l.linkType = .pending))
    (createLink B clients underlayIps runningNodes defer) links

/-- Create the links of a device that are not invalid. -/
def reconcileNodeLinks (node : String) (links : List RuntimeLinkState)
    (underlayIps : Dict String String) (runningNodes : List String) :
    Prog (Remote ρ) Err (List RuntimeLinkState × Option Err) :=
  visitLinks (fun l => node ∈ nodesInLink l && !l.validationError)
    (createLink B clients underlayIps runningNodes false) links

end Commands

end Dnlab.RuntimeLinks
