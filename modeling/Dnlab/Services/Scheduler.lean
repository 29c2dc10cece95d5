import Dnlab.Models.Schedule
import Dnlab.Services.Remote
import Dnlab.Utils.Ids
import Dnlab.Utils.Naming
import Mathlib.Algebra.BigOperators.Group.List.Basic
import Mathlib.Algebra.GroupWithZero.Nat
import Mathlib.Data.List.Sort
import Mathlib.Data.String.Basic

/-!
# Scheduling

First fit decreasing with a preference for workers, after
`services/scheduler.py`: the assignment of devices to hosts (`assignAll`), and
the classification of the links under fixed assignments (`classifyLinks`),
which names the host-side ends of the links between hosts.

The two passes over the links differ in one point. `computeSchedule` treats two
devices without a host as being on the same one, where `classifyLinks` skips
their link or fails.
-/

namespace Dnlab.Scheduler

/-- A scheduling error. -/
def scheduleError (message : String) : Err := ⟨.schedule, message⟩

/-! ## Assignment -/

/-- The state of the assignment: what is assigned, and what is left on each host. -/
structure Placement where
  assignments : Dict String HostAssignment
  remainingCpu : Dict String ℕ
  remainingRam : Dict String ℕ

/-- Nothing assigned. -/
def initialPlacement (hosts : Dict String HostResources) : Placement where
  assignments := hosts.map fun name r => { hostName := name, hostIp := r.host }
  remainingCpu := hosts.map fun _ r => r.cpuAvailable
  remainingRam := hosts.map fun _ r => r.ramMbAvailable

/-- Whether a device fits on a host. -/
def canFit (p : Placement) (vd : VDResources) (host : String) : Bool :=
  p.remainingCpu.getD host 0 ≥ vd.cpu && p.remainingRam.getD host 0 ≥ vd.ramMb

/-- Whether `h` is a better candidate than `h'`: fewer devices, then more memory and processors
    left, then the later name. -/
def better (p : Placement) (h h' : String) : Bool :=
  let count (h : String) := ((p.assignments.get? h).map (·.vdNames.length)).getD 0
  let ram (h : String) := p.remainingRam.getD h 0
  let cpu (h : String) := p.remainingCpu.getD h 0
  if count h ≠ count h' then count h < count h'
  else if ram h ≠ ram h' then ram h > ram h'
  else if cpu h ≠ cpu h' then cpu h > cpu h'
  else !decide (h.toList ≤ h'.toList)

/-- `max(candidates, key=candidate_key)`. -/
def bestOf (p : Placement) : List String → Option String
  | [] => none
  | h :: hs => some (hs.foldl (fun best h => if better p h best then h else best) h)

/-- The host for a device: the preferred one, or else the best worker, or else the master. -/
def bestHost (hosts : Dict String HostResources) (preferences : Dict String String) (p : Placement)
    (vd : VDResources) : Option String :=
  let candidates (master : Bool) :=
    (hosts.items.filter fun (h, r) => r.isMaster == master && canFit p vd h).map Prod.fst
  match preferences.get? vd.name with
  | some h =>
    if hosts.contains h && canFit p vd h then some h
    else (bestOf p (candidates false)).or (bestOf p (candidates true))
  | none => (bestOf p (candidates false)).or (bestOf p (candidates true))

/-- A device put on a host. -/
def HostAssignment.add (a : HostAssignment) (name : String) (cpu ramMb : ℕ) : HostAssignment :=
  { a with
    vdNames := a.vdNames ++ [name]
    cpuUsed := a.cpuUsed + cpu
    ramMbUsed := a.ramMbUsed + ramMb }

/-- The placement with a device put on a host. -/
def Placement.assign (p : Placement) (vd : VDResources) (host : String) : Placement where
  assignments := p.assignments.modify host fun a => HostAssignment.add a vd.name vd.cpu vd.ramMb
  remainingCpu := p.remainingCpu.modify host (· - vd.cpu)
  remainingRam := p.remainingRam.modify host (· - vd.ramMb)

/-- The devices put on hosts, in order. -/
def assignAll (hosts : Dict String HostResources) (preferences : Dict String String) :
    Placement → List VDResources → Except Err Placement
  | p, [] => .ok p
  | p, vd :: vds =>
    match bestHost hosts preferences p vd with
    | some host => assignAll hosts preferences (p.assign vd host) vds
    | none => .error (scheduleError ("Impossibile assegnare VD '" ++ vd.name ++ "' (" ++
        toString vd.cpu ++ " CPU, " ++ toString vd.ramMb ++
        " MB): no host with enough resources"))

/-- The devices by descending weight, those of equal weight in their order. -/
def sortedVds (vds : Dict String VDResources) : List VDResources :=
  vds.values.insertionSort fun a b => b.weight ≤ a.weight

/-! ## Links -/

/-- The link `i` between hosts, with the names of its ends before they are made unique. -/
def crossLink (topo : DistributedTopology) (i : ℕ) (l : Link) (srcHost tgtHost : String) :
    CrossHostLink where
  vxlanId := Ids.dataplaneVxlanBase topo.name + i
  sourceNode := l.source
  sourceIface := l.sourceIface
  targetNode := l.target
  targetIface := l.targetIface
  sourceHost := srcHost
  targetHost := tgtHost
  sourceHostIface := Naming.vxlanHostIface topo.name l.source l.sourceIface
  targetHostIface := Naming.vxlanHostIface topo.name l.target l.targetIface

/-- The names collected for a host. -/
def namesOn (host : String) (links : List CrossHostLink) : List String :=
  links.flatMap fun l =>
    (if l.sourceHost = host then [l.sourceHostIface] else []) ++
      (if l.targetHost = host then [l.targetHostIface] else [])

/-- Hand the names out to the ends on a host, in order. -/
def handOut (host : String) : List String → List CrossHostLink → List CrossHostLink
  | _, [] => []
  | names, l :: ls =>
    let (src, names) :=
      if l.sourceHost = host then (names.headD l.sourceHostIface, names.tail)
      else (l.sourceHostIface, names)
    let (tgt, names) :=
      if l.targetHost = host then (names.headD l.targetHostIface, names.tail)
      else (l.targetHostIface, names)
    { l with sourceHostIface := src, targetHostIface := tgt } :: handOut host names ls

/-- Make the names on each host unique. -/
def uniqueOnHosts (hosts : List String) (links : List CrossHostLink) : List CrossHostLink :=
  hosts.foldl (fun ls h => handOut h (Naming.ensureUnique (namesOn h links)) ls) links

/-- The attachments to real networks with their hosts filled in. -/
def placeRealNets (plan : SchedulePlan) (allowUnscheduled : Bool) :
    List RealNetLink → Except Err (List RealNetLink)
  | [] => .ok []
  | l :: ls =>
    let host := (plan.hostForVd l.node).getD ""
    if host = "" then
      if allowUnscheduled then (placeRealNets plan allowUnscheduled ls).map (l :: ·)
      else .error (scheduleError ("real_net '" ++ l.realNet ++ "' references unscheduled node '" ++
        l.node ++ "'"))
    else (placeRealNets plan allowUnscheduled ls).map
      ({ l with host := host, bridgeIface := Naming.realnetBridgeIface l.node l.iface } :: ·)

/-- The links within a host and those between hosts, from the `i`-th between hosts on. -/
def splitLinks (topo : DistributedTopology) (plan : SchedulePlan) (allowUnscheduled : Bool) :
    (i : ℕ) → List Link → Except Err (List Link × List CrossHostLink)
  | _, [] => .ok ([], [])
  | i, l :: ls =>
    let src := (plan.hostForVd l.source).getD ""
    let tgt := (plan.hostForVd l.target).getD ""
    if src = "" ∨ tgt = "" then
      if allowUnscheduled then splitLinks topo plan allowUnscheduled i ls
      else .error (scheduleError ("link references unscheduled node: " ++ l.text))
    else if src = tgt then
      (splitLinks topo plan allowUnscheduled i ls).map fun (ls, cs) => (l :: ls, cs)
    else
      (splitLinks topo plan allowUnscheduled (i + 1) ls).map fun (ls, cs) =>
        (ls, crossLink topo i l src tgt :: cs)

/-- Populate link placement for a plan whose node assignments are fixed. The attachments to real
    networks are placed in the topology. -/
def classifyLinks (topo : DistributedTopology) (plan : SchedulePlan) (allowUnscheduled : Bool) :
    Except Err (DistributedTopology × SchedulePlan) := do
  let (within, across) ← splitLinks topo plan allowUnscheduled 0 topo.links
  let nets ← placeRealNets plan allowUnscheduled topo.realNetLinks
  pure ({ topo with realNetLinks := nets },
    { plan with
      localLinks := within
      crossHostLinks := uniqueOnHosts plan.assignments.keys across })

/-- The links of a plan under `computeSchedule`: devices without a host count as being together. -/
def splitAll (topo : DistributedTopology) (plan : SchedulePlan) :
    (i : ℕ) → List Link → List Link × List CrossHostLink
  | _, [] => ([], [])
  | i, l :: ls =>
    let src := plan.hostForVd l.source
    let tgt := plan.hostForVd l.target
    if src = tgt then
      let (ls, cs) := splitAll topo plan i ls
      (l :: ls, cs)
    else
      let (ls, cs) := splitAll topo plan (i + 1) ls
      (ls, crossLink topo i l (src.getD "") (tgt.getD "") :: cs)

/-- The hosts that names are collected for: those of the plan, then any others of its links. -/
def hostsOf (plan : SchedulePlan) (links : List CrossHostLink) : List String :=
  plan.assignments.keys ++
    ((links.flatMap fun l => [l.sourceHost, l.targetHost]).dedup.filter
      (· ∉ plan.assignments.keys))

/-- The resources of all devices, and of all hosts. -/
def totals (vds : Dict String VDResources) (hosts : Dict String HostResources) :
    (ℕ × ℕ) × (ℕ × ℕ) :=
  (((vds.values.map (·.cpu)).sum, (vds.values.map (·.ramMb)).sum),
    ((hosts.values.map (·.cpuAvailable)).sum, (hosts.values.map (·.ramMbAvailable)).sum))

/-- Compute the scheduling plan. -/
def computeSchedule (topo : DistributedTopology) (vdResources : Dict String VDResources)
    (hostResources : Dict String HostResources) (preferences : Dict String String) :
    Except Err (DistributedTopology × SchedulePlan) := do
  let ((cpuNeeded, ramNeeded), (cpuAvail, ramAvail)) := totals vdResources hostResources
  if cpuNeeded > cpuAvail ∨ ramNeeded > ramAvail then
    .error (scheduleError ("Insufficient resources for deployment:\n  Richiesto:   " ++
      toString cpuNeeded ++ " CPU, " ++ toString ramNeeded ++ " MB RAM\n  Available: " ++
      toString cpuAvail ++ " CPU, " ++ toString ramAvail ++
      " MB RAM\n  Add at least 1 worker or reduce the topology"))
  else
    let placement ← assignAll hostResources preferences (initialPlacement hostResources)
      (sortedVds vdResources)
    let plan : SchedulePlan :=
      { labName := topo.name
        assignments := placement.assignments
        vrfTableId := Ids.vrfTableId topo.name
        mgmtVxlanId := Ids.mgmtVxlanId topo.name }
    let (within, across) := splitAll topo plan 0 topo.links
    let nets ← placeRealNets plan false topo.realNetLinks
    pure ({ topo with realNetLinks := nets },
      { plan with
        localLinks := within
        crossHostLinks := uniqueOnHosts (hostsOf plan across) across })

/-! ## The resources of the hosts -/

/-- `int(text.strip())`; the commands that are read so print no negative number. -/
def readNat (text : String) : Except Err ℕ :=
  match Text.toInt? (Text.stripSpaces text) with
  | some n => .ok n.toNat
  | none => .error ⟨.value, "invalid literal for int() with base 10: '" ++ Text.stripSpaces text ++
      "'"⟩

/-- What one host has available. -/
def queryHost {ρ : Type} (B : Backend ρ) (clients : Clients) (name : String) (infra : InfraHost) :
    Prog (Remote ρ) Err (String × HostResources) :=
  (do
    let cpuText ← clients.run B name .nproc true
    let ramText ← clients.run B name .freeRam true
    let cpu ← .ofExcept (readNat cpuText)
    let ram ← .ofExcept (readNat ramText)
    let resources : HostResources :=
      { name := name
        host := infra.host
        cpuAvailable := cpu
        ramMbAvailable := ram
        isMaster := name = "master" }
    pure (name, resources)).rescue fun e =>
    .raise (scheduleError ("Node '" ++ name ++ "' (" ++ infra.host ++ ") unreachable or error: " ++
      e.message))

/-- Query each host for the processors and the memory it has available. -/
def gatherHostResources {ρ : Type} (B : Backend ρ) (clients : Clients) :
    Prog (Remote ρ) Err (Dict String HostResources) := do
  let results ← Prog.mapEach clients.items fun (name, infra) => queryHost B clients name infra
  pure (.ofList results)

end Dnlab.Scheduler
