import Dnlab.Lib.Dict
import Mathlib.Algebra.Order.Field.Rat
import Mathlib.Data.List.MinMax

/-!
# The reconstruction of flows

Which way the packets of a flow took, after `services/flow_reconstruct.py`. A
packet is observed on the links of the lab; a router lowers its TTL, a bridge
does not. The links with the same TTL make a layer, and within a layer they are
oriented away from where the layer is entered, link by link. Where the code goes
through a set, the order is that of a `SetOrder`.
-/

namespace Dnlab.FlowReconstruct

/-! ## Observations and graphs -/

/-- The two legs of a flow, `"forward"` and `"return"`. -/
inductive Leg
  | forward | back
  deriving DecidableEq

/-- What is observed of a packet on a link. -/
structure PacketObservation where
  linkId : String
  ttl : ℤ
  direction : Leg
  instanceKey : Option String
  deriving DecidableEq

structure LinkRef where
  linkId : String
  nodeA : String
  nodeB : String
  deriving DecidableEq

structure TopoGraph where
  links : List LinkRef
  deriving DecidableEq

/-- `KeyError`, of a link that the graph does not have. -/
structure KeyError where
  linkId : String
  deriving DecidableEq

/-- `_by_id`: of links with the same id, the last one. -/
def TopoGraph.byId (graph : TopoGraph) : Dict String LinkRef :=
  .ofList (graph.links.map fun link => (link.linkId, link))

/-- `link_endpoints(link_id)`. -/
def TopoGraph.linkEndpoints (graph : TopoGraph) (linkId : String) :
    Except KeyError (String × String) :=
  match graph.byId.get? linkId with
  | some link => .ok (link.nodeA, link.nodeB)
  | none => .error ⟨linkId⟩

/-! ## Results -/

/-- `"joint"` or `"marginal"`. -/
inductive Quality
  | joint | marginal
  deriving DecidableEq

/-- The state of a layer, or of the boundary between two. -/
inductive FlowState
  | determinate | ecmp | unresolved
  deriving DecidableEq

/-- `"certain"`, `"multipath"` or `"partial"`. -/
inductive Classification
  | certain | multipath | incomplete
  deriving DecidableEq

structure FlowEdge where
  linkId : String
  srcNode : String
  dstNode : String
  ttl : ℤ
  weight : ℚ
  weightQuality : Quality
  deriving DecidableEq

structure FlowLayer where
  ttl : ℤ
  edges : List FlowEdge
  state : FlowState
  deriving DecidableEq

structure FlowSegment where
  ttlHigh : ℤ
  ttlLow : ℤ
  state : FlowState
  missingTtl : Option ℤ
  deriving DecidableEq

/-- One leg: its layers, from the highest TTL to the lowest. -/
structure FlowPath where
  leg : Leg
  layers : List FlowLayer
  segments : List FlowSegment
  classification : Classification
  deriving DecidableEq

structure ReconstructionResult where
  forward : FlowPath
  backward : FlowPath
  asymmetric : Bool
  deriving DecidableEq

/-! ## Orientation -/

/-- The orders in which sets are gone through: the nodes that a layer is entered from, and the
    links that are left of it after some nodes were visited. -/
structure SetOrder where
  nodes : (lids upstream : List String) → List String
  links : (visited remaining : List String) → List String
  nodes_perm : ∀ lids upstream, (nodes lids upstream).Perm upstream
  links_perm : ∀ visited remaining, (links visited remaining).Perm remaining

/-- A link that goes from one node to another. -/
structure Arc where
  linkId : String
  src : String
  dst : String
  deriving DecidableEq

/-- The links at a node, away from it: the turn of a node in `_orient_same_ttl_links`. -/
def leaving (graph : TopoGraph) (node : String) : (lids : List String) → Except KeyError (List Arc)
  | [] => pure []
  | lid :: lids => do
    let (a, b) ← graph.linkEndpoints lid
    let arcs ← leaving graph node lids
    if node = a then pure (⟨lid, a, b⟩ :: arcs)
    else if node = b then pure (⟨lid, b, a⟩ :: arcs)
    else pure arcs

/-- The `while` loop of `_orient_same_ttl_links`: every turn takes a node off the frontier, and
    every link that is oriented adds one. -/
def spread (graph : TopoGraph) (order : SetOrder) :
    (turns : ℕ) → (visited frontier remaining : List String) → Except KeyError (List Arc)
  | 0, _, _, _ => pure []
  | _ + 1, _, [], _ => pure []
  | turns + 1, visited, node :: frontier, remaining => do
    let arcs ← leaving graph node (order.links visited remaining)
    let more ← spread graph order turns (visited ++ [node]) (frontier ++ arcs.map Arc.dst)
      (remaining.filter fun lid => lid ∉ arcs.map Arc.linkId)
    pure (arcs ++ more)

/-- How links are oriented, from a source to a destination, or not at all. -/
abbrev Oriented := List (String × Option (String × String))

/-- `_orient_same_ttl_links(graph, lids, upstream)`, with the nodes downstream. -/
def orientSameTtlLinks (graph : TopoGraph) (order : SetOrder) (lids upstream : List String) :
    Except KeyError (Oriented × List String) := do
  let arcs ← spread graph order (upstream.length + lids.length) [] (order.nodes lids upstream) lids
  let remaining := lids.filter fun lid => lid ∉ arcs.map Arc.linkId
  pure (arcs.map (fun arc => (arc.linkId, some (arc.src, arc.dst))) ++
    remaining.map (fun lid => (lid, none)), (arcs.map Arc.dst).dedup)

/-- `_layer_nodes(lids, graph)`. -/
def layerNodes (graph : TopoGraph) : (lids : List String) → Except KeyError (List String)
  | [] => pure []
  | lid :: lids => do
    let (a, b) ← graph.linkEndpoints lid
    let nodes ← layerNodes graph lids
    pure (a :: b :: nodes).dedup

/-- `_initial_upstream(run_desc, graph, source_node)`. -/
def initialUpstream (graph : TopoGraph) (run : List (List String)) (sourceNode : String) :
    Except KeyError (List String) := do
  let topNodes ← layerNodes graph (run.headD [])
  if sourceNode ∈ topNodes then pure [sourceNode]
  else match run with
    | _ :: second :: _ => do
      let secondNodes ← layerNodes graph second
      pure (topNodes.filter (· ∉ secondNodes))
    | _ => pure []

/-- The layers of a run, each entered from the nodes downstream of the one above. -/
def orientRun (graph : TopoGraph) (order : SetOrder) :
    (upstream : List String) → (run : List (List String)) → Except KeyError Oriented
  | _, [] => pure []
  | upstream, lids :: run => do
    let (oriented, downstream) ← orientSameTtlLinks graph order lids upstream
    let more ← orientRun graph order (if downstream = [] then upstream else downstream) run
    pure (oriented ++ more)

/-- The loop of `_contiguous_runs`, with the current run and its last value. -/
def runsFrom (current : List ℤ) (last : ℤ) : List ℤ → List (List ℤ)
  | [] => [current]
  | ttl :: ttls =>
    if last - ttl = 1 then runsFrom (current ++ [ttl]) ttl ttls
    else current :: runsFrom [ttl] ttl ttls

/-- `_contiguous_runs(ttls_desc)`. -/
def contiguousRuns : (ttlsDesc : List ℤ) → List (List ℤ)
  | [] => []
  | ttl :: ttls => runsFrom [ttl] ttl ttls

/-- `_orient`, of runs of layers. -/
def orient (graph : TopoGraph) (order : SetOrder) (sourceNode : String) :
    (runs : List (List (List String))) → Except KeyError Oriented
  | [] => pure []
  | run :: runs => do
    let upstream ← initialUpstream graph run sourceNode
    let oriented ← orientRun graph order upstream run
    let more ← orient graph order sourceNode runs
    pure (oriented ++ more)

/-! ## Layers and segments -/

section Layers

variable (oriented : String → Option (String × String))

/-- The sources and the destinations of links. -/
def srcsOf (lids : List String) : List String := lids.filterMap fun lid => (oriented lid).map Prod.fst

def dstsOf (lids : List String) : List String := lids.filterMap fun lid => (oriented lid).map Prod.snd

/-- `_layer_entry_nodes(lids, oriented)`. -/
def layerEntryNodes (lids : List String) : List String :=
  ((srcsOf oriented lids).filter (· ∉ dstsOf oriented lids)).dedup

/-- `_layer_exit_nodes(lids, oriented)`. -/
def layerExitNodes (lids : List String) : List String :=
  ((dstsOf oriented lids).filter (· ∉ srcsOf oriented lids)).dedup

/-- `_adjacency_ok(hi_lids, lo_lids, oriented)`. -/
def adjacencyOk (hiLids loLids : List String) : Bool :=
  let hiExits := layerExitNodes oriented hiLids
  let loEntries := layerEntryNodes oriented loLids
  hiExits ≠ [] && loEntries ≠ [] && loEntries.all (· ∈ hiExits)

/-- `_ttl_layer_is_ecmp(lids, oriented)`. -/
def ttlLayerIsEcmp (lids : List String) : Bool :=
  if lids.length ≤ 1 then false
  else if lids.any fun lid => oriented lid = none then false
  else
    let indegree node := (dstsOf oriented lids).count node
    let outdegree node := (srcsOf oriented lids).count node
    let nodes := (srcsOf oriented lids ++ dstsOf oriented lids).dedup
    let sources := nodes.filter fun n => indegree n = 0 ∧ 0 < outdegree n
    let sinks := nodes.filter fun n => outdegree n = 0 ∧ 0 < indegree n
    if sources.length ≠ 1 ∨ sinks.length ≠ 1 then true
    else nodes.any fun n => 1 < indegree n ∨ 1 < outdegree n

/-- The state of a layer in `_reconstruct_leg`. -/
def layerState (lids : List String) : FlowState :=
  if lids.any fun lid => oriented lid = none then .unresolved
  else if ttlLayerIsEcmp oriented lids then .ecmp
  else .determinate

/-- `_segments`, between the layers of consecutive TTLs. -/
def segments (layerLinks : ℤ → List String) : (ttlsDesc : List ℤ) → List FlowSegment
  | hi :: lo :: ttls =>
    (if 1 < hi - lo then
      { ttlHigh := hi, ttlLow := lo, state := .unresolved, missingTtl := some (hi - 1) }
    else if adjacencyOk oriented (layerLinks hi) (layerLinks lo) = false then
      { ttlHigh := hi, ttlLow := lo, state := .unresolved, missingTtl := none }
    else
      let ecmp := ttlLayerIsEcmp oriented (layerLinks hi) || ttlLayerIsEcmp oriented (layerLinks lo)
      { ttlHigh := hi, ttlLow := lo, state := if ecmp then .ecmp else .determinate,
        missingTtl := none }) :: segments layerLinks (lo :: ttls)
  | _ => []

end Layers

/-- `_classify(layers, segments, anchor_ok)`. -/
def classify (layers : List FlowLayer) (segments : List FlowSegment) (anchorOk : Bool) :
    Classification :=
  if anchorOk = false ∨ layers.any (·.state = .unresolved) ∨ segments.any (·.state = .unresolved) then
    .incomplete
  else if layers.any (·.state = .ecmp) then .multipath
  else .certain

/-! ## One leg -/

section Observed

variable (obs : List PacketObservation)

/-- `obs_by_link`. -/
def obsByLink : Dict String (List PacketObservation) :=
  obs.foldl (fun d o => d.push o.linkId [o]) .empty

/-- `Counter(ttls).most_common(1)[0][0]`: of the values that are there most often, the one that
    came first. -/
def mostCommon (ttls : List ℤ) : ℤ := (ttls.argmax fun ttl => ttls.count ttl).getD 0

/-- `link_ttl`: the TTL that stands for a link. -/
def linkTtl : Dict String ℤ := (obsByLink obs).map fun _ lobs => mostCommon (lobs.map (·.ttl))

/-- `layer_links`: the links with each TTL. -/
def layerLinks : Dict ℤ (List String) :=
  (linkTtl obs).items.foldl (fun d item => d.push item.2 [item.1]) .empty

/-- `ttls_desc`. -/
def ttlsDesc : List ℤ := (layerLinks obs).keys.mergeSort (fun a b => b ≤ a)

/-- The links of a layer. -/
def linksAt (ttl : ℤ) : List String := (layerLinks obs).getD ttl []

/-- Whether every packet has a key. -/
def keyed : Bool := obs.all (·.instanceKey.isSome)

/-- What `count(lid)` counts: the packets on a link, or their keys. -/
def countOn (lid : String) : ℕ :=
  let lobs := (obsByLink obs).getD lid []
  if keyed obs then (lobs.map (·.instanceKey)).dedup.length else lobs.length

/-- The packets of the flow, or their keys, and not less than one. -/
def total : ℕ :=
  let n :=
    if keyed obs then (obs.map (·.instanceKey)).dedup.length
    else ((linksAt obs ((ttlsDesc obs).headD 0)).map fun lid =>
      ((obsByLink obs).getD lid []).length).sum
  if n = 0 then 1 else n

/-- The edges of a layer. -/
def edgesAt (oriented : String → Option (String × String)) (ttl : ℤ) : List FlowEdge :=
  (linksAt obs ttl).map fun lid =>
    { linkId := lid
      srcNode := ((oriented lid).map Prod.fst).getD ""
      dstNode := ((oriented lid).map Prod.snd).getD ""
      ttl
      weight := countOn obs lid / total obs
      weightQuality := if keyed obs then .joint else .marginal }

def layerAt (oriented : String → Option (String × String)) (ttl : ℤ) : FlowLayer where
  ttl := ttl
  edges := edgesAt obs oriented ttl
  state := layerState oriented (linksAt obs ttl)

/-- `any(source_node in graph.link_endpoints(lid) for lid in lids)`. -/
def anchored (graph : TopoGraph) (sourceNode : String) : (lids : List String) → Except KeyError Bool
  | [] => pure false
  | lid :: lids => do
    let (a, b) ← graph.linkEndpoints lid
    if sourceNode = a ∨ sourceNode = b then pure true else anchored graph sourceNode lids

/-- `_reconstruct_leg(graph, obs, leg, source_node)`. -/
def reconstructLeg (graph : TopoGraph) (order : SetOrder) (leg : Leg) (sourceNode : String) :
    Except KeyError FlowPath :=
  if obs = [] then pure { leg, layers := [], segments := [], classification := .certain }
  else do
    let ttls := ttlsDesc obs
    let pairs ← orient graph order sourceNode ((contiguousRuns ttls).map (·.map (linksAt obs)))
    let oriented := fun lid => ((Dict.ofList pairs).get? lid).join
    let layers := ttls.map (layerAt obs oriented)
    let segments := segments oriented (linksAt obs) ttls
    let anchorTtl := if leg = .forward then ttls.headD 0 else ttls.getLastD 0
    let anchorOk ← anchored graph sourceNode (linksAt obs anchorTtl)
    pure { leg, layers, segments, classification := classify layers segments anchorOk }

end Observed

/-! ## Both legs -/

/-- `_edge_map(path)`. -/
def edgeMap (path : FlowPath) : Dict String (String × String) :=
  .ofList (path.layers.flatMap fun layer =>
    layer.edges.map fun edge => (edge.linkId, edge.srcNode, edge.dstNode))

/-- `_is_asymmetric(forward, backward)`. -/
def isAsymmetric (forward backward : FlowPath) : Bool :=
  let fwd := edgeMap forward
  let bwd := edgeMap backward
  if fwd.items = [] ∨ bwd.items = [] then false
  else if ¬(fwd.keys ⊆ bwd.keys ∧ bwd.keys ⊆ fwd.keys) then true
  else fwd.items.any fun (lid, src, dst) => bwd.get? lid ≠ some (dst, src)

/-- `reconstruct(graph, observations, source_node)`. -/
def reconstruct (graph : TopoGraph) (order : Leg → SetOrder) (observations : List PacketObservation)
    (sourceNode : String) : Except KeyError ReconstructionResult := do
  let forward ← reconstructLeg (observations.filter (·.direction = .forward)) graph
    (order .forward) .forward sourceNode
  let backward ← reconstructLeg (observations.filter (·.direction = .back)) graph
    (order .back) .back sourceNode
  pure { forward, backward, asymmetric := isAsymmetric forward backward }

end Dnlab.FlowReconstruct
