import Dnlab.Lib.Walk
import Dnlab.Services.FlowReconstruct.Legs
import Mathlib.Data.List.Chain

/-!
# What a certain leg is

A layer in which no node is passed twice is a walk (`exists_layerWalk`), the
layers of a leg without gaps follow on each other, and the first one begins at
the source. So a leg that is classified as certain is one walk from the source
over all links that were observed (`forward_sound`).
-/

namespace Dnlab.FlowReconstruct

open ExceptRules (bind_eq_ok pure_eq_ok)

/-- A graph without loops, whose links have ids of their own. -/
structure TopoGraph.Simple (graph : TopoGraph) : Prop where
  noLoop : ∀ link ∈ graph.links, link.nodeA ≠ link.nodeB
  nodup : (graph.links.map LinkRef.linkId).Nodup

theorem TopoGraph.Simple.ne_of_joins {graph : TopoGraph} (hgraph : graph.Simple) {lid a b : String}
    (h : graph.Joins lid a b) : a ≠ b := by
  have key {a b : String} (h : graph.linkEndpoints lid = .ok (a, b)) : a ≠ b := by
    rw [TopoGraph.linkEndpoints] at h
    split at h
    · rename_i link hget
      obtain ⟨rfl, rfl⟩ := Prod.mk.inj (Except.ok.inj h)
      have hmem := Dict.mem_of_get?_ofList hget
      obtain ⟨link', hlink, heq⟩ := List.mem_map.1 hmem
      obtain rfl := (Prod.mk.inj heq).2
      exact hgraph.noLoop link' hlink
    · exact absurd h (by simp)
  rcases h with h | h
  · exact key h
  · exact (key h).symm

/-! ## Orientations of a run -/

section Pairs

variable {graph : TopoGraph} {upstream lids : List String} {run : List (List String)}
  {pairs : Oriented} {arcs : List Arc}

/-- The first layer is entered from the nodes upstream. -/
theorem RunOriented.top (h : RunOriented graph upstream (lids :: run) pairs) :
    ∃ frontier arcs, frontier.Perm upstream ∧ Spreads graph frontier lids arcs ∧
      orientedOf lids arcs ⊆ pairs := by
  cases h with
  | cons hperm hspreads _ => exact ⟨_, _, hperm, hspreads, List.subset_append_left _ _⟩

/-- The links of a layer are oriented by its turns. -/
theorem RunOriented.layer (h : RunOriented graph upstream run pairs) (hlids : lids ∈ run) :
    ∃ frontier arcs, Spreads graph frontier lids arcs ∧ orientedOf lids arcs ⊆ pairs := by
  induction h with
  | nil => exact absurd hlids List.not_mem_nil
  | cons _ hspreads _ ih =>
    rcases List.mem_cons.1 hlids with rfl | hlids
    · exact ⟨_, _, hspreads, List.subset_append_left _ _⟩
    · obtain ⟨frontier, arcs, hspreads, hsub⟩ := ih hlids
      exact ⟨frontier, arcs, hspreads, List.subset_append_of_subset_right _ hsub⟩

end Pairs

/-! ## One layer -/

section Layer

variable {graph : TopoGraph} {frontier lids : List String} {arcs : List Arc}
  {oriented : String → Option (String × String)}

/-- The orientation of a layer is that of its turns. -/
structure LayerOriented (graph : TopoGraph) (frontier lids : List String) (arcs : List Arc)
    (oriented : String → Option (String × String)) : Prop where
  spreads : Spreads graph frontier lids arcs
  nodup : lids.Nodup
  ends : ∀ lid ∈ lids, ∀ e, oriented lid = some e ↔ ⟨lid, e.1, e.2⟩ ∈ arcs

/-- The edge goes from one end of its link to the other. -/
def FlowEdge.Along (graph : TopoGraph) (edge : FlowEdge) : Prop :=
  graph.Joins edge.linkId edge.srcNode edge.dstNode

/-- A layer that is a walk, from its only entry to its only exit. -/
structure LayerWalk (graph : TopoGraph) (obs : List PacketObservation)
    (oriented : String → Option (String × String)) (ttl : ℤ) (start : String)
    (w : List FlowEdge) : Prop where
  perm : w.Perm (edgesAt obs oriented ttl)
  ne_nil : w ≠ []
  isWalk : Walk.IsWalk FlowEdge.srcNode FlowEdge.dstNode start w
  along : ∀ edge ∈ edgesAt obs oriented ttl, edge.Along graph
  entry : ∀ n ∈ layerEntryNodes oriented (linksAt obs ttl), n = start
  exit : ∀ n ∈ layerExitNodes oriented (linksAt obs ttl), n = Walk.finish FlowEdge.dstNode start w

theorem srcsOf_eq {obs : List PacketObservation} {ttl : ℤ}
    (hall : ∀ lid ∈ linksAt obs ttl, oriented lid ≠ none) :
    srcsOf oriented (linksAt obs ttl) = (edgesAt obs oriented ttl).map FlowEdge.srcNode ∧
      dstsOf oriented (linksAt obs ttl) = (edgesAt obs oriented ttl).map FlowEdge.dstNode := by
  rw [srcsOf, dstsOf, edgesAt, List.map_map, List.map_map]
  generalize linksAt obs ttl = lids at hall
  constructor
  all_goals
    induction lids with
    | nil => rfl
    | cons lid lids ih =>
      obtain ⟨e, he⟩ := Option.ne_none_iff_exists'.1 (hall lid List.mem_cons_self)
      rw [List.filterMap_cons_some (by rw [he]; rfl),
        ih fun lid hlid => hall lid (List.mem_cons_of_mem _ hlid), List.map_cons]
      simp [he]

/-- Nothing is passed twice in a layer that is not split. -/
theorem nodup_srcs_of_not_ecmp {lids : List String} (hall : ∀ lid ∈ lids, oriented lid ≠ none)
    (hecmp : ttlLayerIsEcmp oriented lids = false) (hne : lids ≠ []) :
    (srcsOf oriented lids).Nodup ∧ ∃ start, ∀ n ∈ srcsOf oriented lids,
      n ∉ dstsOf oriented lids → n = start := by
  rcases lids with _ | ⟨lid, _ | ⟨lid', lids⟩⟩
  · exact absurd rfl hne
  · obtain ⟨e, he⟩ := Option.ne_none_iff_exists'.1 (hall lid List.mem_cons_self)
    have hsrcs : srcsOf oriented [lid] = [e.1] := by simp [srcsOf, he]
    rw [hsrcs]
    exact ⟨List.nodup_singleton _, e.1, fun n hn _ => List.mem_singleton.1 hn⟩
  · rw [ttlLayerIsEcmp, if_neg (by simp)] at hecmp
    rw [if_neg (by simpa using hall)] at hecmp
    generalize lid :: lid' :: lids = l at hecmp
    simp only at hecmp
    split_ifs at hecmp with hcount
    rw [not_or, not_not, not_not] at hcount
    obtain ⟨start, hsources⟩ := List.length_eq_one_iff.1 hcount.1
    refine ⟨List.nodup_iff_count_le_one.2 fun n => ?_, start, fun n hn hnot => ?_⟩
    · by_cases hn : n ∈ srcsOf oriented l
      · have := List.any_eq_false.1 hecmp n (List.mem_dedup.2 (List.mem_append_left _ hn))
        simp only [decide_eq_true_eq, not_or, not_lt] at this
        exact this.2
      · rw [List.count_eq_zero.2 hn]
        exact Nat.zero_le _
    · have hmem : n ∈ [start] := by
        rw [← hsources, List.mem_filter, decide_eq_true_eq, List.count_eq_zero, List.count_pos_iff]
        exact ⟨List.mem_dedup.2 (List.mem_append_left _ hn), hnot, hn⟩
      exact List.mem_singleton.1 hmem

theorem exists_layerWalk {obs : List PacketObservation} {ttl : ℤ} (hgraph : graph.Simple)
    (hlayer : LayerOriented graph frontier (linksAt obs ttl) arcs oriented)
    (hne : linksAt obs ttl ≠ []) (hstate : layerState oriented (linksAt obs ttl) = .determinate) :
    ∃ start w, LayerWalk graph obs oriented ttl start w ∧ start ∈ frontier := by
  rw [layerState] at hstate
  split_ifs at hstate with hunresolved hecmp
  have hall : ∀ lid ∈ linksAt obs ttl, oriented lid ≠ none := by
    simpa using hunresolved
  rw [Bool.not_eq_true] at hecmp
  obtain ⟨hsrcs, hdsts⟩ := srcsOf_eq hall
  obtain ⟨hnodup, start, hstart⟩ := nodup_srcs_of_not_ecmp hall hecmp hne
  rw [hsrcs] at hnodup hstart
  rw [hdsts] at hstart
  -- An edge is an arc of the layer.
  have harc : ∀ edge ∈ edgesAt obs oriented ttl, ⟨edge.linkId, edge.srcNode, edge.dstNode⟩ ∈ arcs := by
    intro edge hedge
    obtain ⟨lid, hlid, rfl⟩ := List.mem_map.1 hedge
    obtain ⟨e, he⟩ := Option.ne_none_iff_exists'.1 (hall lid hlid)
    simpa [he] using (hlayer.ends lid hlid e).1 he
  obtain ⟨rank, hrank⟩ := hlayer.spreads.exists_rank
  have hrises : ∀ edge ∈ edgesAt obs oriented ttl, rank edge.srcNode < rank edge.dstNode :=
    fun edge hedge => hrank _ (harc edge hedge)
      (hgraph.ne_of_joins (hlayer.spreads.mem (harc edge hedge)).2)
  have hedges : edgesAt obs oriented ttl ≠ [] := by
    rw [edgesAt, ne_eq, List.map_eq_nil_iff]
    exact hne
  obtain ⟨w, hperm, hwalk⟩ := Walk.exists_walk rank hrises hnodup
    (fun edge hedge hnot => hstart _ (List.mem_map_of_mem hedge) hnot)
  obtain ⟨first, hfirst, hnot⟩ := Walk.exists_first rank hrises hedges
  have hne' : w ≠ [] := fun h => hedges (by rw [h] at hperm; exact hperm.nil_eq.symm)
  refine ⟨start, w, ⟨hperm, hne', hwalk, fun edge hedge => ?_, fun n hn => ?_, fun n hn => ?_⟩, ?_⟩
  · exact (hlayer.spreads.mem (harc edge hedge)).2
  · rw [layerEntryNodes, hsrcs, hdsts, List.mem_dedup, List.mem_filter, decide_eq_true_eq] at hn
    exact hstart n hn.1 hn.2
  · rw [layerExitNodes, hsrcs, hdsts, List.mem_dedup, List.mem_filter, decide_eq_true_eq] at hn
    refine hwalk.eq_finish ?_ ?_
    · exact (hperm.map _).mem_iff.2 hn.1
    · exact fun h => hn.2 ((hperm.map _).mem_iff.1 h)
  · -- Where nothing ends, the layer is entered.
    have hsame := hstart _ (List.mem_map_of_mem hfirst) hnot
    rcases hlayer.spreads.src_mem (harc first hfirst) with hmem | hmem
    · exact hsame ▸ hmem
    · obtain ⟨arc, hmem, hdst⟩ := List.mem_map.1 hmem
      have hlid := (hlayer.spreads.mem hmem).1
      have hends := (hlayer.ends _ hlid (arc.src, arc.dst)).2 hmem
      refine absurd (List.mem_map.2 ⟨_, List.mem_map_of_mem hlid, ?_⟩) hnot
      have hdst' : arc.dst = first.srcNode := hdst
      simp [hends, hdst']

end Layer

/-! ## The layers of a leg -/

section Leg

variable {obs : List PacketObservation} {oriented : String → Option (String × String)}
  {graph : TopoGraph} {order : SetOrder} {sourceNode : String}

theorem runsFrom_of_chain {current : List ℤ} {last : ℤ} {ttls : List ℤ}
    (h : (last :: ttls).IsChain fun hi lo => hi - lo = 1) :
    runsFrom current last ttls = [current ++ ttls] := by
  induction ttls generalizing current last with
  | nil => rw [runsFrom, List.append_nil]
  | cons ttl ttls ih =>
    rw [List.isChain_cons_cons] at h
    rw [runsFrom, if_pos h.1, ih h.2, List.append_assoc, List.singleton_append]

/-- The walks of layers that follow on each other make one walk. -/
theorem exists_walks {ttl : ℤ} {ttls : List ℤ} {start : String} {w : List FlowEdge}
    (hchain : (ttl :: ttls).IsChain fun hi lo =>
      hi - lo = 1 ∧ adjacencyOk oriented (linksAt obs hi) (linksAt obs lo) = true)
    (hfirst : LayerWalk graph obs oriented ttl start w)
    (hwalks : ∀ ttl ∈ ttls, ∃ start w, LayerWalk graph obs oriented ttl start w) :
    ∃ ws : List (List FlowEdge),
      List.Forall₂ (fun w ttl => w.Perm (edgesAt obs oriented ttl)) ws (ttl :: ttls) ∧
        Walk.IsWalk FlowEdge.srcNode FlowEdge.dstNode start ws.flatten := by
  induction ttls generalizing ttl start w with
  | nil => exact ⟨[w], .cons hfirst.perm .nil, by simpa using hfirst.isWalk⟩
  | cons lo ttls ih =>
    rw [List.isChain_cons_cons] at hchain
    obtain ⟨start', w', hsecond⟩ := hwalks lo List.mem_cons_self
    obtain ⟨ws, hws, hwalk⟩ := ih hchain.2 hsecond fun t ht => hwalks t (List.mem_cons_of_mem _ ht)
    refine ⟨w :: ws, .cons hfirst.perm hws, ?_⟩
    rw [List.flatten_cons, Walk.isWalk_append]
    -- The second layer is entered where the first one is left.
    have hstart : start' = Walk.finish FlowEdge.dstNode start w := by
      have hadj := hchain.1.2
      rw [adjacencyOk] at hadj
      simp only [Bool.and_eq_true, decide_eq_true_eq, List.all_eq_true] at hadj
      obtain ⟨n, hn⟩ := List.exists_mem_of_ne_nil _ hadj.1.2
      rw [← hsecond.entry n hn, hfirst.exit n (hadj.2 n hn)]
    exact ⟨hfirst.isWalk, hstart ▸ hwalk⟩

/-- The source is at one of the links. -/
theorem joins_of_anchored {lids : List String} (h : anchored graph sourceNode lids = .ok true) :
    ∃ lid ∈ lids, ∃ b, graph.Joins lid sourceNode b := by
  induction lids with
  | nil =>
    rw [anchored, pure_eq_ok] at h
    exact absurd h (by decide)
  | cons lid lids ih =>
    rw [anchored] at h
    obtain ⟨⟨a, b⟩, hends, h⟩ := bind_eq_ok.1 h
    dsimp only at h
    split_ifs at h with hat
    · rcases hat with rfl | rfl
      · exact ⟨lid, List.mem_cons_self, b, .inl hends⟩
      · exact ⟨lid, List.mem_cons_self, a, .inr hends⟩
    · obtain ⟨lid', hlid', hjoins⟩ := ih h
      exact ⟨lid', List.mem_cons_of_mem _ hlid', hjoins⟩

/-- The source is where a run begins that it is at the top of. -/
theorem initialUpstream_of_joins {lids upstream : List String} {run : List (List String)}
    (h : initialUpstream graph (lids :: run) sourceNode = .ok upstream)
    (hjoins : ∃ lid ∈ lids, ∃ b, graph.Joins lid sourceNode b) : upstream = [sourceNode] := by
  rw [initialUpstream] at h
  obtain ⟨nodes, hnodes, h⟩ := bind_eq_ok.1 h
  rw [if_pos ((mem_layerNodes hnodes).2 hjoins), pure_eq_ok] at h
  exact h.symm

theorem perm_linkIds {ws : List (List FlowEdge)} {ttls : List ℤ}
    (h : List.Forall₂ (fun w ttl => w.Perm (edgesAt obs oriented ttl)) ws ttls) :
    (ws.flatten.map FlowEdge.linkId).Perm (ttls.map (linksAt obs)).flatten := by
  induction h with
  | nil => exact .refl _
  | cons hw _ ih =>
    rw [List.flatten_cons, List.map_append, List.map_cons, List.flatten_cons]
    refine List.Perm.append ((hw.map _).trans (.of_eq ?_)) ih
    rw [edgesAt, List.map_map]
    exact List.map_id _

theorem classify_eq_certain {layers : List FlowLayer} {segments : List FlowSegment} {anchorOk : Bool}
    (h : classify layers segments anchorOk = .certain) :
    anchorOk = true ∧ (∀ layer ∈ layers, layer.state = .determinate) ∧
      ∀ s ∈ segments, s.state ≠ .unresolved := by
  rw [classify] at h
  split_ifs at h with hbad hecmp
  simp only [not_or, Bool.not_eq_false, List.any_eq_true, decide_eq_true_eq, not_exists,
    not_and] at hbad hecmp
  refine ⟨hbad.1, fun layer hlayer => ?_, fun s hs => hbad.2.2 s hs⟩
  rcases hstate : layer.state with _ | _ | _
  · rfl
  · exact absurd hstate (hecmp layer hlayer)
  · exact absurd hstate (hbad.2.1 layer hlayer)

/-- A leg is one walk through the graph from the source, over all links that packets of it were
    observed on; the TTLs of its layers fall by one. -/
structure SoundLeg (graph : TopoGraph) (obs : List PacketObservation) (sourceNode : String)
    (path : FlowPath) : Prop where
  /-- The edges of the layers, each in an order of its own. -/
  walk : ∃ ws : List (List FlowEdge),
    List.Forall₂ (fun w (layer : FlowLayer) => w.Perm layer.edges) ws path.layers ∧
    Walk.IsWalk FlowEdge.srcNode FlowEdge.dstNode sourceNode ws.flatten ∧
    (ws.flatten.map FlowEdge.linkId).Nodup ∧
    ∀ lid, lid ∈ ws.flatten.map FlowEdge.linkId ↔ Observed obs lid
  ttls : path.layers.IsChain fun hi lo => hi.ttl - lo.ttl = 1
  edges : ∀ layer ∈ path.layers, ∀ edge ∈ layer.edges, edge.ttl = layer.ttl
  along : ∀ layer ∈ path.layers, ∀ edge ∈ layer.edges, edge.Along graph

theorem soundLeg_of_certain {path : FlowPath} (hgraph : graph.Simple)
    (h : reconstructLeg obs graph order .forward sourceNode = .ok path)
    (hcertain : path.classification = .certain) (hne : path.layers ≠ []) :
    SoundLeg graph obs sourceNode path := by
  rw [reconstructLeg] at h
  by_cases hobs : obs = []
  · rw [if_pos hobs, pure_eq_ok] at h
    exact absurd (by rw [← h]) hne
  rw [if_neg hobs] at h
  obtain ⟨pairs, hpairs, h⟩ := bind_eq_ok.1 h
  obtain ⟨anchorOk, hanchor, h⟩ := bind_eq_ok.1 h
  obtain rfl := pure_eq_ok.1 h
  obtain ⟨rfl, hlayers, hsegments⟩ := classify_eq_certain hcertain
  rw [if_pos rfl] at hanchor
  -- The layers have no gap, so that they are one run.
  obtain ⟨ttl, ttls, httls⟩ := List.exists_cons_of_ne_nil (mt ttlsDesc_eq_nil_iff.1 hobs)
  have hdesc := pairwise_ttlsDesc obs
  have hnodup := nodup_layers obs
  rw [httls] at hpairs hlayers hsegments hdesc hanchor hnodup
  have hchain := (segments_resolved _ _ hdesc).1 hsegments
  rw [contiguousRuns, runsFrom_of_chain (hchain.imp fun _ _ h => h.1)] at hpairs
  obtain ⟨upstream, hupstream, hpairs⟩ := bind_eq_ok.1 hpairs
  obtain ⟨oriented, horiented, hpairs⟩ := bind_eq_ok.1 hpairs
  obtain ⟨-, ⟨⟩, hpairs⟩ := bind_eq_ok.1 hpairs
  have hall := pure_eq_ok.1 hpairs
  rw [List.append_nil] at hall
  subst hall
  have hrun := orientRun_spec horiented
  have hkeys : (oriented.map Prod.fst).Nodup := (hrun.perm hnodup).nodup_iff.2 hnodup
  -- Every layer is a walk, and the first one begins at the source.
  have hwalks : ∀ t ∈ ttl :: ttls, ∀ {frontier arcs}, Spreads graph frontier (linksAt obs t) arcs →
      orientedOf (linksAt obs t) arcs ⊆ oriented →
      ∃ start w, LayerWalk graph obs oriented.ends t start w ∧ start ∈ frontier := by
    intro t ht frontier arcs hspreads hsub
    have hmem : t ∈ ttlsDesc obs := httls ▸ ht
    obtain ⟨lid, hlid⟩ := mem_ttlsDesc.1 hmem
    exact exists_layerWalk hgraph
      ⟨hspreads, nodup_linksAt obs t, fun lid hlid e => ends_eq_some hkeys hsub hlid⟩
      (List.ne_nil_of_mem hlid) (hlayers _ (List.mem_map_of_mem ht))
  obtain ⟨frontier, arcs, hperm, hspreads, hsub⟩ := hrun.top
  obtain ⟨start, w, hfirst, hstart⟩ := hwalks ttl List.mem_cons_self hspreads hsub
  obtain rfl := initialUpstream_of_joins hupstream (joins_of_anchored hanchor)
  obtain rfl := List.mem_singleton.1 (hperm.mem_iff.1 hstart)
  have hlayer : ∀ t ∈ ttl :: ttls, ∃ start w, LayerWalk graph obs oriented.ends t start w := by
    intro t ht
    obtain ⟨frontier, arcs, hspreads, hsub⟩ := hrun.layer (List.mem_map_of_mem ht)
    obtain ⟨start, w, hlayer, -⟩ := hwalks t ht hspreads hsub
    exact ⟨start, w, hlayer⟩
  obtain ⟨ws, hws, hwalk⟩ := exists_walks hchain hfirst fun t ht =>
    hlayer t (List.mem_cons_of_mem _ ht)
  have hids := perm_linkIds hws
  refine ⟨⟨ws, ?_, hwalk, hids.nodup_iff.2 hnodup, fun lid => ?_⟩, ?_, ?_, ?_⟩
  · dsimp only
    rw [httls, List.forall₂_map_right_iff]
    exact hws
  · rw [hids.mem_iff, ← httls]
    exact mem_layers
  · dsimp only
    rw [httls, List.isChain_map]
    exact hchain.imp fun _ _ h => h.1
  · intro layer hlayer edge hedge
    obtain ⟨t, -, rfl⟩ := List.mem_map.1 hlayer
    obtain ⟨lid, -, rfl⟩ := List.mem_map.1 hedge
    rfl
  · intro layer hmem edge hedge
    obtain ⟨t, ht, rfl⟩ := List.mem_map.1 hmem
    obtain ⟨start, w, hwalk⟩ := hlayer t (httls ▸ ht)
    exact hwalk.along edge hedge

end Leg

/-- A forward leg that is certain, and not empty, is a walk from the source. -/
theorem forward_sound {graph : TopoGraph} {order : Leg → SetOrder}
    {observations : List PacketObservation} {sourceNode : String} {result : ReconstructionResult}
    (hgraph : graph.Simple)
    (h : reconstruct graph order observations sourceNode = .ok result)
    (hcertain : result.forward.classification = .certain) (hne : result.forward.layers ≠ []) :
    SoundLeg graph (observations.filter (·.direction = .forward)) sourceNode result.forward := by
  rw [reconstruct] at h
  obtain ⟨forward, hforward, h⟩ := bind_eq_ok.1 h
  obtain ⟨backward, -, h⟩ := bind_eq_ok.1 h
  obtain rfl := pure_eq_ok.1 h
  exact soundLeg_of_certain hgraph hforward hcertain hne

/-- Two links over a router. -/
def routerGraph : TopoGraph := ⟨[⟨"L0", "S", "R1"⟩, ⟨"L1", "R1", "D"⟩]⟩

theorem simple_routerGraph : routerGraph.Simple := ⟨by decide, by decide⟩

/-- One packet, forward. -/
def routerObservations : List PacketObservation :=
  [⟨"L0", 64, .forward, some "icmp:1:0"⟩, ⟨"L1", 63, .forward, some "icmp:1:0"⟩]

theorem ttlsDesc_routerObservations : ttlsDesc routerObservations = [64, 63] := by
  have hkeys : (layerLinks routerObservations).keys = [64, 63] := by decide
  rw [ttlsDesc, hkeys]
  simp [List.mergeSort]

theorem forward_sound_router :
    ∃ result, reconstruct routerGraph (fun _ => asAdded) routerObservations "S" = .ok result ∧
      SoundLeg routerGraph (routerObservations.filter (·.direction = .forward)) "S"
        result.forward := by
  have hleg : (reconstructLeg routerObservations routerGraph asAdded .forward "S").toOption.map
      (fun path => (path.classification, path.layers.length)) = some (.certain, 2) := by
    rw [reconstructLeg, ttlsDesc_routerObservations]
    decide +kernel
  rcases hforward : reconstructLeg routerObservations routerGraph asAdded .forward "S" with _ | path
  · rw [hforward] at hleg
    exact absurd hleg (by simp [Except.toOption])
  · rw [hforward] at hleg
    obtain ⟨hcertain, hlength⟩ := Prod.mk.inj (Option.some.inj hleg)
    have hne : path.layers ≠ [] := fun h => absurd hlength (by rw [h]; decide)
    -- Nothing is observed of the return leg.
    have hresult : reconstruct routerGraph (fun _ => asAdded) routerObservations "S" =
        .ok ⟨path, ⟨.back, [], [], .certain⟩, isAsymmetric path ⟨.back, [], [], .certain⟩⟩ := by
      have hall : routerObservations.filter (·.direction = .forward) = routerObservations := rfl
      rw [reconstruct, hall, hforward]
      rfl
    exact ⟨_, hresult, forward_sound simple_routerGraph hresult hcertain hne⟩

end Dnlab.FlowReconstruct
