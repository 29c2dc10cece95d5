import Dnlab.Services.FlowReconstruct.Layers
import Dnlab.Services.FlowReconstruct.Orientation
import Mathlib.Data.List.Dedup

/-!
# What a leg is made of

When all links are in the graph, a leg is reconstructed (`exists_reconstructLeg`),
with one edge for each observed link (`mem_edges`, `map_linkId_edges`). The
orientation of a link is the one it is given in the run that it is in
(`orient_spec`, `ends_eq_some`).
-/

namespace Dnlab.FlowReconstruct

open ExceptRules (bind_eq_ok pure_eq_ok)

variable {graph : TopoGraph} {order : SetOrder} {obs : List PacketObservation} {sourceNode : String}

/-! ## Known links -/

/-- The order in which the elements of sets were added. -/
def asAdded : SetOrder := ⟨fun _ l => l, fun _ l => l, fun _ _ => .refl _, fun _ _ => .refl _⟩

section Known

theorem exists_spread (order : SetOrder) (turns : ℕ) (visited frontier : List String)
    {remaining : List String} (h : ∀ lid ∈ remaining, graph.Knows lid) :
    ∃ arcs, spread graph order turns visited frontier remaining = .ok arcs := by
  induction turns generalizing visited frontier remaining with
  | zero => exact ⟨[], rfl⟩
  | succ turns ih =>
    rcases frontier with _ | ⟨node, frontier⟩
    · exact ⟨[], rfl⟩
    · have hknows : ∀ lid ∈ order.links visited remaining, graph.Knows lid := fun lid hlid =>
        h lid ((order.links_perm visited remaining).mem_iff.1 hlid)
      obtain ⟨more, hmore⟩ := ih _ _ fun lid hlid => h lid (List.mem_of_mem_filter hlid)
      exact ⟨_, bind_eq_ok.2 ⟨_, leaving_eq_ok.2 ⟨hknows, rfl⟩, bind_eq_ok.2 ⟨more, hmore, rfl⟩⟩⟩

theorem exists_orientRun (order : SetOrder) (upstream : List String) {run : List (List String)}
    (h : ∀ lid ∈ run.flatten, graph.Knows lid) :
    ∃ pairs, orientRun graph order upstream run = .ok pairs := by
  induction run generalizing upstream with
  | nil => exact ⟨[], rfl⟩
  | cons lids run ih =>
    rw [List.flatten_cons, List.forall_mem_append] at h
    obtain ⟨arcs, harcs⟩ := exists_spread order (upstream.length + lids.length) []
      (order.nodes lids upstream) h.1
    obtain ⟨more, hmore⟩ := ih _ h.2
    exact ⟨_, bind_eq_ok.2 ⟨_, bind_eq_ok.2 ⟨arcs, harcs, rfl⟩, bind_eq_ok.2 ⟨more, hmore, rfl⟩⟩⟩

theorem exists_layerNodes {lids : List String} (h : ∀ lid ∈ lids, graph.Knows lid) :
    ∃ nodes, layerNodes graph lids = .ok nodes := by
  induction lids with
  | nil => exact ⟨[], rfl⟩
  | cons lid lids ih =>
    rw [List.forall_mem_cons] at h
    obtain ⟨ends, hends⟩ := h.1
    obtain ⟨nodes, hnodes⟩ := ih h.2
    exact ⟨_, bind_eq_ok.2 ⟨ends, hends, bind_eq_ok.2 ⟨nodes, hnodes, rfl⟩⟩⟩

theorem exists_initialUpstream (sourceNode : String) {run : List (List String)} (h : ∀ lid ∈ run.flatten, graph.Knows lid) :
    ∃ upstream, initialUpstream graph run sourceNode = .ok upstream := by
  have hlayer {lids : List String} (hlids : lids ∈ run) : ∃ nodes, layerNodes graph lids = .ok nodes :=
    exists_layerNodes fun lid hlid => h lid (List.mem_flatten_of_mem hlids hlid)
  rcases run with _ | ⟨top, _ | ⟨second, run⟩⟩
  · exact ⟨[], rfl⟩
  · obtain ⟨nodes, hnodes⟩ := hlayer List.mem_cons_self
    rw [initialUpstream, List.headD_cons, hnodes]
    by_cases hsource : sourceNode ∈ nodes
    · exact ⟨_, if_pos hsource⟩
    · exact ⟨_, if_neg hsource⟩
  · obtain ⟨nodes, hnodes⟩ := hlayer List.mem_cons_self
    obtain ⟨nodes', hnodes'⟩ := hlayer (List.mem_cons_of_mem _ List.mem_cons_self)
    rw [initialUpstream, List.headD_cons, hnodes]
    by_cases hsource : sourceNode ∈ nodes
    · exact ⟨_, if_pos hsource⟩
    · exact ⟨_, (if_neg hsource).trans (bind_eq_ok.2 ⟨nodes', hnodes', rfl⟩)⟩

theorem exists_orient (order : SetOrder) (sourceNode : String) {runs : List (List (List String))}
    (h : ∀ lid ∈ runs.flatten.flatten, graph.Knows lid) :
    ∃ pairs, orient graph order sourceNode runs = .ok pairs := by
  induction runs with
  | nil => exact ⟨[], rfl⟩
  | cons run runs ih =>
    rw [List.flatten_cons, List.flatten_append, List.forall_mem_append] at h
    obtain ⟨upstream, hupstream⟩ := exists_initialUpstream sourceNode h.1
    obtain ⟨oriented, horiented⟩ := exists_orientRun order upstream h.1
    obtain ⟨more, hmore⟩ := ih h.2
    exact ⟨_, bind_eq_ok.2 ⟨upstream, hupstream, bind_eq_ok.2 ⟨oriented, horiented,
      bind_eq_ok.2 ⟨more, hmore, rfl⟩⟩⟩⟩

/-- Whether the source is at one of the links. -/
theorem anchored_eq (sourceNode : String) {lids : List String} (h : ∀ lid ∈ lids, graph.Knows lid) :
    ∃ b, anchored graph sourceNode lids = .ok b ∧
      (b = true ↔ ∃ lid ∈ lids, ∃ n, graph.Joins lid sourceNode n) := by
  induction lids with
  | nil => exact ⟨false, rfl, by simp⟩
  | cons lid lids ih =>
    rw [List.forall_mem_cons] at h
    obtain ⟨⟨⟨a, b⟩, hends⟩, hrest⟩ := h
    obtain ⟨found, hfound, hiff⟩ := ih hrest
    rw [anchored, hends, List.exists_mem_cons_iff, ← hiff]
    -- The first link that the source is at ends the search.
    by_cases hat : sourceNode = a ∨ sourceNode = b
    · refine ⟨true, if_pos hat, iff_of_true rfl (.inl ?_)⟩
      rcases hat with rfl | rfl
      · exact ⟨b, .inl hends⟩
      · exact ⟨a, .inr hends⟩
    · refine ⟨found, (if_neg hat).trans hfound, (or_iff_right ?_).symm⟩
      rintro ⟨n, hjoins | hjoins⟩ <;> obtain ⟨rfl, rfl⟩ := Prod.mk.inj (Except.ok.inj (hends.symm.trans hjoins))
      · exact hat (.inl rfl)
      · exact hat (.inr rfl)

theorem mem_layerNodes {lids nodes : List String} (h : layerNodes graph lids = .ok nodes) {n : String} :
    n ∈ nodes ↔ ∃ lid ∈ lids, ∃ b, graph.Joins lid n b := by
  induction lids generalizing nodes with
  | nil =>
    rw [layerNodes, pure_eq_ok] at h
    simp [← h]
  | cons lid lids ih =>
    rw [layerNodes] at h
    obtain ⟨⟨a, b⟩, hends, h⟩ := bind_eq_ok.1 h
    obtain ⟨nodes', hnodes, h⟩ := bind_eq_ok.1 h
    obtain rfl := pure_eq_ok.1 h
    have hjoins : (∃ c, graph.Joins lid n c) ↔ n = a ∨ n = b := by
      simp only [TopoGraph.Joins, hends, Except.ok.injEq, Prod.mk.injEq]
      grind
    rw [List.mem_dedup, List.mem_cons, List.mem_cons, ih hnodes, List.exists_mem_cons_iff, hjoins,
      or_assoc]

/-- The node is at one of the links. -/
def TopoGraph.Touches (graph : TopoGraph) (lids : List String) (n : String) : Prop :=
  ∃ lid ∈ lids, ∃ b, graph.Joins lid n b

/-- A run that the source is not at the top of begins where its second layer does not. -/
theorem mem_initialUpstream {top second upstream : List String} {run : List (List String)}
    (h : initialUpstream graph (top :: second :: run) sourceNode = .ok upstream)
    (hsource : ¬graph.Touches top sourceNode) (n : String) :
    n ∈ upstream ↔ graph.Touches top n ∧ ¬graph.Touches second n := by
  rw [initialUpstream] at h
  obtain ⟨nodes, hnodes, h⟩ := bind_eq_ok.1 h
  rw [if_neg (mt (mem_layerNodes hnodes).1 hsource)] at h
  obtain ⟨nodes', hnodes', h⟩ := bind_eq_ok.1 h
  obtain rfl := pure_eq_ok.1 h
  rw [List.mem_filter, decide_eq_true_eq, mem_layerNodes hnodes, mem_layerNodes hnodes']
  rfl

end Known

/-! ## Runs -/

section Runs

theorem flatten_runsFrom (current : List ℤ) (last : ℤ) (ttls : List ℤ) :
    (runsFrom current last ttls).flatten = current ++ ttls := by
  induction ttls generalizing current last with
  | nil => simp [runsFrom]
  | cons ttl ttls ih =>
    rw [runsFrom]
    split_ifs
    · rw [ih, List.append_assoc, List.singleton_append]
    · rw [List.flatten_cons, ih, List.singleton_append]

theorem flatten_contiguousRuns (ttls : List ℤ) : (contiguousRuns ttls).flatten = ttls := by
  rcases ttls with _ | ⟨ttl, ttls⟩
  · rfl
  · exact flatten_runsFrom [ttl] ttl ttls

/-- The layers of a leg, in its runs. -/
def runsOf (obs : List PacketObservation) : List (List (List String)) :=
  (contiguousRuns (ttlsDesc obs)).map (·.map (linksAt obs))

theorem flatten_runsOf (obs : List PacketObservation) :
    (runsOf obs).flatten = (ttlsDesc obs).map (linksAt obs) := by
  rw [runsOf, ← List.map_flatten, flatten_contiguousRuns]

end Runs

/-! ## Orientations -/

section Pairs

variable {upstream lids : List String} {run : List (List String)} {pairs : Oriented} {arcs : List Arc}

/-- What the pairs say of a link. -/
def Oriented.ends (pairs : Oriented) (lid : String) : Option (String × String) :=
  ((Dict.ofList pairs).get? lid).join

theorem ends_of_mem {lid : String} {ends : String × String} (hnodup : (pairs.map Prod.fst).Nodup)
    (h : (lid, some ends) ∈ pairs) : pairs.ends lid = some ends := by
  rw [Oriented.ends, (Dict.get?_ofList_of_nodup hnodup).2 h]
  rfl

theorem map_fst_orientedOf (lids : List String) (arcs : List Arc) :
    (orientedOf lids arcs).map Prod.fst =
      arcs.map Arc.linkId ++ lids.filter fun lid => lid ∉ arcs.map Arc.linkId := by
  simp [orientedOf, Function.comp_def]

theorem perm_orientedOf {frontier : List String} (h : Spreads graph frontier lids arcs)
    (hnodup : lids.Nodup) : ((orientedOf lids arcs).map Prod.fst).Perm lids := by
  rw [map_fst_orientedOf]
  -- The links that have arcs come first, those that have none after them.
  have hdisjoint : (arcs.map Arc.linkId ++ lids.filter fun lid => lid ∉ arcs.map Arc.linkId).Nodup := by
    refine (h.nodup hnodup).append (hnodup.filter _) fun lid hlid hleft => ?_
    exact of_decide_eq_true (List.mem_filter.1 hleft).2 hlid
  refine (List.perm_ext_iff_of_nodup hdisjoint hnodup).2 fun lid => ?_
  rw [List.mem_append, List.mem_filter, decide_eq_true_eq]
  constructor
  · rintro (hlid | ⟨hlid, -⟩)
    · obtain ⟨arc, harc, rfl⟩ := List.mem_map.1 hlid
      exact (h.mem harc).1
    · exact hlid
  · exact fun hlid => (em _).imp id fun hnot => ⟨hlid, hnot⟩

theorem RunOriented.perm (h : RunOriented graph upstream run pairs) (hnodup : run.flatten.Nodup) :
    (pairs.map Prod.fst).Perm run.flatten := by
  induction h with
  | nil => exact .refl _
  | cons _ hspreads _ ih =>
    rw [List.flatten_cons, List.nodup_append'] at hnodup
    rw [List.map_append, List.flatten_cons]
    exact (perm_orientedOf hspreads hnodup.1).append (ih hnodup.2.1)

theorem ends_eq_some {ends : String × String} {lid : String} (hnodup : (pairs.map Prod.fst).Nodup)
    (hsub : orientedOf lids arcs ⊆ pairs) (hlid : lid ∈ lids) :
    pairs.ends lid = some ends ↔ ⟨lid, ends.1, ends.2⟩ ∈ arcs := by
  have hof {v : Option (String × String)} (hmem : (lid, v) ∈ orientedOf lids arcs) :
      pairs.ends lid = v := by
    rw [Oriented.ends, (Dict.get?_ofList_of_nodup hnodup).2 (hsub hmem)]
    rfl
  have harcs {ends : String × String} (h : ⟨lid, ends.1, ends.2⟩ ∈ arcs) :
      pairs.ends lid = some ends :=
    hof (List.mem_append_left _ (List.mem_map.2 ⟨_, h, rfl⟩))
  refine ⟨fun h => ?_, harcs⟩
  -- A link without an arc has no ends.
  by_cases horiented : lid ∈ arcs.map Arc.linkId
  · obtain ⟨⟨_, src, dst⟩, harc, rfl⟩ := List.mem_map.1 horiented
    have hsame : pairs.ends _ = some (src, dst) := harcs harc
    obtain rfl := Option.some.inj (hsame.symm.trans h)
    exact harc
  · have hnone := hof (List.mem_append_right _ (List.mem_map.2
      ⟨lid, List.mem_filter.2 ⟨hlid, decide_eq_true horiented⟩, rfl⟩))
    exact absurd (hnone.symm.trans h) (by simp)

/-- Every run is oriented from its own beginning. -/
theorem orient_spec {runs : List (List (List String))}
    (h : orient graph order sourceNode runs = .ok pairs) (hrun : run ∈ runs) :
    ∃ upstream oriented, initialUpstream graph run sourceNode = .ok upstream ∧
      orientRun graph order upstream run = .ok oriented ∧ oriented ⊆ pairs := by
  induction runs generalizing pairs with
  | nil => exact absurd hrun List.not_mem_nil
  | cons first runs ih =>
    rw [orient] at h
    obtain ⟨upstream, hupstream, h⟩ := bind_eq_ok.1 h
    obtain ⟨oriented, horiented, h⟩ := bind_eq_ok.1 h
    obtain ⟨more, hmore, h⟩ := bind_eq_ok.1 h
    obtain rfl := pure_eq_ok.1 h
    rcases List.mem_cons.1 hrun with rfl | hrun
    · exact ⟨upstream, oriented, hupstream, horiented, List.subset_append_left _ _⟩
    · obtain ⟨upstream', oriented', hupstream', horiented', hsub⟩ := ih hmore hrun
      exact ⟨upstream', oriented', hupstream', horiented',
        List.subset_append_of_subset_right _ hsub⟩

theorem orient_perm {runs : List (List (List String))}
    (h : orient graph order sourceNode runs = .ok pairs) (hnodup : runs.flatten.flatten.Nodup) :
    (pairs.map Prod.fst).Perm runs.flatten.flatten := by
  induction runs generalizing pairs with
  | nil =>
    rw [orient, pure_eq_ok] at h
    exact h ▸ .refl _
  | cons first runs ih =>
    rw [orient] at h
    obtain ⟨upstream, -, h⟩ := bind_eq_ok.1 h
    obtain ⟨oriented, horiented, h⟩ := bind_eq_ok.1 h
    obtain ⟨more, hmore, h⟩ := bind_eq_ok.1 h
    obtain rfl := pure_eq_ok.1 h
    rw [List.flatten_cons, List.flatten_append, List.nodup_append'] at hnodup
    rw [List.map_append, List.flatten_cons, List.flatten_append]
    exact ((orientRun_spec horiented).perm hnodup.1).append (ih hmore hnodup.2.1)

end Pairs

/-! ## Edges -/

section Edges

/-- The edges of a leg. -/
def FlowPath.edges (path : FlowPath) : List FlowEdge := path.layers.flatMap FlowLayer.edges

variable (obs) in
/-- The edge of a link. -/
def edgeOf (oriented : String → Option (String × String)) (lid : String) : FlowEdge where
  linkId := lid
  srcNode := ((oriented lid).map Prod.fst).getD ""
  dstNode := ((oriented lid).map Prod.snd).getD ""
  ttl := ttlOf obs lid
  weight := countOn obs lid / total obs
  weightQuality := if keyed obs then .joint else .marginal

theorem edgesAt_eq (oriented : String → Option (String × String)) (ttl : ℤ) :
    edgesAt obs oriented ttl = (linksAt obs ttl).map (edgeOf obs oriented) := by
  refine List.map_congr_left fun lid hlid => ?_
  rw [edgeOf, (mem_linksAt.1 hlid).2]

/-- What a leg is, of which something was observed. -/
structure LegIs (graph : TopoGraph) (order : SetOrder) (obs : List PacketObservation) (leg : Leg)
    (sourceNode : String) (pairs : Oriented) (anchorOk : Bool) (path : FlowPath) : Prop where
  oriented : orient graph order sourceNode (runsOf obs) = .ok pairs
  anchored : FlowReconstruct.anchored graph sourceNode (linksAt obs
    (if leg = .forward then (ttlsDesc obs).headD 0 else (ttlsDesc obs).getLastD 0)) = .ok anchorOk
  layers : path.layers = (ttlsDesc obs).map (layerAt obs pairs.ends)
  segments : path.segments = FlowReconstruct.segments pairs.ends (linksAt obs) (ttlsDesc obs)
  classification : path.classification = classify path.layers path.segments anchorOk

theorem legIs_of_reconstructLeg {leg : Leg} {path : FlowPath} (hobs : obs ≠ [])
    (h : reconstructLeg obs graph order leg sourceNode = .ok path) :
    ∃ pairs anchorOk, LegIs graph order obs leg sourceNode pairs anchorOk path := by
  rw [reconstructLeg, if_neg hobs] at h
  obtain ⟨pairs, hpairs, h⟩ := bind_eq_ok.1 h
  obtain ⟨anchorOk, hanchor, h⟩ := bind_eq_ok.1 h
  obtain rfl := pure_eq_ok.1 h
  exact ⟨pairs, anchorOk, hpairs, hanchor, rfl, rfl, rfl⟩

theorem knows_layers (h : ∀ o ∈ obs, graph.Knows o.linkId) :
    ∀ lid ∈ ((ttlsDesc obs).map (linksAt obs)).flatten, graph.Knows lid := by
  intro lid hlid
  obtain ⟨o, ho, rfl⟩ := mem_layers.1 hlid
  exact h o ho

theorem exists_reconstructLeg (order : SetOrder) (sourceNode : String) (leg : Leg) (h : ∀ o ∈ obs, graph.Knows o.linkId) :
    ∃ path, reconstructLeg obs graph order leg sourceNode = .ok path := by
  by_cases hobs : obs = []
  · exact ⟨_, if_pos hobs⟩
  · have hruns : ∀ lid ∈ (runsOf obs).flatten.flatten, graph.Knows lid := by
      rw [flatten_runsOf]
      exact knows_layers h
    obtain ⟨pairs, hpairs⟩ := exists_orient order sourceNode hruns
    have hanchor (ttl : ℤ) : ∀ lid ∈ linksAt obs ttl, graph.Knows lid := by
      intro lid hlid
      obtain ⟨o, ho, rfl⟩ := (mem_linksAt.1 hlid).1
      exact h o ho
    obtain ⟨anchorOk, hanchor, -⟩ := anchored_eq sourceNode (hanchor
      (if leg = .forward then (ttlsDesc obs).headD 0 else (ttlsDesc obs).getLastD 0))
    rw [reconstructLeg, if_neg hobs]
    exact ⟨_, bind_eq_ok.2 ⟨pairs, hpairs, bind_eq_ok.2 ⟨anchorOk, hanchor, rfl⟩⟩⟩

variable {leg : Leg} {pairs : Oriented} {anchorOk : Bool} {path : FlowPath}

theorem LegIs.edges (h : LegIs graph order obs leg sourceNode pairs anchorOk path) :
    path.edges = ((ttlsDesc obs).map (linksAt obs)).flatten.map (edgeOf obs pairs.ends) := by
  rw [FlowPath.edges, h.layers, List.flatMap_map, List.map_flatten, List.map_map, List.flatMap_def]
  congr 1
  exact List.map_congr_left fun ttl _ => edgesAt_eq pairs.ends ttl

/-- There is one edge for each link that something was observed on. -/
theorem LegIs.mem_edges (h : LegIs graph order obs leg sourceNode pairs anchorOk path)
    {edge : FlowEdge} :
    edge ∈ path.edges ↔ ∃ lid, Observed obs lid ∧ edge = edgeOf obs pairs.ends lid := by
  rw [h.edges, List.mem_map]
  exact exists_congr fun lid => and_congr mem_layers eq_comm

theorem LegIs.nodup_edges (h : LegIs graph order obs leg sourceNode pairs anchorOk path) :
    (path.edges.map FlowEdge.linkId).Nodup := by
  rw [h.edges, List.map_map]
  have hid : FlowEdge.linkId ∘ edgeOf obs pairs.ends = id := rfl
  rw [hid, List.map_id]
  exact nodup_layers obs

theorem LegIs.nodup_pairs (h : LegIs graph order obs leg sourceNode pairs anchorOk path) :
    (pairs.map Prod.fst).Nodup := by
  have hnodup := nodup_layers obs
  rw [← flatten_runsOf] at hnodup
  exact (orient_perm h.oriented hnodup).nodup_iff.2 hnodup

theorem reconstruct_eq_ok {order : Leg → SetOrder} {result : ReconstructionResult} :
    reconstruct graph order observations sourceNode = .ok result ↔
      ∃ forward backward,
        reconstructLeg (observations.filter (·.direction = .forward)) graph (order .forward) .forward
          sourceNode = .ok forward ∧
        reconstructLeg (observations.filter (·.direction = .back)) graph (order .back) .back
          sourceNode = .ok backward ∧
        result = ⟨forward, backward, isAsymmetric forward backward⟩ := by
  rw [reconstruct]
  constructor
  · intro h
    obtain ⟨forward, hforward, h⟩ := bind_eq_ok.1 h
    obtain ⟨backward, hbackward, h⟩ := bind_eq_ok.1 h
    exact ⟨forward, backward, hforward, hbackward, (pure_eq_ok.1 h).symm⟩
  · rintro ⟨forward, backward, hforward, hbackward, rfl⟩
    exact bind_eq_ok.2 ⟨forward, hforward, bind_eq_ok.2 ⟨backward, hbackward, rfl⟩⟩

end Edges

end Dnlab.FlowReconstruct
