import Dnlab.Services.FlowReconstruct.Directions

/-!
# The TTLs that stand for links

Where several TTLs were observed equally often on a link, each of them may stand
for it (`Choice`): with the packets of those TTLs first, they do (`chosenFirst`).
What a settled leg is then does not depend on the order of the packets or of the
sets (`SameLayers`), and two legs are the same just when their links have the same
directions and weights and they are classified alike (`sameLeg_iff`).
-/

namespace Dnlab.FlowReconstruct

open ExceptRules (bind_eq_ok pure_eq_ok)

/-! ## The same layers -/

section Observed

variable {obs obs' : List PacketObservation} {lid : String}

theorem mostCommon_eq {ttls : List ℤ} {ttl : ℤ} (hne : ttls ≠ [])
    (h : ∀ t ≠ ttl, ttls.count t < ttls.count ttl) : mostCommon ttls = ttl := by
  have hmem : ttl ∈ ttls := by
    obtain ⟨t, ht⟩ := List.exists_mem_of_ne_nil ttls hne
    by_cases heq : t = ttl
    · exact heq ▸ ht
    · exact List.count_pos_iff.1 (Nat.zero_lt_of_lt (h t heq))
  rw [mostCommon]
  rcases hmax : ttls.argmax fun t => ttls.count t with _ | t
  · exact absurd (List.argmax_eq_none.1 hmax) hne
  · -- The value that is found is there at least as often as `ttl`.
    by_contra hother
    exact absurd (List.le_of_mem_argmax hmem hmax) (not_le_of_gt (h t hother))

/-- Of values that are there equally often, the first one counts. -/
theorem mostCommon_cons {ttl : ℤ} {ttls : List ℤ}
    (h : ∀ t, (ttl :: ttls).count t ≤ (ttl :: ttls).count ttl) : mostCommon (ttl :: ttls) = ttl := by
  rw [mostCommon, List.argmax_cons]
  rcases ttls.argmax fun t => (ttl :: ttls).count t with _ | t
  · rfl
  · dsimp only
    rw [if_neg (not_lt_of_ge (h t))]
    rfl

theorem ttlsOn_ne_nil (h : Observed obs lid) : ttlsOn obs lid ≠ [] := by
  obtain ⟨o, ho, rfl⟩ := h
  exact List.ne_nil_of_mem (List.mem_map_of_mem (List.mem_filter.2 ⟨ho, decide_eq_true rfl⟩))

/-- What is observed of a packet on a link, but for the TTL. -/
def PacketObservation.packet (o : PacketObservation) : String × Option String :=
  (o.linkId, o.instanceKey)

/-- The same packets on the same links, each of which the same TTL stands for. -/
structure SameLayers (obs obs' : List PacketObservation) : Prop where
  packets : (obs.map PacketObservation.packet).Perm (obs'.map PacketObservation.packet)
  ttl : ∀ lid, Observed obs lid → ttlOf obs lid = ttlOf obs' lid

theorem observed_iff : Observed obs lid ↔ ∃ p ∈ obs.map PacketObservation.packet, p.1 = lid := by
  constructor
  · rintro ⟨o, ho, rfl⟩
    exact ⟨_, List.mem_map_of_mem ho, rfl⟩
  · rintro ⟨p, hp, rfl⟩
    obtain ⟨o, ho, rfl⟩ := List.mem_map.1 hp
    exact ⟨o, ho, rfl⟩

theorem observed_congr (h : (obs.map PacketObservation.packet).Perm
    (obs'.map PacketObservation.packet)) (lid : String) : Observed obs lid ↔ Observed obs' lid := by
  rw [observed_iff, observed_iff]
  exact exists_congr fun _ => and_congr_left fun _ => h.mem_iff

theorem keyed_congr (h : (obs.map PacketObservation.packet).Perm
    (obs'.map PacketObservation.packet)) : keyed obs = keyed obs' := by
  have hkeyed (obs : List PacketObservation) :
      keyed obs = (obs.map PacketObservation.packet).all (·.2.isSome) := by
    rw [List.all_map]
    rfl
  rw [hkeyed, hkeyed, h.all_eq]

theorem keys_perm (h : (obs.map PacketObservation.packet).Perm
    (obs'.map PacketObservation.packet)) :
    (obs.map (·.instanceKey)).Perm (obs'.map (·.instanceKey)) := by
  have hkeys := h.map Prod.snd
  rw [List.map_map, List.map_map] at hkeys
  exact hkeys

/-- The keys of the packets on a link. -/
theorem keysOn_perm (h : (obs.map PacketObservation.packet).Perm
    (obs'.map PacketObservation.packet)) (lid : String) :
    (((obsByLink obs).getD lid []).map (·.instanceKey)).Perm
      (((obsByLink obs').getD lid []).map (·.instanceKey)) := by
  have hkeys := (h.filter (·.1 = lid)).map Prod.snd
  rw [List.filter_map, List.filter_map, List.map_map, List.map_map] at hkeys
  rw [getD_obsByLink, getD_obsByLink]
  exact hkeys

theorem lengthOn_congr (h : (obs.map PacketObservation.packet).Perm
    (obs'.map PacketObservation.packet)) (lid : String) :
    ((obsByLink obs).getD lid []).length = ((obsByLink obs').getD lid []).length := by
  have hlength := (keysOn_perm h lid).length_eq
  rwa [List.length_map, List.length_map] at hlength

theorem countOn_congr (h : (obs.map PacketObservation.packet).Perm
    (obs'.map PacketObservation.packet)) (lid : String) : countOn obs lid = countOn obs' lid := by
  rw [countOn, countOn, keyed_congr h]
  rw [lengthOn_congr h, (keysOn_perm h lid).dedup.length_eq]

theorem countOn_pos (h : Observed obs lid) : 0 < countOn obs lid := by
  have hne : (obsByLink obs).getD lid [] ≠ [] := by
    obtain ⟨o, ho, rfl⟩ := h
    rw [getD_obsByLink]
    exact List.ne_nil_of_mem (List.mem_filter.2 ⟨ho, decide_eq_true rfl⟩)
  rw [countOn]
  split_ifs
  · rw [List.length_pos_iff, ne_eq, List.dedup_eq_nil, List.map_eq_nil_iff]
    exact hne
  · exact List.length_pos_iff.2 hne

theorem total_pos (obs : List PacketObservation) : 0 < total obs := by
  rw [total]
  split_ifs <;> omega

theorem SameLayers.symm (h : SameLayers obs obs') : SameLayers obs' obs :=
  ⟨h.packets.symm, fun lid hlid => (h.ttl lid ((observed_congr h.packets lid).2 hlid)).symm⟩

theorem linksAt_perm (h : SameLayers obs obs') (ttl : ℤ) :
    (linksAt obs ttl).Perm (linksAt obs' ttl) := by
  refine (List.perm_ext_iff_of_nodup (nodup_linksAt obs ttl) (nodup_linksAt obs' ttl)).2 fun lid => ?_
  rw [mem_linksAt, mem_linksAt, ← observed_congr h.packets]
  exact and_congr_right fun hlid => by rw [h.ttl lid hlid]

theorem ttlsDesc_congr (h : SameLayers obs obs') : ttlsDesc obs = ttlsDesc obs' :=
  ttlsDesc_eq (pairwise_ttlsDesc obs') fun _ => mem_ttlsDesc.trans
    (exists_congr fun _ => (linksAt_perm h _).mem_iff.symm)

theorem runsOf_perm (h : SameLayers obs obs') :
    List.Forall₂ (List.Forall₂ List.Perm) (runsOf obs) (runsOf obs') := by
  rw [runsOf, runsOf, ← ttlsDesc_congr h, List.forall₂_map_left_iff,
    List.forall₂_map_right_iff, List.forall₂_same]
  intro ttls _
  rw [List.forall₂_map_left_iff, List.forall₂_map_right_iff, List.forall₂_same]
  exact fun ttl _ => linksAt_perm h ttl

theorem total_congr (h : SameLayers obs obs') : total obs = total obs' := by
  have hsum (lids : List String) :
      (lids.map fun lid => ((obsByLink obs).getD lid []).length) =
        lids.map fun lid => ((obsByLink obs').getD lid []).length :=
    List.map_congr_left fun lid _ => lengthOn_congr h.packets lid
  rw [total, total, keyed_congr h.packets, ttlsDesc_congr h]
  rw [(keys_perm h.packets).dedup.length_eq, hsum, ((linksAt_perm h _).map _).sum_nat]

end Observed

/-! ## Choices -/

section Choices

variable {obs obs' : List PacketObservation} {lid : String} {ttl : String → ℤ}

/-- A TTL for each link, of those that were observed on it most often. -/
def Choice (obs : List PacketObservation) (ttl : String → ℤ) : Prop :=
  ∀ lid, Observed obs lid → ∀ t, (ttlsOn obs lid).count t ≤ (ttlsOn obs lid).count (ttl lid)

/-- The packets on every link, with the TTL that stands for it. -/
def chosen (obs : List PacketObservation) (ttl : String → ℤ) : List PacketObservation :=
  obs.map fun o => { o with ttl := ttl o.linkId }

/-- The packets with the TTLs that stand for their links come first. -/
def chosenFirst (obs : List PacketObservation) (ttl : String → ℤ) : List PacketObservation :=
  obs.filter (fun o => o.ttl = ttl o.linkId) ++ obs.filter (fun o => !decide (o.ttl = ttl o.linkId))

theorem chosenFirst_perm (obs : List PacketObservation) (ttl : String → ℤ) :
    (chosenFirst obs ttl).Perm obs := List.filter_append_perm _ _

theorem filter_chosenFirst (obs : List PacketObservation) (ttl : String → ℤ) (leg : Leg) :
    (chosenFirst obs ttl).filter (·.direction = leg) =
      chosenFirst (obs.filter (·.direction = leg)) ttl := by
  simp only [chosenFirst, List.filter_append, List.filter_filter, Bool.and_comm]

theorem ttlsOn_perm (h : obs.Perm obs') (lid : String) : (ttlsOn obs lid).Perm (ttlsOn obs' lid) :=
  (h.filter _).map _

theorem packets_chosen (obs : List PacketObservation) (ttl : String → ℤ) :
    (chosen obs ttl).map PacketObservation.packet = obs.map PacketObservation.packet := by
  rw [chosen, List.map_map]
  rfl

theorem observed_chosen : Observed (chosen obs ttl) lid ↔ Observed obs lid :=
  observed_congr (.of_eq (packets_chosen obs ttl)) lid

/-- The TTL that stands for a link is one of those observed on it most often. -/
theorem choice_ttlOf (obs : List PacketObservation) : Choice obs (ttlOf obs) := by
  intro lid _ t
  -- A TTL that was not observed on the link counts for nothing.
  by_cases ht : t ∈ ttlsOn obs lid
  · rw [ttlOf, mostCommon]
    rcases hargmax : (ttlsOn obs lid).argmax fun t => (ttlsOn obs lid).count t with _ | u
    · exact absurd (List.argmax_eq_none.1 hargmax) (List.ne_nil_of_mem ht)
    · exact List.le_of_mem_argmax ht hargmax
  · rw [List.count_eq_zero.2 ht]
    exact Nat.zero_le _

theorem choice_congr (h : obs.Perm obs') : Choice obs ttl ↔ Choice obs' ttl := by
  refine forall_congr' fun lid => imp_congr
    (observed_congr (h.map PacketObservation.packet) lid) (forall_congr' fun t => ?_)
  rw [(ttlsOn_perm h lid).count_eq, (ttlsOn_perm h lid).count_eq]

theorem ttlOf_chosen (hlid : Observed obs lid) : ttlOf (chosen obs ttl) lid = ttl lid := by
  have hall : ∀ t ∈ ttlsOn (chosen obs ttl) lid, t = ttl lid := by
    intro t ht
    obtain ⟨o, ho, rfl⟩ := List.mem_map.1 ht
    obtain ⟨hmem, hlink⟩ := List.mem_filter.1 ho
    obtain ⟨o, -, rfl⟩ := List.mem_map.1 hmem
    exact congrArg ttl (of_decide_eq_true hlink)
  have hobserved : Observed (chosen obs ttl) lid := observed_chosen.2 hlid
  have hne := ttlsOn_ne_nil hobserved
  exact hall _ (mostCommon_mem hne)

/-- The packets with the TTLs that stand for their links have the layers of the choice. -/
theorem sameLayers_chosen (hperm : obs'.Perm obs)
    (h : ∀ lid, Observed obs lid → ttlOf obs' lid = ttl lid) : SameLayers obs' (chosen obs ttl) where
  packets := by
    rw [packets_chosen]
    exact hperm.map _
  ttl lid hlid := by
    have hlid' := (observed_congr (hperm.map PacketObservation.packet) lid).1 hlid
    rw [ttlOf_chosen hlid', h lid hlid']

/-- With the packets of a choice first, its TTLs stand for the links. -/
theorem ttlOf_chosenFirst (h : Choice obs ttl) (hlid : Observed obs lid) :
    ttlOf (chosenFirst obs ttl) lid = ttl lid := by
  obtain ⟨t, ht⟩ := List.exists_mem_of_ne_nil _ (ttlsOn_ne_nil hlid)
  have hmem : ttl lid ∈ ttlsOn obs lid :=
    List.count_pos_iff.1 (lt_of_lt_of_le (List.count_pos_iff.2 ht) (h lid hlid t))
  obtain ⟨o, ho, hottl⟩ := List.mem_map.1 hmem
  -- A packet with the TTL is among the first ones, and all of these on the link have it.
  have hfirst : ∃ rest, ttlsOn (chosenFirst obs ttl) lid = ttl lid :: rest := by
    rw [ttlsOn, chosenFirst, List.filter_append, List.map_append]
    have hall : ∀ t ∈ ((obs.filter fun o => o.ttl = ttl o.linkId).filter (·.linkId = lid)).map
        (·.ttl), t = ttl lid := by
      intro t ht
      obtain ⟨o, ho, rfl⟩ := List.mem_map.1 ht
      obtain ⟨hmem, hlink⟩ := List.mem_filter.1 ho
      rw [of_decide_eq_true (List.mem_filter.1 hmem).2, of_decide_eq_true hlink]
    obtain ⟨hobs, hlink⟩ := List.mem_filter.1 ho
    have hlink := of_decide_eq_true hlink
    have hin : o ∈ (obs.filter fun o => o.ttl = ttl o.linkId).filter (·.linkId = lid) :=
      List.mem_filter.2 ⟨List.mem_filter.2 ⟨hobs, decide_eq_true (by rw [hlink]; exact hottl)⟩,
        decide_eq_true hlink⟩
    rcases hl : ((obs.filter fun o => o.ttl = ttl o.linkId).filter (·.linkId = lid)).map
        (·.ttl) with _ | ⟨t, rest⟩
    · exact absurd (List.map_eq_nil_iff.1 hl) (List.ne_nil_of_mem hin)
    · rw [hl] at hall
      exact ⟨_, by rw [hl, List.cons_append, hall t List.mem_cons_self]⟩
  obtain ⟨rest, hrest⟩ := hfirst
  -- The order does not change how often a TTL was observed.
  have hcounts := ttlsOn_perm (chosenFirst_perm obs ttl) lid
  rw [ttlOf, hrest]
  rw [hrest] at hcounts
  refine mostCommon_cons fun t => ?_
  rw [hcounts.count_eq, hcounts.count_eq]
  exact h lid hlid t

end Choices

/-! ## Layers and segments -/

section Layers

variable {oriented : String → Option (String × String)} {lids lids' : List String}

variable (oriented) in
theorem srcsOf_perm (h : lids.Perm lids') : (srcsOf oriented lids).Perm (srcsOf oriented lids') :=
  h.filterMap _

variable (oriented) in
theorem dstsOf_perm (h : lids.Perm lids') : (dstsOf oriented lids).Perm (dstsOf oriented lids') :=
  h.filterMap _

variable (oriented) in
theorem layerEntryNodes_perm (h : lids.Perm lids') :
    (layerEntryNodes oriented lids).Perm (layerEntryNodes oriented lids') := by
  have hdsts := dstsOf_perm oriented h
  rw [layerEntryNodes, layerEntryNodes]
  simp only [hdsts.mem_iff]
  exact ((srcsOf_perm oriented h).filter _).dedup

variable (oriented) in
theorem layerExitNodes_perm (h : lids.Perm lids') :
    (layerExitNodes oriented lids).Perm (layerExitNodes oriented lids') := by
  have hsrcs := srcsOf_perm oriented h
  rw [layerExitNodes, layerExitNodes]
  simp only [hsrcs.mem_iff]
  exact ((dstsOf_perm oriented h).filter _).dedup

theorem adjacencyOk_congr {lo lo' : List String} (h : lids.Perm lids') (hlo : lo.Perm lo') :
    adjacencyOk oriented lids lo = adjacencyOk oriented lids' lo' := by
  have hexits := layerExitNodes_perm oriented h
  have hentries := layerEntryNodes_perm oriented hlo
  have hnil {l l' : List String} (h : l.Perm l') : (l ≠ []) = (l' ≠ []) := by
    rw [ne_eq, ne_eq, ← List.length_eq_zero_iff, ← List.length_eq_zero_iff, h.length_eq]
  rw [adjacencyOk, adjacencyOk]
  simp only [hnil hexits, hnil hentries, hexits.mem_iff, hentries.all_eq]

theorem ttlLayerIsEcmp_congr (h : lids.Perm lids') :
    ttlLayerIsEcmp oriented lids = ttlLayerIsEcmp oriented lids' := by
  have hsrcs := srcsOf_perm oriented h
  have hdsts := dstsOf_perm oriented h
  have hnodes := (hsrcs.append hdsts).dedup
  rw [ttlLayerIsEcmp, ttlLayerIsEcmp]
  simp only [h.length_eq, h.any_eq, hsrcs.count_eq, hdsts.count_eq, (hnodes.filter _).length_eq,
    hnodes.any_eq]

end Layers

/-! ## Legs -/

section Legs

variable (graph : TopoGraph) (sourceNode : String) (leg : Leg) (obs : List PacketObservation)

/-- Nothing is missing from a leg: the source is at its first layer (at its last one on the way
    back), all links have directions, and the layers follow on each other. -/
structure Complete : Prop where
  anchored : graph.Touches (linksAt obs
    (if leg = .forward then (ttlsDesc obs).headD 0 else (ttlsDesc obs).getLastD 0)) sourceNode
  directed : ∀ lid, Observed obs lid → directions graph sourceNode obs lid ≠ none
  joined : Joined (directions graph sourceNode obs) (linksAt obs) (ttlsDesc obs)

/-- Some layer of a leg is not one walk. -/
def Split : Prop :=
  ∃ ttl ∈ ttlsDesc obs, ttlLayerIsEcmp (directions graph sourceNode obs) (linksAt obs ttl) = true

variable {graph sourceNode leg obs} {order order' : SetOrder} {obs' : List PacketObservation}
  {pairs pairs' : Oriented} {anchorOk anchorOk' : Bool} {path path' : FlowPath}

theorem complete_congr (h : SameLayers obs obs') :
    Complete graph sourceNode leg obs ↔ Complete graph sourceNode leg obs' := by
  have key {obs obs' : List PacketObservation} (h : SameLayers obs obs')
      (hcomplete : Complete graph sourceNode leg obs) : Complete graph sourceNode leg obs' := by
    refine ⟨?_, fun lid hlid => ?_, ?_⟩
    · rw [← ttlsDesc_congr h]
      exact (touches_congr (linksAt_perm h _) _).1 hcomplete.anchored
    · rw [← directions_congr (runsOf_perm h)]
      exact hcomplete.directed lid ((observed_congr h.packets lid).2 hlid)
    · rw [Joined, ← directions_congr (runsOf_perm h), ← ttlsDesc_congr h]
      refine hcomplete.joined.imp fun hi lo hjoined => ⟨hjoined.1, ?_⟩
      rw [← adjacencyOk_congr (linksAt_perm h hi) (linksAt_perm h lo)]
      exact hjoined.2
  exact ⟨key h, key h.symm⟩

theorem split_congr (h : SameLayers obs obs') :
    Split graph sourceNode obs ↔ Split graph sourceNode obs' := by
  rw [Split, Split, directions_congr (runsOf_perm h), ttlsDesc_congr h]
  exact exists_congr fun ttl => and_congr_right fun _ => by
    rw [ttlLayerIsEcmp_congr (linksAt_perm h ttl)]

/-- A leg is classified as incomplete just when something is missing from it. -/
theorem LegIs.incomplete_iff (h : LegIs graph order obs leg sourceNode pairs anchorOk path)
    (hsettled : Settled graph sourceNode obs) (hknows : ∀ o ∈ obs, graph.Knows o.linkId) :
    path.classification ≠ .incomplete ↔ Complete graph sourceNode leg obs := by
  have hends := h.ends_eq hsettled
  have hanchor : anchorOk = true ↔ graph.Touches (linksAt obs
      (if leg = .forward then (ttlsDesc obs).headD 0 else (ttlsDesc obs).getLastD 0)) sourceNode := by
    obtain ⟨b, hb, hiff⟩ := anchored_eq sourceNode fun lid hlid => by
      obtain ⟨o, ho, rfl⟩ := (mem_linksAt.1 hlid).1
      exact hknows o ho
    obtain rfl := Except.ok.inj (h.anchored.symm.trans hb)
    exact hiff
  have hlayers : (∀ layer ∈ path.layers, layer.state ≠ .unresolved) ↔
      ∀ lid, Observed obs lid → directions graph sourceNode obs lid ≠ none := by
    rw [h.layers, List.forall_mem_map, ← hends]
    simp only [layerAt, layerState_ne_unresolved, ← @mem_layers obs, List.mem_flatten,
      List.mem_map]
    constructor
    · rintro hall lid ⟨_, ⟨ttl, httl, rfl⟩, hlid⟩
      exact hall ttl httl lid hlid
    · exact fun hall ttl httl lid hlid => hall lid ⟨_, ⟨ttl, httl, rfl⟩, hlid⟩
  have hsegments := segments_resolved pairs.ends (linksAt obs) (pairwise_ttlsDesc obs)
  rw [← h.segments, hends] at hsegments
  -- The three things that `classify` looks at before it asks for a split.
  have hclassify : path.classification ≠ .incomplete ↔ anchorOk = true ∧
      (∀ layer ∈ path.layers, layer.state ≠ .unresolved) ∧
        ∀ s ∈ path.segments, s.state ≠ .unresolved := by
    rw [h.classification, classify]
    split_ifs with hbad hecmp
    · simp only [List.any_eq_true, decide_eq_true_eq] at hbad
      grind
    · simpa using hbad
    · simpa using hbad
  rw [hclassify, hanchor, hlayers, hsegments]
  exact ⟨fun ⟨hat, hall, hjoined⟩ => ⟨hat, hall, hjoined⟩,
    fun hcomplete => ⟨hcomplete.anchored, hcomplete.directed, hcomplete.joined⟩⟩

/-- A leg that nothing is missing from is classified as one of several paths just when a layer of it
    is not one walk. -/
theorem LegIs.multipath_iff (h : LegIs graph order obs leg sourceNode pairs anchorOk path)
    (hsettled : Settled graph sourceNode obs) (hcomplete : Complete graph sourceNode leg obs)
    (hne : path.classification ≠ .incomplete) :
    path.classification = .multipath ↔ Split graph sourceNode obs := by
  have hends := h.ends_eq hsettled
  have hsplit : (∃ layer ∈ path.layers, layer.state = .ecmp) ↔ Split graph sourceNode obs := by
    rw [h.layers, hends, Split]
    constructor
    · rintro ⟨_, hlayer, hstate⟩
      obtain ⟨ttl, httl, rfl⟩ := List.mem_map.1 hlayer
      refine ⟨ttl, httl, (layerState_eq_ecmp fun lid hlid => ?_).1 hstate⟩
      exact hcomplete.directed lid (mem_linksAt.1 hlid).1
    · rintro ⟨ttl, httl, hecmp⟩
      refine ⟨_, List.mem_map_of_mem httl, (layerState_eq_ecmp fun lid hlid => ?_).2 hecmp⟩
      exact hcomplete.directed lid (mem_linksAt.1 hlid).1
  rw [← hsplit]
  rw [h.classification, classify] at hne ⊢
  -- The first branch is that of an incomplete leg.
  split_ifs at hne ⊢ with hbad hecmp
  · exact absurd rfl hne
  · simpa using hecmp
  · refine iff_of_false (by simp) ?_
    simpa using hecmp

/-- The link of an edge in its direction, and its weight: all but its TTL. -/
def FlowEdge.weighted (edge : FlowEdge) : Arc × ℚ × Quality :=
  (⟨edge.linkId, edge.srcNode, edge.dstNode⟩, edge.weight, edge.weightQuality)

/-- The same links in the same directions, with the same weights, and the same classification. -/
structure SameLeg (path path' : FlowPath) : Prop where
  edges : ∀ e, e ∈ path.edges.map FlowEdge.weighted ↔ e ∈ path'.edges.map FlowEdge.weighted
  classification : path.classification = path'.classification

theorem SameLeg.symm (h : SameLeg path path') : SameLeg path' path :=
  ⟨fun e => (h.edges e).symm, h.classification.symm⟩

theorem SameLeg.trans {path'' : FlowPath} (h : SameLeg path path') (h' : SameLeg path' path'') :
    SameLeg path path'' :=
  ⟨fun e => (h.edges e).trans (h'.edges e), h.classification.trans h'.classification⟩

theorem LegIs.mem_weighted (h : LegIs graph order obs leg sourceNode pairs anchorOk path)
    {e : Arc × ℚ × Quality} : e ∈ path.edges.map FlowEdge.weighted ↔
      ∃ lid, Observed obs lid ∧ e = (edgeOf obs pairs.ends lid).weighted := by
  rw [List.mem_map]
  constructor
  · rintro ⟨edge, hedge, rfl⟩
    obtain ⟨lid, hlid, rfl⟩ := h.mem_edges.1 hedge
    exact ⟨lid, hlid, rfl⟩
  · rintro ⟨lid, hlid, rfl⟩
    exact ⟨_, h.mem_edges.2 ⟨lid, hlid, rfl⟩, rfl⟩

/-- The same leg has the same edge for each link. -/
theorem SameLeg.weighted_eq (hsame : SameLeg path path')
    (h : LegIs graph order obs leg sourceNode pairs anchorOk path)
    (h' : LegIs graph order' obs' leg sourceNode pairs' anchorOk' path') {lid : String}
    (hlid : Observed obs lid) :
    (edgeOf obs pairs.ends lid).weighted = (edgeOf obs' pairs'.ends lid).weighted := by
  obtain ⟨lid', -, heq⟩ := h'.mem_weighted.1
    ((hsame.edges _).1 (h.mem_weighted.2 ⟨lid, hlid, rfl⟩))
  have hid : lid = lid' := congrArg (fun e => e.1.linkId) heq
  rw [heq, hid]

end Legs

end Dnlab.FlowReconstruct
