import Dnlab.Services.FlowReconstruct.Choices

/-!
# When the order does not matter

The legs are the same for all orders of the observations and of the sets that are
gone through just when they are steady (`order_free_iff`): whichever of its most
common TTLs stands for each link, no link of a layer is between two nodes of the
same round, and no direction, weight or classification depends on the choice. When
one TTL was observed more often than any other on every link, there is only one
choice (`steady_of_decided`).
-/

namespace Dnlab.FlowReconstruct

open ExceptRules (bind_eq_ok pure_eq_ok)

/-! ## Steady legs -/

section Steady

variable (graph : TopoGraph) (sourceNode : String) (leg : Leg) (obs obs' : List PacketObservation)

/-- Two choices of TTLs do not differ in the directions of links (a link without one has no names
    for its ends), in the number that packets are weighed by, in whether something is missing, or
    else in whether a layer is split. -/
structure Alike : Prop where
  drawn : ∀ lid, Observed obs lid → (directions graph sourceNode obs lid).getD ("", "") =
    (directions graph sourceNode obs' lid).getD ("", "")
  total : total obs = FlowReconstruct.total obs'
  complete : Complete graph sourceNode leg obs ↔ Complete graph sourceNode leg obs'
  split : Complete graph sourceNode leg obs →
    (Split graph sourceNode obs ↔ Split graph sourceNode obs')

/-- Whichever of its most common TTLs stands for each link, no layer has a link between two nodes
    of the same round, and the leg is alike. -/
structure Steady : Prop where
  settled : ∀ ttl, Choice obs ttl → Settled graph sourceNode (chosen obs ttl)
  alike : ∀ ttl ttl', Choice obs ttl → Choice obs ttl' →
    Alike graph sourceNode leg (chosen obs ttl) (chosen obs ttl')

variable {graph sourceNode leg obs obs'} {order order' : SetOrder} {pairs pairs' : Oriented}
  {anchorOk anchorOk' : Bool} {path path' : FlowPath}

theorem Alike.rfl : Alike graph sourceNode leg obs obs :=
  ⟨fun _ _ => Eq.refl _, Eq.refl _, Iff.rfl, fun _ => Iff.rfl⟩

theorem alike_congr {obs₁ obs₁' : List PacketObservation} (h : SameLayers obs obs₁)
    (h' : SameLayers obs' obs₁') (halike : Alike graph sourceNode leg obs obs') :
    Alike graph sourceNode leg obs₁ obs₁' where
  drawn lid hlid := by
    rw [← directions_congr (runsOf_perm h), ← directions_congr (runsOf_perm h')]
    exact halike.drawn lid ((observed_congr h.packets lid).2 hlid)
  total := by rw [← total_congr h, ← total_congr h', halike.total]
  complete := by rw [← complete_congr h, ← complete_congr h', halike.complete]
  split hcomplete := by
    rw [← split_congr h, ← split_congr h']
    exact halike.split ((complete_congr h).2 hcomplete)

theorem weighted_edgeOf (oriented : String → Option (String × String)) (lid : String) :
    (edgeOf obs oriented lid).weighted =
      (Arc.mk lid ((oriented lid).getD ("", "")).1 ((oriented lid).getD ("", "")).2,
        (countOn obs lid / FlowReconstruct.total obs : ℚ),
        if keyed obs then Quality.joint else .marginal) := by
  rcases hends : oriented lid with _ | ends <;> simp [FlowEdge.weighted, edgeOf, hends]

/-- Two settled legs of the same packets are the same just when they are alike. -/
theorem sameLeg_iff (h : LegIs graph order obs leg sourceNode pairs anchorOk path)
    (h' : LegIs graph order' obs' leg sourceNode pairs' anchorOk' path') (hobs : obs ≠ [])
    (hperm : obs.Perm obs') (hsettled : Settled graph sourceNode obs)
    (hsettled' : Settled graph sourceNode obs') (hknows : ∀ o ∈ obs, graph.Knows o.linkId) :
    SameLeg path path' ↔ Alike graph sourceNode leg obs obs' := by
  have hpackets := hperm.map PacketObservation.packet
  have hincomplete := h.incomplete_iff hsettled hknows
  have hincomplete' := h'.incomplete_iff hsettled' fun o ho => hknows o (hperm.mem_iff.2 ho)
  have hends := h.ends_eq hsettled
  have hends' := h'.ends_eq hsettled'
  constructor
  · intro hsame
    have hweighted {lid : String} (hlid : Observed obs lid) := hsame.weighted_eq h h' hlid
    rw [hsame.classification, hincomplete'] at hincomplete
    refine ⟨fun lid hlid => ?_, ?_, hincomplete.symm, fun hcomplete => ?_⟩
    · have harc := congrArg Prod.fst (hweighted hlid)
      rw [weighted_edgeOf, weighted_edgeOf, hends, hends'] at harc
      obtain ⟨-, hsrc, hdst⟩ := Arc.mk.inj harc
      exact Prod.ext hsrc hdst
    · -- The weights of some link are equal, and so is the number of its packets.
      obtain ⟨o, ho⟩ := List.exists_mem_of_ne_nil _ hobs
      have hlid : Observed obs o.linkId := ⟨o, ho, Eq.refl _⟩
      have hweight : (countOn obs o.linkId : ℚ) / total obs = countOn obs' o.linkId / total obs' :=
        congrArg (fun e => e.2.1) (hweighted hlid)
      have hcount : (countOn obs o.linkId : ℚ) ≠ 0 := by
        exact_mod_cast (countOn_pos hlid).ne'
      rw [← countOn_congr hpackets, div_eq_div_iff (by exact_mod_cast (total_pos obs).ne')
        (by exact_mod_cast (total_pos obs').ne')] at hweight
      exact_mod_cast (mul_left_cancel₀ hcount hweight).symm
    · have hmulti := h.multipath_iff hsettled hcomplete (by
        rw [hsame.classification]
        exact hincomplete'.2 (hincomplete.2 hcomplete))
      have hmulti' := h'.multipath_iff hsettled' (hincomplete.2 hcomplete)
        (hincomplete'.2 (hincomplete.2 hcomplete))
      rw [← hmulti, ← hmulti', hsame.classification]
  · intro halike
    have hedge (lid : String) (hlid : Observed obs lid) :
        (edgeOf obs pairs.ends lid).weighted = (edgeOf obs' pairs'.ends lid).weighted := by
      rw [weighted_edgeOf, weighted_edgeOf, hends, hends', halike.drawn lid hlid, halike.total,
        countOn_congr hpackets, keyed_congr hpackets]
    refine ⟨fun e => ?_, ?_⟩
    · rw [h.mem_weighted, h'.mem_weighted]
      refine exists_congr fun lid => ?_
      rw [← observed_congr hpackets]
      exact and_congr_right fun hlid => by rw [hedge lid hlid]
    · by_cases hcomplete : Complete graph sourceNode leg obs
      · have hne := hincomplete.2 hcomplete
        have hne' := hincomplete'.2 (halike.complete.1 hcomplete)
        have hmulti := h.multipath_iff hsettled hcomplete hne
        have hmulti' := h'.multipath_iff hsettled' (halike.complete.1 hcomplete) hne'
        rw [halike.split hcomplete, ← hmulti'] at hmulti
        rcases hc : path.classification with _ | _ | _ <;>
          rcases hc' : path'.classification with _ | _ | _ <;> simp_all
      · have hnot := mt hincomplete.1 hcomplete
        have hnot' := mt hincomplete'.1 (mt halike.complete.2 hcomplete)
        rw [not_not] at hnot hnot'
        rw [hnot, hnot']

/-- On every link one TTL was observed more often than any other. -/
def Decided (obs : List PacketObservation) : Prop :=
  ∀ lid, Observed obs lid → ∃ ttl, ∀ t ≠ ttl, (ttlsOn obs lid).count t < (ttlsOn obs lid).count ttl

/-- Then there is only one choice. -/
theorem Choice.eq_of_decided {ttl : String → ℤ} {lid : String} (h : Choice obs ttl)
    (hdecided : Decided obs) (hlid : Observed obs lid) : ttlOf obs lid = ttl lid := by
  obtain ⟨t, ht⟩ := hdecided lid hlid
  have hmost : ttl lid = t := by
    by_contra hne
    exact absurd (h lid hlid t) (not_le_of_gt (ht _ hne))
  rw [ttlOf, mostCommon_eq (ttlsOn_ne_nil hlid) ht, hmost]

theorem steady_of_decided (hdecided : Decided obs) (hsettled : Settled graph sourceNode obs) :
    Steady graph sourceNode leg obs where
  settled ttl httl := (settled_congr (runsOf_perm (sameLayers_chosen (.refl obs) fun _ hlid =>
    httl.eq_of_decided hdecided hlid))).1 hsettled
  alike ttl ttl' httl httl' := by
    have heq : chosen obs ttl = chosen obs ttl' := by
      refine List.map_congr_left fun o ho => ?_
      have hlid : Observed obs o.linkId := ⟨o, ho, Eq.refl _⟩
      rw [← httl.eq_of_decided hdecided hlid, httl'.eq_of_decided hdecided hlid]
    rw [heq]
    exact .rfl

end Steady

/-! ## Both legs -/

section Both

variable {graph : TopoGraph} {observations : List PacketObservation} {sourceNode : String}
  {result : ReconstructionResult} {order : Leg → SetOrder}

/-- A leg of the result. -/
def ReconstructionResult.path (result : ReconstructionResult) : Leg → FlowPath
  | .forward => result.forward
  | .back => result.backward

theorem path_of_reconstruct (h : reconstruct graph order observations sourceNode = .ok result)
    (leg : Leg) :
    reconstructLeg (observations.filter (·.direction = leg)) graph (order leg) leg sourceNode =
      .ok (result.path leg) := by
  obtain ⟨forward, backward, hforward, hbackward, rfl⟩ := reconstruct_eq_ok.1 h
  rcases leg with _ | _
  · exact hforward
  · exact hbackward

theorem exists_reconstruct (sourceNode : String) (hknows : ∀ o ∈ observations, graph.Knows o.linkId)
    (order : Leg → SetOrder) :
    ∃ result, reconstruct graph order observations sourceNode = .ok result := by
  have hleg (leg : Leg) := exists_reconstructLeg (order leg) sourceNode leg
    fun o (ho : o ∈ observations.filter (·.direction = leg)) => hknows o (List.mem_of_mem_filter ho)
  obtain ⟨forward, hforward⟩ := hleg .forward
  obtain ⟨backward, hbackward⟩ := hleg .back
  exact ⟨_, reconstruct_eq_ok.2 ⟨forward, backward, hforward, hbackward, rfl⟩⟩

variable (graph observations sourceNode) in
/-- Whatever the order of the observations and of the sets, the legs are the same. -/
def OrderFree : Prop :=
  ∀ observations', observations'.Perm observations → ∀ order order' : Leg → SetOrder,
    ∃ result result', reconstruct graph order observations sourceNode = .ok result ∧
      reconstruct graph order' observations' sourceNode = .ok result' ∧
      ∀ leg, SameLeg (result.path leg) (result'.path leg)

/-- Then any two orders give the same legs. -/
theorem OrderFree.sameLeg (h : OrderFree graph observations sourceNode)
    {observations₁ observations₂ : List PacketObservation} (h₁ : observations₁.Perm observations)
    (h₂ : observations₂.Perm observations) (order₁ order₂ : Leg → SetOrder) :
    ∃ result₁ result₂, reconstruct graph order₁ observations₁ sourceNode = .ok result₁ ∧
      reconstruct graph order₂ observations₂ sourceNode = .ok result₂ ∧
      ∀ leg, SameLeg (result₁.path leg) (result₂.path leg) := by
  obtain ⟨result, result₁, hresult, hresult₁, hsame₁⟩ := h observations₁ h₁ order₁ order₁
  obtain ⟨result', result₂, hresult', hresult₂, hsame₂⟩ := h observations₂ h₂ order₁ order₂
  obtain rfl := Except.ok.inj (hresult.symm.trans hresult')
  exact ⟨result₁, result₂, hresult₁, hresult₂, fun leg => (hsame₁ leg).symm.trans (hsame₂ leg)⟩

/-- A leg with a link between two nodes of the same round of its layer is not the same in every
    order. -/
theorem OrderFree.settled (h : OrderFree graph observations sourceNode)
    (hknows : ∀ o ∈ observations, graph.Knows o.linkId) {observations' : List PacketObservation}
    (hperm : observations'.Perm observations) (leg : Leg) :
    Settled graph sourceNode (observations'.filter (·.direction = leg)) := by
  intro run hrun hunsettled
  have hobserved {lid : String} (hlid : lid ∈ run.flatten) :
      Observed (observations'.filter (·.direction = leg)) lid := by
    refine mem_layers.1 ?_
    rw [← flatten_runsOf, List.mem_flatten]
    obtain ⟨lids, hlids, hlid⟩ := List.mem_flatten.1 hlid
    exact ⟨lids, List.mem_flatten_of_mem hrun hlids, hlid⟩
  have hknown : ∀ lid ∈ run.flatten, graph.Knows lid := by
    intro lid hlid
    obtain ⟨o, ho, rfl⟩ := hobserved hlid
    exact hknows o (hperm.mem_iff.1 (List.mem_of_mem_filter ho))
  obtain ⟨upstream, hupstream⟩ := exists_initialUpstream sourceNode hknown
  obtain ⟨hnodup, hentry⟩ := initialUpstream_spec hupstream
  rw [← hentry] at hunsettled
  obtain ⟨lid, a, b, hlid, hne, ⟨order, horder⟩, order', horder'⟩ :=
    hunsettled.exists_both hnodup hknown
  obtain ⟨result, result', hresult, hresult', hsame⟩ :=
    h.sameLeg hperm hperm (fun _ => order) (fun _ => order')
  have hobs : observations'.filter (·.direction = leg) ≠ [] := by
    obtain ⟨o, ho, -⟩ := hobserved hlid
    exact List.ne_nil_of_mem ho
  obtain ⟨pairs, _, hleg⟩ := legIs_of_reconstructLeg hobs (path_of_reconstruct hresult leg)
  obtain ⟨pairs', _, hleg'⟩ := legIs_of_reconstructLeg hobs (path_of_reconstruct hresult' leg)
  -- The run is entered from the same nodes in both, and goes through the link both ways.
  obtain ⟨u, oriented, hu, horiented, hsub⟩ := orient_spec hleg.oriented hrun
  obtain ⟨u', oriented', hu', horiented', hsub'⟩ := orient_spec hleg'.oriented hrun
  rw [hupstream] at hu hu'
  obtain rfl := Except.ok.inj hu
  obtain rfl := Except.ok.inj hu'
  have hends : pairs.ends lid = some (a, b) :=
    ends_of_mem hleg.nodup_pairs (hsub (horder _ _ hnodup rfl horiented))
  have hends' : pairs'.ends lid = some (b, a) :=
    ends_of_mem hleg'.nodup_pairs (hsub' (horder' _ _ hnodup rfl horiented'))
  have harc := congrArg Prod.fst ((hsame leg).weighted_eq hleg hleg' (hobserved hlid))
  rw [weighted_edgeOf, weighted_edgeOf, hends, hends'] at harc
  exact hne (Arc.mk.inj harc).2.1

end Both

/-! ## Packets over a router -/

/-- A node, with all links of the layer at it, settles the layer. -/
theorem not_ambiguous_of_node {graph : TopoGraph} {lids : List String} {n : String}
    (hall : ∀ lid ∈ lids, ∃ b, graph.Joins lid n b) :
    ¬Ambiguous graph (elems [n]) (elems lids) := by
  refine not_ambiguous (fun lid hlid => ⟨n, List.mem_singleton.2 rfl, hall lid hlid⟩) ?_
  rintro lid a b ⟨ha, hb, hne, -⟩
  exact hne ((List.mem_singleton.1 ha).trans (List.mem_singleton.1 hb).symm)

namespace Router

/-- Two links over a router. -/
def graph : TopoGraph := ⟨[⟨"L0", "S", "R"⟩, ⟨"L1", "R", "D"⟩]⟩

/-- Three packets, the last one with a lower TTL. -/
def packets : List PacketObservation :=
  [⟨"L0", 64, .forward, some "icmp:1:0"⟩, ⟨"L1", 63, .forward, some "icmp:1:0"⟩,
    ⟨"L0", 64, .forward, some "icmp:1:1"⟩, ⟨"L1", 63, .forward, some "icmp:1:1"⟩,
    ⟨"L0", 63, .forward, some "icmp:1:2"⟩, ⟨"L1", 62, .forward, some "icmp:1:2"⟩]

/-- Two packets, whose TTLs differ by two. -/
def tied : List PacketObservation :=
  [⟨"L0", 64, .forward, some "icmp:1:0"⟩, ⟨"L1", 63, .forward, some "icmp:1:0"⟩,
    ⟨"L0", 62, .forward, some "icmp:1:1"⟩, ⟨"L1", 61, .forward, some "icmp:1:1"⟩]

/-- The same packets; the second one comes first on the first link. -/
def swapped : List PacketObservation :=
  [⟨"L0", 62, .forward, some "icmp:1:1"⟩, ⟨"L1", 63, .forward, some "icmp:1:0"⟩,
    ⟨"L0", 64, .forward, some "icmp:1:0"⟩, ⟨"L1", 61, .forward, some "icmp:1:1"⟩]

theorem knows {obs : List PacketObservation} (h : ∀ o ∈ obs, o.linkId = "L0" ∨ o.linkId = "L1") :
    ∀ o ∈ obs, graph.Knows o.linkId := by
  intro o ho
  rcases h o ho with hlink | hlink <;> rw [hlink]
  · exact ⟨("S", "R"), rfl⟩
  · exact ⟨("R", "D"), rfl⟩

theorem decided : Decided packets := by
  rintro lid ⟨o, ho, rfl⟩
  have hlink : ∀ o ∈ packets, o.linkId = "L0" ∨ o.linkId = "L1" := by decide
  rcases hlink o ho with hlid | hlid <;> rw [hlid]
  · have httls : ttlsOn packets "L0" = [64, 64, 63] := rfl
    refine ⟨64, fun t ht => ?_⟩
    rw [httls]
    by_cases h : t = 63 <;> simp [h, Ne.symm ht, eq_comm]
  · have httls : ttlsOn packets "L1" = [63, 63, 62] := rfl
    refine ⟨63, fun t ht => ?_⟩
    rw [httls]
    by_cases h : t = 62 <;> simp [h, Ne.symm ht, eq_comm]

theorem ttlsDesc_packets : ttlsDesc packets = [64, 63] := by
  have hkeys : (layerLinks packets).keys = [64, 63] := by decide
  rw [ttlsDesc, hkeys]
  simp [List.mergeSort]

theorem ttlsDesc_tied : ttlsDesc tied = [64, 63] := by
  have hkeys : (layerLinks tied).keys = [64, 63] := by decide
  rw [ttlsDesc, hkeys]
  simp [List.mergeSort]

theorem ttlsDesc_swapped : ttlsDesc swapped = [63, 62] := by
  have hkeys : (layerLinks swapped).keys = [62, 63] := by decide
  rw [ttlsDesc, hkeys]
  simp [List.mergeSort]

theorem settled : Settled graph "S" packets := by
  have hruns : runsOf packets = [[["L0"], ["L1"]]] := by
    rw [runsOf, ttlsDesc_packets]
    rfl
  rw [Settled, hruns, List.forall_mem_singleton]
  -- The first layer is entered at the source, the second one at the router.
  have hfirst : graph.Joins "L0" "S" "R" := .inl rfl
  have hsecond : graph.Joins "L1" "R" "D" := .inl rfl
  have hentry : entry graph "S" [["L0"], ["L1"]] = elems ["S"] := by
    have htouches : graph.Touches ["L0"] "S" := ⟨"L0", List.mem_singleton.2 rfl, _, hfirst⟩
    ext n
    rw [entry]
    simp [htouches, elems]
  have hclear : ¬Ambiguous graph (elems ["S"]) (elems ["L0"]) := not_ambiguous_of_node fun lid hlid => by
    obtain rfl := List.mem_singleton.1 hlid
    exact ⟨_, hfirst⟩
  have hspreads : Spreads graph ["S"] ["L0"] [⟨"L0", "S", "R"⟩] :=
    @spread_spec _ _ _ _ asAdded 2 [] le_rfl rfl
  have hnext := elems_nextUpstream hspreads (.refl _) hclear
  rw [Unsettled, Unsettled, Unsettled, hentry, ← hnext, not_or, not_or]
  exact ⟨hclear, not_ambiguous_of_node fun lid hlid => by
    obtain rfl := List.mem_singleton.1 hlid
    exact ⟨_, hsecond⟩, id⟩

end Router

end Dnlab.FlowReconstruct
