import Dnlab.Services.FlowReconstruct.Determinism
import Dnlab.Services.FlowReconstruct.Soundness
import Mathlib.Algebra.Order.Field.Basic
import Mathlib.Data.List.Perm.Subperm

/-!
# The weights of edges

The weight of an edge is the share of the flow that was seen on its link. When every
packet of a leg has a key, the keys on the link are compared with the keys of the leg.
Otherwise the packets on the link are compared with those on the links of the highest
TTL, and of a link on which there were more (a link above it was not captured whole, or
packets were sent again below it) the weight is greater than one (`promised_weights_iff`).
-/

namespace Dnlab.FlowReconstruct

open ExceptRules (bind_eq_ok pure_eq_ok)

variable {obs : List PacketObservation} {lid : String}

/-- How many keys there are. -/
def keysIn (obs : List PacketObservation) : ℕ := (obs.filterMap (·.instanceKey)).dedup.length

/-- The packets on a link. -/
def packetsOn (obs : List PacketObservation) (lid : String) : List PacketObservation :=
  obs.filter (·.linkId = lid)

/-- Every packet has a key. -/
def Keyed (obs : List PacketObservation) : Prop := ∀ o ∈ obs, o.instanceKey.isSome

instance : Decidable (Keyed obs) := inferInstanceAs (Decidable (∀ o ∈ obs, o.instanceKey.isSome))

/-- No link has a higher TTL. -/
def Topmost (obs : List PacketObservation) (lid : String) : Prop :=
  ∀ o ∈ obs, ttlOf obs o.linkId ≤ ttlOf obs lid

instance : Decidable (Topmost obs lid) :=
  inferInstanceAs (Decidable (∀ o ∈ obs, ttlOf obs o.linkId ≤ ttlOf obs lid))

/-- The packets on the links of the highest TTL. -/
def topmost (obs : List PacketObservation) : List PacketObservation :=
  obs.filter fun o => Topmost obs o.linkId

/-- Every packet has a key, or on no link there are more packets than on those of the highest TTL. -/
def Covered (obs : List PacketObservation) : Prop :=
  Keyed obs ∨ ∀ lid, (packetsOn obs lid).length ≤ (topmost obs).length

/-- The weights of a leg are what they are said to be. -/
structure Proportional (obs : List PacketObservation) (path : FlowPath) : Prop where
  pos : ∀ edge ∈ path.edges, 0 < edge.weight
  le_one : ∀ edge ∈ path.edges, edge.weight ≤ 1
  keyed : Keyed obs → ∀ edge ∈ path.edges,
    edge.weight = keysIn (packetsOn obs edge.linkId) / keysIn obs

/-! ## Keys -/

theorem keyed_iff : keyed obs = true ↔ Keyed obs := List.all_eq_true

theorem keyed_packetsOn (h : Keyed obs) (lid : String) : Keyed (packetsOn obs lid) :=
  fun o ho => h o (List.mem_of_mem_filter ho)

theorem map_instanceKey (h : Keyed obs) :
    obs.map (·.instanceKey) = (obs.filterMap (·.instanceKey)).map some := by
  induction obs with
  | nil => rfl
  | cons o obs ih =>
    obtain ⟨key, hkey⟩ := Option.isSome_iff_exists.1 (h o List.mem_cons_self)
    rw [List.map_cons, List.filterMap_cons_some hkey, List.map_cons, hkey,
      ih fun o ho => h o (List.mem_cons_of_mem _ ho)]

theorem length_dedup_keys (h : Keyed obs) : (obs.map (·.instanceKey)).dedup.length = keysIn obs := by
  rw [map_instanceKey h, List.dedup_map_of_injective (Option.some_injective String), List.length_map,
    keysIn]

theorem keysIn_pos (h : Keyed obs) (hne : obs ≠ []) : 0 < keysIn obs := by
  obtain ⟨o, ho⟩ := List.exists_mem_of_ne_nil obs hne
  obtain ⟨key, hkey⟩ := Option.isSome_iff_exists.1 (h o ho)
  exact List.length_pos_of_mem (List.mem_dedup.2 (List.mem_filterMap.2 ⟨o, ho, hkey⟩))

theorem keysIn_packetsOn_le (obs : List PacketObservation) (lid : String) :
    keysIn (packetsOn obs lid) ≤ keysIn obs := by
  refine (List.Nodup.subperm (List.nodup_dedup _) fun key hkey => ?_).length_le
  obtain ⟨o, ho, hkey⟩ := List.mem_filterMap.1 (List.mem_dedup.1 hkey)
  exact List.mem_dedup.2 (List.mem_filterMap.2 ⟨o, List.mem_of_mem_filter ho, hkey⟩)

theorem countOn_keyed (h : Keyed obs) (lid : String) :
    countOn obs lid = keysIn (packetsOn obs lid) := by
  rw [countOn, getD_obsByLink, if_pos (keyed_iff.2 h), ← packetsOn,
    length_dedup_keys (keyed_packetsOn h lid)]

theorem total_keyed (h : Keyed obs) (hne : obs ≠ []) : total obs = keysIn obs := by
  have hpos := keysIn_pos h hne
  rw [total, if_pos (keyed_iff.2 h), length_dedup_keys h]
  exact if_neg hpos.ne'

/-! ## Packets -/

/-- The packets on one more link. -/
theorem length_filter_cons (obs : List PacketObservation) {lids : List String} (h : lid ∉ lids) :
    (obs.filter fun o => o.linkId ∈ lid :: lids).length =
      (packetsOn obs lid).length + (obs.filter fun o => o.linkId ∈ lids).length := by
  rw [packetsOn]
  induction obs with
  | nil => rfl
  | cons o obs ih =>
    simp only [List.filter_cons, List.mem_cons, Bool.decide_or] at ih ⊢
    by_cases hlid : o.linkId = lid
    · simp [hlid, h]
      omega
    · by_cases hlids : o.linkId ∈ lids
      · simp [hlid, hlids]
        omega
      · simp [hlid, hlids, ih]

/-- The packets on some links, link by link and all at once. -/
theorem sum_packetsOn (obs : List PacketObservation) {lids : List String} (h : lids.Nodup) :
    (lids.map fun lid => (packetsOn obs lid).length).sum =
      (obs.filter fun o => o.linkId ∈ lids).length := by
  induction lids with
  | nil => simp
  | cons lid lids ih =>
    obtain ⟨hnotMem, hnodup⟩ := List.nodup_cons.1 h
    rw [List.map_cons, List.sum_cons, ih hnodup, length_filter_cons obs hnotMem]

/-- The first layer is that of the links with no higher TTL. -/
theorem mem_linksAt_head (hne : obs ≠ []) :
    lid ∈ linksAt obs ((ttlsDesc obs).headD 0) ↔ Observed obs lid ∧ Topmost obs lid := by
  obtain ⟨top, ttls, httls⟩ := List.exists_cons_of_ne_nil (mt ttlsDesc_eq_nil_iff.1 hne)
  have hfall := pairwise_ttlsDesc obs
  rw [httls, List.pairwise_cons] at hfall
  rw [httls, List.headD_cons, mem_linksAt]
  refine and_congr_right fun hobserved => ⟨fun htop o ho => ?_, fun htop => ?_⟩
  · have hmem : ttlOf obs o.linkId ∈ ttlsDesc obs :=
      mem_ttlsDesc.2 ⟨o.linkId, mem_linksAt.2 ⟨⟨o, ho, rfl⟩, rfl⟩⟩
    rw [httls, List.mem_cons] at hmem
    rcases hmem with hmem | hmem
    · exact (hmem.trans htop.symm).le
    · exact htop ▸ (hfall.1 _ hmem).le
  · obtain ⟨lid', hlid'⟩ := mem_ttlsDesc.1 (httls ▸ List.mem_cons_self : top ∈ ttlsDesc obs)
    obtain ⟨⟨o, ho, rfl⟩, htop'⟩ := mem_linksAt.1 hlid'
    have hmem : ttlOf obs lid ∈ top :: ttls := by
      rw [← httls]
      exact mem_ttlsDesc.2 ⟨lid, mem_linksAt.2 ⟨hobserved, rfl⟩⟩
    rcases List.mem_cons.1 hmem with heq | hlower
    · exact heq
    · exact absurd (htop o ho) (not_le.2 (htop' ▸ hfall.1 _ hlower))

theorem topmost_ne_nil (hne : obs ≠ []) : topmost obs ≠ [] := by
  obtain ⟨top, ttls, httls⟩ := List.exists_cons_of_ne_nil (mt ttlsDesc_eq_nil_iff.1 hne)
  obtain ⟨lid, hlid⟩ := mem_ttlsDesc.1 (httls ▸ List.mem_cons_self : top ∈ ttlsDesc obs)
  have hhead : (ttlsDesc obs).headD 0 = top := by rw [httls, List.headD_cons]
  obtain ⟨⟨o, ho, rfl⟩, htop⟩ := (mem_linksAt_head hne).1 (hhead ▸ hlid)
  exact List.ne_nil_of_mem (List.mem_filter.2 ⟨ho, decide_eq_true htop⟩)

theorem countOn_packets (h : ¬Keyed obs) (lid : String) :
    countOn obs lid = (packetsOn obs lid).length := by
  rw [countOn, getD_obsByLink, if_neg (mt keyed_iff.1 h), packetsOn]

theorem total_packets (h : ¬Keyed obs) (hne : obs ≠ []) : total obs = (topmost obs).length := by
  have hsum : ((linksAt obs ((ttlsDesc obs).headD 0)).map fun lid =>
      ((obsByLink obs).getD lid []).length).sum = (topmost obs).length := by
    have hon (lid : String) : ((obsByLink obs).getD lid []).length = (packetsOn obs lid).length := by
      rw [getD_obsByLink, packetsOn]
    simp only [hon]
    rw [sum_packetsOn obs (nodup_linksAt obs _), topmost]
    congr 1
    refine List.filter_congr fun o ho => decide_eq_decide.2 ?_
    rw [mem_linksAt_head hne]
    exact and_iff_right ⟨o, ho, rfl⟩
  have hpos : 0 < (topmost obs).length := List.length_pos_iff.2 (topmost_ne_nil hne)
  rw [total, if_neg (mt keyed_iff.1 h), hsum]
  exact if_neg hpos.ne'

/-! ## Legs -/

section Legs

variable {graph : TopoGraph} {order : SetOrder} {leg : Leg} {sourceNode : String} {pairs : Oriented}
  {anchorOk : Bool} {path : FlowPath}

theorem LegIs.weight (h : LegIs graph order obs leg sourceNode pairs anchorOk path)
    {edge : FlowEdge} (hedge : edge ∈ path.edges) :
    edge.weight = countOn obs edge.linkId / total obs ∧ packetsOn obs edge.linkId ≠ [] := by
  obtain ⟨lid, ⟨o, ho, rfl⟩, rfl⟩ := h.mem_edges.1 hedge
  exact ⟨rfl, List.ne_nil_of_mem (List.mem_filter.2 ⟨ho, decide_eq_true rfl⟩)⟩

theorem LegIs.proportional_of_keyed
    (h : LegIs graph order obs leg sourceNode pairs anchorOk path) (hne : obs ≠ [])
    (hkeyed : Keyed obs) : Proportional obs path := by
  have hweight {edge : FlowEdge} (hedge : edge ∈ path.edges) :
      edge.weight = keysIn (packetsOn obs edge.linkId) / keysIn obs := by
    rw [(h.weight hedge).1, countOn_keyed hkeyed, total_keyed hkeyed hne]
  have htotal : (0 : ℚ) < keysIn obs := Nat.cast_pos.2 (keysIn_pos hkeyed hne)
  refine ⟨fun edge hedge => ?_, fun edge hedge => ?_, fun _ _ => hweight⟩
  · have hcount := keysIn_pos (keyed_packetsOn hkeyed edge.linkId) (h.weight hedge).2
    rw [hweight hedge]
    exact div_pos (Nat.cast_pos.2 hcount) htotal
  · rw [hweight hedge, div_le_one htotal]
    exact Nat.cast_le.2 (keysIn_packetsOn_le obs edge.linkId)

/-- Of packets without keys, the weights are at most one when there are enough on the links of the
    highest TTL. -/
theorem LegIs.proportional_iff (h : LegIs graph order obs leg sourceNode pairs anchorOk path)
    (hne : obs ≠ []) (hkeyed : ¬Keyed obs) :
    Proportional obs path ↔ ∀ lid, (packetsOn obs lid).length ≤ (topmost obs).length := by
  have htop : 0 < (topmost obs).length := List.length_pos_iff.2 (topmost_ne_nil hne)
  have htotal : (0 : ℚ) < (topmost obs).length := Nat.cast_pos.2 htop
  have hweight {edge : FlowEdge} (hedge : edge ∈ path.edges) :
      edge.weight = (packetsOn obs edge.linkId).length / (topmost obs).length := by
    rw [(h.weight hedge).1, countOn_packets hkeyed, total_packets hkeyed hne]
  constructor
  · intro hprop lid
    by_cases hlid : Observed obs lid
    · have hedge := h.mem_edges.2 ⟨lid, hlid, rfl⟩
      have hle := hprop.le_one _ hedge
      rw [hweight hedge, div_le_one htotal] at hle
      exact Nat.cast_le.1 hle
    · have hnone : packetsOn obs lid = [] :=
        List.filter_eq_nil_iff.2 fun o ho h => hlid ⟨o, ho, of_decide_eq_true h⟩
      rw [hnone]
      exact Nat.zero_le _
  · refine fun hle => ⟨fun edge hedge => ?_, fun edge hedge => ?_, fun hall => absurd hall hkeyed⟩
    · rw [hweight hedge]
      exact div_pos (Nat.cast_pos.2 (List.length_pos_iff.2 (h.weight hedge).2)) htotal
    · rw [hweight hedge, div_le_one htotal]
      exact Nat.cast_le.2 (hle edge.linkId)

theorem proportional_iff_covered (h : reconstructLeg obs graph order leg sourceNode = .ok path) :
    Proportional obs path ↔ Covered obs := by
  by_cases hne : obs = []
  · -- A leg of which nothing was observed has no edges.
    rw [reconstructLeg, if_pos hne, pure_eq_ok] at h
    subst hne h
    refine iff_of_true ⟨?_, ?_, fun _ => ?_⟩ (.inl (List.forall_mem_nil _)) <;>
      exact List.forall_mem_nil _
  · obtain ⟨pairs, anchorOk, hleg⟩ := legIs_of_reconstructLeg hne h
    by_cases hkeyed : Keyed obs
    · exact iff_of_true (hleg.proportional_of_keyed hne hkeyed) (.inl hkeyed)
    · exact (hleg.proportional_iff hne hkeyed).trans (or_iff_right hkeyed).symm

end Legs

/-! ## Both legs -/

/-- The weights of both legs are what they are said to be. -/
def PromisedWeights (observations : List PacketObservation) (result : ReconstructionResult) : Prop :=
  ∀ leg, Proportional (observations.filter (·.direction = leg)) (result.path leg)

/-- The weights are shares of the flow just when, in both legs, every packet has a key or on no link
    there are more packets than on the links of the highest TTL together. -/
theorem promised_weights_iff {graph : TopoGraph} {order : Leg → SetOrder}
    {observations : List PacketObservation} {sourceNode : String} {result : ReconstructionResult}
    (h : reconstruct graph order observations sourceNode = .ok result) :
    PromisedWeights observations result ↔
      ∀ leg, Covered (observations.filter (·.direction = leg)) :=
  forall_congr' fun leg => proportional_iff_covered (path_of_reconstruct h leg)

/-- Two links over a router, and packets without keys, of which one was not captured on the first
    link. -/
def droppedObservations : List PacketObservation :=
  [⟨"L0", 64, .forward, none⟩, ⟨"L1", 63, .forward, none⟩, ⟨"L1", 63, .forward, none⟩]

theorem exists_routerResult (observations : List PacketObservation)
    (h : ∀ o ∈ observations, o.linkId = "L0" ∨ o.linkId = "L1") :
    ∃ result, reconstruct routerGraph (fun _ => asAdded) observations "S" = .ok result := by
  refine exists_reconstruct "S" (fun o ho => ?_) _
  rcases h o ho with h | h <;> rw [h]
  · exact ⟨("S", "R1"), by decide⟩
  · exact ⟨("R1", "D"), by decide⟩

theorem weights_router : ∃ result,
    reconstruct routerGraph (fun _ => asAdded) routerObservations "S" = .ok result ∧
      (PromisedWeights routerObservations result ↔
        ∀ leg, Covered (routerObservations.filter (·.direction = leg))) := by
  obtain ⟨result, hresult⟩ := exists_routerResult routerObservations (by decide)
  exact ⟨result, hresult, promised_weights_iff hresult⟩

/-- The weight of the second link is two. -/
theorem weights_not_shares : ∃ result,
    reconstruct routerGraph (fun _ => asAdded) droppedObservations "S" = .ok result ∧
      ¬PromisedWeights droppedObservations result := by
  obtain ⟨result, hresult⟩ := exists_routerResult droppedObservations (by decide)
  refine ⟨result, hresult, fun hpromised => ?_⟩
  have hcovered := (proportional_iff_covered (path_of_reconstruct hresult .forward)).1
    (hpromised .forward)
  rcases hcovered with hkeyed | hle
  · exact absurd hkeyed (by decide)
  · exact absurd (hle "L1") (by decide +kernel)

end Dnlab.FlowReconstruct
