import Dnlab.Lib.Walk
import Dnlab.Services.FlowReconstruct.Soundness

/-!
# Symmetric traffic

A probe goes along a path from the source and back; routers on the path lower its
TTL. The forward leg is oriented along the path whatever the order of the sets
(`forward_arcs`). The return leg is oriented from the source when all its links
are in one layer, and from all nodes of the first layer that are not in the second
one otherwise: so it is the reverse of the forward leg, in every order of the sets,
just when the last node before the end of the path is a router (`mirrored_iff`).
-/

namespace Dnlab.FlowReconstruct

open ExceptRules (bind_eq_ok pure_eq_ok)

/-! ## Paths -/

section Path

/-- A hop of a path: its link, and the node that the link leads to. -/
structure Hop where
  linkId : String
  node : String
  deriving DecidableEq

/-- The links of a path, in its direction. -/
def hopArcs : (start : String) → List Hop → List Arc
  | _, [] => []
  | start, hop :: hops => ⟨hop.linkId, start, hop.node⟩ :: hopArcs hop.node hops

/-- Where a path ends. -/
def endOf : (start : String) → List Hop → String
  | start, [] => start
  | _, hop :: hops => endOf hop.node hops

/-- The way back. -/
def hopsBack : (start : String) → List Hop → List Hop
  | _, [] => []
  | start, hop :: hops => hopsBack hop.node hops ++ [⟨hop.linkId, start⟩]

/-- A simple path in the graph. -/
structure IsPath (graph : TopoGraph) (start : String) (hops : List Hop) : Prop where
  joins : ∀ arc ∈ hopArcs start hops, graph.Joins arc.linkId arc.src arc.dst
  simple : (start :: hops.map Hop.node).Nodup

variable {graph : TopoGraph} {start : String} {hop : Hop} {hops hops' : List Hop}

theorem map_linkId_hopArcs (start : String) (hops : List Hop) :
    (hopArcs start hops).map Arc.linkId = hops.map Hop.linkId := by
  induction hops generalizing start with
  | nil => rfl
  | cons hop hops ih => rw [hopArcs, List.map_cons, List.map_cons, ih]

theorem map_dst_hopArcs (start : String) (hops : List Hop) :
    (hopArcs start hops).map Arc.dst = hops.map Hop.node := by
  induction hops generalizing start with
  | nil => rfl
  | cons hop hops ih => rw [hopArcs, List.map_cons, List.map_cons, ih]

theorem hopArcs_append (start : String) (hops hops' : List Hop) :
    hopArcs start (hops ++ hops') = hopArcs start hops ++ hopArcs (endOf start hops) hops' := by
  induction hops generalizing start with
  | nil => rfl
  | cons hop hops ih => rw [List.cons_append, hopArcs, hopArcs, ih, endOf, List.cons_append]

theorem endOf_append (start : String) (hops hops' : List Hop) :
    endOf start (hops ++ hops') = endOf (endOf start hops) hops' := by
  induction hops generalizing start with
  | nil => rfl
  | cons hop hops ih => exact ih hop.node

theorem endOf_mem (start : String) (h : hops ≠ []) : endOf start hops ∈ hops.map Hop.node := by
  induction hops generalizing start with
  | nil => exact absurd rfl h
  | cons hop hops ih =>
    rcases hops with _ | ⟨hop', hops⟩
    · exact List.mem_cons_self
    · exact List.mem_cons_of_mem _ (ih hop.node (List.cons_ne_nil _ _))

theorem endOf_hopsBack (start : String) (hops : List Hop) :
    endOf (endOf start hops) (hopsBack start hops) = start := by
  induction hops generalizing start with
  | nil => rfl
  | cons hop hops ih => rw [endOf, hopsBack, endOf_append, ih]; rfl

/-- The other way through a link. -/
def Arc.flip (arc : Arc) : Arc := ⟨arc.linkId, arc.dst, arc.src⟩

theorem hopArcs_hopsBack (start : String) (hops : List Hop) :
    hopArcs (endOf start hops) (hopsBack start hops) = ((hopArcs start hops).map Arc.flip).reverse := by
  induction hops generalizing start with
  | nil => rfl
  | cons hop hops ih =>
    rw [endOf, hopsBack, hopArcs_append, ih, endOf_hopsBack, hopArcs.eq_2 start, List.map_cons,
      List.reverse_cons]
    rfl

theorem nodes_hopsBack (start : String) (hops : List Hop) :
    endOf start hops :: (hopsBack start hops).map Hop.node = (start :: hops.map Hop.node).reverse := by
  induction hops generalizing start with
  | nil => rfl
  | cons hop hops ih =>
    rw [endOf, hopsBack, List.map_append, ← List.cons_append, ih, List.reverse_cons (a := start)]
    rfl

/-- The way back is a path too. -/
theorem IsPath.back (h : IsPath graph start hops) :
    IsPath graph (endOf start hops) (hopsBack start hops) := by
  refine ⟨fun arc harc => ?_, ?_⟩
  · rw [hopArcs_hopsBack, List.mem_reverse] at harc
    obtain ⟨arc', harc', rfl⟩ := List.mem_map.1 harc
    exact (h.joins arc' harc').symm
  · rw [nodes_hopsBack, List.nodup_reverse]
    exact h.simple

theorem IsPath.append (h : IsPath graph start (hops ++ hops')) :
    IsPath graph start hops ∧ IsPath graph (endOf start hops) hops' := by
  have hjoins := h.joins
  have hsimple := h.simple
  rw [hopArcs_append, List.forall_mem_append] at hjoins
  rw [List.map_append, ← List.cons_append, List.nodup_append'] at hsimple
  refine ⟨⟨hjoins.1, hsimple.1⟩, ⟨hjoins.2, List.nodup_cons.2 ⟨fun hmem => ?_, hsimple.2.1⟩⟩⟩
  rcases eq_or_ne hops [] with rfl | hne
  · exact hsimple.2.2 List.mem_cons_self hmem
  · exact hsimple.2.2 (List.mem_cons_of_mem _ (endOf_mem _ hne)) hmem

theorem IsPath.tail (h : IsPath graph start (hop :: hops)) : IsPath graph hop.node hops :=
  have happend : IsPath graph start ([hop] ++ hops) := h
  happend.append.2

theorem mem_hopArcs {arc : Arc} (h : arc ∈ hopArcs start hops) :
    arc.src ∈ start :: hops.map Hop.node ∧ arc.dst ∈ hops.map Hop.node := by
  induction hops generalizing start with
  | nil => exact absurd h List.not_mem_nil
  | cons hop hops ih =>
    rcases List.mem_cons.1 h with rfl | h
    · exact ⟨List.mem_cons_self, List.mem_cons_self⟩
    · obtain ⟨hsrc, hdst⟩ := ih h
      exact ⟨List.mem_cons_of_mem _ hsrc, List.mem_cons_of_mem _ hdst⟩

/-- The links of a path are at its nodes. -/
theorem IsPath.mem_of_joins (h : IsPath graph start hops) {lid n b : String}
    (hlid : lid ∈ hops.map Hop.linkId) (hjoins : graph.Joins lid n b) :
    n ∈ start :: hops.map Hop.node := by
  rw [← map_linkId_hopArcs start] at hlid
  obtain ⟨arc, harc, rfl⟩ := List.mem_map.1 hlid
  obtain ⟨hsrc, hdst⟩ := mem_hopArcs harc
  rcases hjoins.eq_or_eq (h.joins arc harc) with ⟨rfl, -⟩ | ⟨rfl, -⟩
  · exact hsrc
  · exact List.mem_cons_of_mem _ hdst

theorem IsPath.nodup_links (h : IsPath graph start hops) : (hops.map Hop.linkId).Nodup := by
  induction hops generalizing start with
  | nil => exact List.nodup_nil
  | cons hop hops ih =>
    rw [List.map_cons, List.nodup_cons]
    refine ⟨fun hlid => ?_, ih h.tail⟩
    -- The first link is at the first node, which is on no other.
    have hmem := h.tail.mem_of_joins hlid (h.joins _ List.mem_cons_self)
    exact (List.nodup_cons.1 h.simple).1 hmem

/-- A path is a walk, and ends where it does not go on. -/
theorem isWalk_hopArcs (start : String) (hops : List Hop) :
    Walk.IsWalk Arc.src Arc.dst start (hopArcs start hops) ∧
      Walk.finish Arc.dst start (hopArcs start hops) = endOf start hops := by
  induction hops generalizing start with
  | nil => exact ⟨trivial, rfl⟩
  | cons hop hops ih => exact ⟨⟨rfl, (ih hop.node).1⟩, (ih hop.node).2⟩

theorem src_ne_endOf (h : (start :: hops.map Hop.node).Nodup) {arc : Arc}
    (harc : arc ∈ hopArcs start hops) : arc.src ≠ endOf start hops := by
  induction hops generalizing start with
  | nil => exact absurd harc List.not_mem_nil
  | cons hop hops ih =>
    rcases List.mem_cons.1 harc with rfl | harc
    · exact fun heq : start = _ => (List.nodup_cons.1 h).1 (by
        rw [heq]
        exact endOf_mem _ (List.cons_ne_nil _ _))
    · exact ih (List.nodup_cons.1 h).2 harc

end Path

/-! ## Orientation along a path -/

section Along

variable {graph : TopoGraph} {start : String} {hops : List Hop}
  {frontier upstream lids : List String} {arcs : List Arc} {node lid b : String}

theorem Spreads.eq_nil (h : Spreads graph frontier [] arcs) : arcs = [] :=
  List.eq_nil_iff_forall_not_mem.2 fun _ harc => absurd (h.mem harc).1 List.not_mem_nil

/-- Links along a path are oriented in its direction, if the path begins on the frontier and goes
    through no other node of it. -/
theorem Spreads.eq_hopArcs (h : Spreads graph frontier lids arcs) (hpath : IsPath graph start hops)
    (hlids : lids.Perm (hops.map Hop.linkId)) (hstart : start ∈ frontier)
    (hrest : ∀ hop ∈ hops, hop.node ∉ frontier) : arcs = hopArcs start hops := by
  induction h generalizing start hops with
  | done => exact absurd hstart List.not_mem_nil
  | @turn node frontier remaining snapshot more hperm hknows hmore ih =>
    have hsnapshot := hperm.trans hlids
    by_cases hnode : node = start
    · subst hnode
      rcases hops with _ | ⟨hop, hops⟩
      · have hnil : snapshot = [] := hsnapshot.eq_nil
        have hnil' : remaining = [] := hlids.eq_nil
        subst hnil hnil'
        rw [Spreads.eq_nil hmore]
        rfl
      · -- The node is at the first link only.
        have hfirst : away graph node hop.linkId = some ⟨hop.linkId, node, hop.node⟩ :=
          away_of_joins (hpath.joins _ List.mem_cons_self)
        have hothers : ∀ lid ∈ hops.map Hop.linkId, away graph node lid = none := fun lid hlid =>
          away_eq_none fun b hjoins =>
            (List.nodup_cons.1 hpath.simple).1 (hpath.tail.mem_of_joins hlid hjoins)
        have harcs : snapshot.filterMap (away graph node) = [⟨hop.linkId, node, hop.node⟩] := by
          refine List.perm_singleton.1 ((hsnapshot.filterMap _).trans (.of_eq ?_))
          rw [List.map_cons, List.filterMap_cons_some hfirst,
            List.filterMap_eq_nil_iff.2 hothers]
        have hleft : (remaining.filter fun lid => away graph node lid = none).Perm
            (hops.map Hop.linkId) := by
          refine (hlids.filter _).trans (.of_eq ?_)
          rw [List.map_cons, List.filter_cons_of_neg (by simp [hfirst]),
            List.filter_eq_self.2 fun lid hlid => decide_eq_true (hothers lid hlid)]
        rw [harcs] at ih ⊢
        rw [hopArcs, List.singleton_append]
        refine congrArg _ (ih hpath.tail hleft ?_ fun hop' hhop' hmem => ?_)
        · exact List.mem_append_right _ List.mem_cons_self
        · rcases List.mem_append.1 hmem with hmem | hmem
          · exact hrest hop' (List.mem_cons_of_mem _ hhop') (List.mem_cons_of_mem _ hmem)
          · have hsame : hop'.node = hop.node := List.mem_singleton.1 hmem
            exact (List.nodup_cons.1 hpath.tail.simple).1 (hsame ▸ List.mem_map_of_mem hhop')
    · -- The node is not on the path.
      have hnone : ∀ lid ∈ hops.map Hop.linkId, away graph node lid = none := fun lid hlid =>
        away_eq_none fun b hjoins => by
          rcases List.mem_cons.1 (hpath.mem_of_joins hlid hjoins) with rfl | hmem
          · exact hnode rfl
          · obtain ⟨hop, hhop, rfl⟩ := List.mem_map.1 hmem
            exact hrest hop hhop List.mem_cons_self
      have harcs : snapshot.filterMap (away graph node) = [] :=
        List.filterMap_eq_nil_iff.2 fun lid hlid => hnone lid (hsnapshot.mem_iff.1 hlid)
      have hleft : (remaining.filter fun lid => away graph node lid = none) = remaining :=
        List.filter_eq_self.2 fun lid hlid => decide_eq_true (hnone lid (hlids.mem_iff.1 hlid))
      rw [harcs, hleft] at ih
      rw [harcs, List.nil_append]
      refine ih hpath hlids ?_ fun hop hhop hmem => ?_
      · exact List.mem_append_left _ (List.mem_of_ne_of_mem (Ne.symm hnode) hstart)
      · rw [List.map_nil, List.append_nil] at hmem
        exact hrest hop hhop (List.mem_cons_of_mem _ hmem)

/-- So are those of a run of layers, when the path goes through the layers one after the other. -/
theorem RunOriented.hopArcs_mem {run : List (List String)} {stretches : List (List Hop)}
    {pairs : Oriented} (h : RunOriented graph upstream run pairs)
    (hlayers : List.Forall₂ (fun lids s => lids.Perm (s.map Hop.linkId)) run stretches)
    (hne : ∀ s ∈ stretches, s ≠ []) (hpath : IsPath graph start stretches.flatten)
    (hstart : start ∈ upstream) (hrest : ∀ hop ∈ stretches.flatten, hop.node ∉ upstream) :
    ∀ arc ∈ hopArcs start stretches.flatten, (arc.linkId, some (arc.src, arc.dst)) ∈ pairs := by
  induction h generalizing start stretches with
  | nil =>
    obtain rfl := List.forall₂_nil_left_iff.1 hlayers
    exact fun arc harc => absurd harc List.not_mem_nil
  | @cons upstream frontier lids arcs run more hperm hspreads _ ih =>
    obtain ⟨s, stretches, hs, hrun, rfl⟩ := List.forall₂_cons_left_iff.1 hlayers
    rw [List.forall_mem_cons] at hne
    rw [List.flatten_cons] at hpath hrest ⊢
    obtain ⟨hfirst, hsecond⟩ := hpath.append
    have harcs : arcs = hopArcs start s := hspreads.eq_hopArcs hfirst hs (hperm.mem_iff.2 hstart)
      fun hop hhop hmem => hrest hop (List.mem_append_left _ hhop) (hperm.mem_iff.1 hmem)
    -- The next layer is entered from the nodes of this one.
    have hnext : ∀ n, n ∈ nextUpstream upstream arcs ↔ n ∈ s.map Hop.node := by
      intro n
      rw [nextUpstream, harcs, map_dst_hopArcs, if_neg, List.mem_dedup]
      rw [List.dedup_eq_nil, List.map_eq_nil_iff]
      exact hne.1
    have hrest' : ∀ hop ∈ stretches.flatten, hop.node ∉ nextUpstream upstream arcs := by
      intro hop hhop hmem
      have hsimple := (List.nodup_cons.1 hpath.simple).2
      rw [List.map_append, List.nodup_append'] at hsimple
      exact hsimple.2.2 ((hnext _).1 hmem) (List.mem_map_of_mem hhop)
    rw [hopArcs_append]
    intro arc harc
    rcases List.mem_append.1 harc with harc | harc
    · refine List.mem_append_left _ (List.mem_append_left _ (List.mem_map.2 ⟨arc, ?_, rfl⟩))
      exact harcs ▸ harc
    · exact List.mem_append_right _ (ih hrun hne.2 hsecond ((hnext _).2 (endOf_mem _ hne.1)) hrest' arc
        harc)

end Along

/-! ## TTLs along a path -/

section Ttls

variable (routed : String → Prop) [DecidablePred routed]

/-- The TTLs on the links of a path: each router lowers it. -/
def ttlsAlong : (ttl : ℤ) → List Hop → List (String × ℤ)
  | _, [] => []
  | ttl, hop :: hops =>
    (hop.linkId, ttl) :: ttlsAlong (if routed hop.node then ttl - 1 else ttl) hops

/-- A probe was observed on every link of a path, and nowhere else, with the TTL that it has
    there. -/
structure Probed (ttl : ℤ) (hops : List Hop) (obs : List PacketObservation) : Prop where
  ttls : ∀ o ∈ obs, (o.linkId, o.ttl) ∈ ttlsAlong routed ttl hops
  every : ∀ hop ∈ hops, Observed obs hop.linkId

/-- The stretches of a path between its routers. -/
def stretches : List Hop → List (List Hop)
  | [] => []
  | hop :: hops =>
    match stretches hops with
    | [] => [[hop]]
    | s :: ss => if routed hop.node then [hop] :: s :: ss else (hop :: s) :: ss

/-- The TTLs on stretches: each has one less than the one before. -/
def levels : (ttl : ℤ) → List (List Hop) → List (String × ℤ)
  | _, [] => []
  | ttl, s :: ss => s.map (fun hop => (hop.linkId, ttl)) ++ levels (ttl - 1) ss

/-- TTLs that fall by one. -/
def falling : (ttl : ℤ) → ℕ → List ℤ
  | _, 0 => []
  | ttl, n + 1 => ttl :: falling (ttl - 1) n

variable {routed} {ttl : ℤ} {hops : List Hop} {ss : List (List Hop)} {obs : List PacketObservation}

theorem stretches_cons {hop : Hop} {s : List Hop} (h : stretches routed hops = s :: ss) :
    stretches routed (hop :: hops) =
      if routed hop.node then [hop] :: s :: ss else (hop :: s) :: ss := by
  rw [stretches, h]

variable (routed) in
theorem flatten_stretches (hops : List Hop) : (stretches routed hops).flatten = hops := by
  induction hops with
  | nil => rfl
  | cons hop hops ih =>
    rcases hss : stretches routed hops with _ | ⟨s, ss⟩
    · rw [hss] at ih
      rw [stretches, hss, ← ih]
      rfl
    · rw [hss] at ih
      rw [stretches_cons hss, ← ih]
      split_ifs <;> rfl

variable (routed) in
theorem exists_stretches (hne : hops ≠ []) : ∃ s ss, stretches routed hops = s :: ss := by
  refine List.exists_cons_of_ne_nil fun h => hne ?_
  rw [← flatten_stretches routed hops, h]
  rfl

theorem ne_nil_of_mem_stretches {s : List Hop} (h : s ∈ stretches routed hops) : s ≠ [] := by
  induction hops generalizing s with
  | nil => exact absurd h List.not_mem_nil
  | cons hop hops ih =>
    rcases hss : stretches routed hops with _ | ⟨t, ss⟩
    · rw [stretches, hss] at h
      exact List.mem_singleton.1 h ▸ List.cons_ne_nil _ _
    · rw [stretches_cons hss] at h
      rw [hss] at ih
      split_ifs at h
      · rcases List.mem_cons.1 h with rfl | h
        · exact List.cons_ne_nil _ _
        · exact ih h
      · rcases List.mem_cons.1 h with rfl | h
        · exact List.cons_ne_nil _ _
        · exact ih (List.mem_cons_of_mem _ h)

theorem ttlsAlong_eq (ttl : ℤ) (hops : List Hop) :
    ttlsAlong routed ttl hops = levels ttl (stretches routed hops) := by
  induction hops generalizing ttl with
  | nil => rfl
  | cons hop hops ih =>
    rcases hss : stretches routed hops with _ | ⟨s, ss⟩
    · rw [ttlsAlong, ih, stretches, hss]
      rfl
    · rw [ttlsAlong, ih, stretches_cons hss, hss]
      split_ifs <;> rfl

theorem map_fst_levels (ttl : ℤ) (ss : List (List Hop)) :
    (levels ttl ss).map Prod.fst = ss.flatten.map Hop.linkId := by
  induction ss generalizing ttl with
  | nil => rfl
  | cons s ss ih =>
    rw [levels, List.map_append, List.map_map, ih, List.flatten_cons, List.map_append]
    rfl

theorem mem_levels {lid : String} {t : ℤ} (h : (lid, t) ∈ levels ttl ss) :
    t ∈ falling ttl ss.length := by
  induction ss generalizing ttl with
  | nil => exact absurd h List.not_mem_nil
  | cons s ss ih =>
    rcases List.mem_append.1 h with h | h
    · obtain ⟨hop, -, heq⟩ := List.mem_map.1 h
      obtain ⟨-, rfl⟩ := Prod.mk.inj heq
      exact List.mem_cons_self
    · exact List.mem_cons_of_mem _ (ih h)

theorem exists_mem_levels {t : ℤ} (hne : ∀ s ∈ ss, s ≠ []) (h : t ∈ falling ttl ss.length) :
    ∃ lid, (lid, t) ∈ levels ttl ss := by
  induction ss generalizing ttl with
  | nil => exact absurd h List.not_mem_nil
  | cons s ss ih =>
    rw [List.forall_mem_cons] at hne
    rcases List.mem_cons.1 h with rfl | h
    · obtain ⟨hop, hhop⟩ := List.exists_mem_of_ne_nil s hne.1
      exact ⟨hop.linkId, List.mem_append_left _ (List.mem_map.2 ⟨hop, hhop, rfl⟩)⟩
    · obtain ⟨lid, hlid⟩ := ih hne.2 h
      exact ⟨lid, List.mem_append_right _ hlid⟩

theorem le_of_mem_falling {t : ℤ} {n : ℕ} (h : t ∈ falling ttl n) : t ≤ ttl := by
  induction n generalizing ttl with
  | zero => exact absurd h List.not_mem_nil
  | succ n ih =>
    rcases List.mem_cons.1 h with rfl | h
    · exact le_rfl
    · have := ih h
      omega

theorem pairwise_falling (ttl : ℤ) (n : ℕ) : (falling ttl n).Pairwise (· > ·) := by
  induction n generalizing ttl with
  | zero => exact .nil
  | succ n ih =>
    refine List.pairwise_cons.2 ⟨fun t ht => ?_, ih (ttl - 1)⟩
    have := le_of_mem_falling ht
    omega

theorem isChain_falling (ttl : ℤ) (n : ℕ) : (falling ttl n).IsChain fun hi lo => hi - lo = 1 := by
  induction n generalizing ttl with
  | zero => exact .nil
  | succ n ih =>
    rcases n with _ | n
    · exact .singleton _
    · exact .cons_cons (by omega) (ih (ttl - 1))

/-- The links on a path have the TTLs that the probe has on them. -/
theorem Probed.mem_linksAt (h : Probed routed ttl hops obs) (hnodup : (hops.map Hop.linkId).Nodup)
    {lid : String} {t : ℤ} : lid ∈ linksAt obs t ↔ (lid, t) ∈ ttlsAlong routed ttl hops := by
  have hkeys : ((ttlsAlong routed ttl hops).map Prod.fst).Nodup := by
    rw [ttlsAlong_eq, map_fst_levels, flatten_stretches]
    exact hnodup
  -- All that is observed on a link has the same TTL.
  have httl {t : ℤ} (hobserved : Observed obs lid) (hmem : (lid, t) ∈ ttlsAlong routed ttl hops) :
      ttlOf obs lid = t := by
    obtain ⟨o, ho, rfl⟩ := hobserved
    have hne : ttlsOn obs o.linkId ≠ [] := List.ne_nil_of_mem (List.mem_map_of_mem
      (List.mem_filter.2 ⟨ho, decide_eq_true rfl⟩))
    obtain ⟨o', ho', hsame⟩ := List.mem_map.1 (mostCommon_mem hne)
    obtain ⟨ho', hlid⟩ := List.mem_filter.1 ho'
    have hmem' := h.ttls o' ho'
    rw [of_decide_eq_true hlid] at hmem'
    have hpair : (o.linkId, o'.ttl) = (o.linkId, t) := List.inj_on_of_nodup_map hkeys hmem' hmem rfl
    exact hsame.symm.trans (Prod.mk.inj hpair).2
  rw [FlowReconstruct.mem_linksAt]
  constructor
  · rintro ⟨hobserved, rfl⟩
    obtain ⟨o, ho, rfl⟩ := hobserved
    rw [httl ⟨o, ho, rfl⟩ (h.ttls o ho)]
    exact h.ttls o ho
  · intro hmem
    have hlid : lid ∈ hops.map Hop.linkId := by
      have := List.mem_map_of_mem (f := Prod.fst) hmem
      rwa [ttlsAlong_eq, map_fst_levels, flatten_stretches routed] at this
    obtain ⟨hop, hhop, rfl⟩ := List.mem_map.1 hlid
    exact ⟨h.every hop hhop, httl (h.every hop hhop) hmem⟩

end Ttls

/-! ## The legs -/

section Legs

variable {graph : TopoGraph} {order : SetOrder} {routed : String → Prop} [DecidablePred routed]
  {ttl : ℤ} {source start : String} {hops : List Hop} {ss : List (List Hop)}
  {obs : List PacketObservation} {leg : Leg} {pairs : Oriented} {anchorOk : Bool} {path : FlowPath}

theorem forall₂_levels (hnodup : (ss.flatten.map Hop.linkId).Nodup)
    (h : ∀ lid, ∀ t ≤ ttl, lid ∈ linksAt obs t ↔ (lid, t) ∈ levels ttl ss) :
    List.Forall₂ (fun lids s => lids.Perm (s.map Hop.linkId))
      ((falling ttl ss.length).map (linksAt obs)) ss := by
  induction ss generalizing ttl with
  | nil => exact .nil
  | cons s ss ih =>
    rw [List.flatten_cons, List.map_append, List.nodup_append'] at hnodup
    refine .cons ((List.perm_ext_iff_of_nodup (nodup_linksAt obs ttl) hnodup.1).2 fun lid => ?_)
      (ih hnodup.2.1 fun lid t ht => (h lid t (by omega)).trans ?_)
    · rw [h lid ttl le_rfl, levels, List.mem_append, List.mem_map, List.mem_map, or_iff_left]
      · exact exists_congr fun hop => and_congr_right fun _ =>
          ⟨fun heq => (Prod.mk.inj heq).1, fun heq => by rw [heq]⟩
      · intro hlower
        have := le_of_mem_falling (mem_levels hlower)
        omega
    · rw [levels, List.mem_append, or_iff_right]
      intro hsame
      obtain ⟨hop, -, heq⟩ := List.mem_map.1 hsame
      have := (Prod.mk.inj heq).2
      omega

/-- The layers of a leg along a path are its stretches, in one run. -/
theorem Probed.exists_run (h : Probed routed ttl hops obs) (hpath : IsPath graph start hops)
    (hne : hops ≠ []) :
    ∃ run, runsOf obs = [run] ∧ List.Forall₂ (fun lids s => lids.Perm (s.map Hop.linkId)) run
      (stretches routed hops) := by
  obtain ⟨s, ss, hss⟩ := exists_stretches routed hne
  have hmem (lid : String) (t : ℤ) :
      lid ∈ linksAt obs t ↔ (lid, t) ∈ levels ttl (stretches routed hops) := by
    rw [h.mem_linksAt hpath.nodup_links, ttlsAlong_eq]
  have hall : ∀ t ∈ stretches routed hops, t ≠ [] := fun t ht => ne_nil_of_mem_stretches ht
  have httls : ttlsDesc obs = falling ttl (stretches routed hops).length := by
    refine ttlsDesc_eq (pairwise_falling _ _) fun t => ⟨fun ht => ?_, ?_⟩
    · obtain ⟨lid, hlid⟩ := exists_mem_levels hall ht
      exact ⟨lid, (hmem lid t).2 hlid⟩
    · rintro ⟨lid, hlid⟩
      exact mem_levels ((hmem lid t).1 hlid)
  have hnodup : ((stretches routed hops).flatten.map Hop.linkId).Nodup := by
    rw [flatten_stretches]
    exact hpath.nodup_links
  have hlayers := forall₂_levels hnodup fun lid t (_ : t ≤ ttl) => hmem lid t
  rw [← httls] at hlayers
  refine ⟨_, ?_, hlayers⟩
  have hchain := isChain_falling ttl (stretches routed hops).length
  rw [runsOf, httls]
  rw [hss, List.length_cons, falling] at hchain ⊢
  rw [contiguousRuns, runsFrom_of_chain hchain]
  rfl

theorem Probed.observed_iff (h : Probed routed ttl hops obs) {lid : String} :
    Observed obs lid ↔ lid ∈ hops.map Hop.linkId := by
  constructor
  · rintro ⟨o, ho, rfl⟩
    have := List.mem_map_of_mem (f := Prod.fst) (h.ttls o ho)
    rwa [ttlsAlong_eq, map_fst_levels, flatten_stretches routed] at this
  · intro hlid
    obtain ⟨hop, hhop, rfl⟩ := List.mem_map.1 hlid
    exact h.every hop hhop

theorem Probed.knows (h : Probed routed ttl hops obs) (hpath : IsPath graph start hops) :
    ∀ o ∈ obs, graph.Knows o.linkId := by
  intro o ho
  have hlid := h.observed_iff.1 ⟨o, ho, rfl⟩
  rw [← map_linkId_hopArcs start] at hlid
  obtain ⟨arc, harc, hsame⟩ := List.mem_map.1 hlid
  rw [← hsame]
  rcases hpath.joins arc harc with hends | hends
  · exact ⟨_, hends⟩
  · exact ⟨_, hends⟩

/-- The links of a leg, with the directions of its edges. -/
def FlowPath.arcs (path : FlowPath) : List Arc :=
  path.edges.map fun edge => ⟨edge.linkId, edge.srcNode, edge.dstNode⟩

theorem LegIs.nodup_arcs (h : LegIs graph order obs leg source pairs anchorOk path) :
    (path.arcs.map Arc.linkId).Nodup := by
  rw [FlowPath.arcs, List.map_map]
  exact h.nodup_edges

theorem LegIs.mem_arcs_of_mem_pairs (h : LegIs graph order obs leg source pairs anchorOk path)
    {lid a b : String} (hlid : Observed obs lid) (hpair : (lid, some (a, b)) ∈ pairs) :
    ⟨lid, a, b⟩ ∈ path.arcs := by
  have hends : pairs.ends lid = some (a, b) := by
    rw [Oriented.ends, (Dict.get?_ofList_of_nodup h.nodup_pairs).2 hpair]
    rfl
  refine List.mem_map.2 ⟨edgeOf obs pairs.ends lid, h.mem_edges.2 ⟨lid, hlid, rfl⟩, ?_⟩
  simp [edgeOf, hends]

theorem LegIs.mem_arcs_iff (h : LegIs graph order obs leg source pairs anchorOk path) {arcs : List Arc}
    (hlinks : ∀ lid, Observed obs lid ↔ lid ∈ arcs.map Arc.linkId)
    (hpairs : ∀ arc ∈ arcs, (arc.linkId, some (arc.src, arc.dst)) ∈ pairs) (arc : Arc) :
    arc ∈ path.arcs ↔ arc ∈ arcs := by
  have hsub : ∀ arc ∈ arcs, arc ∈ path.arcs := fun arc harc =>
    h.mem_arcs_of_mem_pairs ((hlinks _).2 (List.mem_map_of_mem harc)) (hpairs arc harc)
  refine ⟨fun harc => ?_, hsub arc⟩
  obtain ⟨edge, hedge, rfl⟩ := List.mem_map.1 harc
  obtain ⟨lid, hlid, rfl⟩ := h.mem_edges.1 hedge
  obtain ⟨arc', harc', hsame⟩ := List.mem_map.1 ((hlinks lid).1 hlid)
  exact List.inj_on_of_nodup_map h.nodup_arcs (hsub arc' harc') harc hsame ▸ harc'

/-- A leg along a path is oriented in its direction, if it is entered where the path begins and
    nowhere else on it. -/
theorem Probed.mem_arcs_iff (h : Probed routed ttl hops obs) (hpath : IsPath graph start hops)
    (hne : hops ≠ []) (hleg : LegIs graph order obs leg source pairs anchorOk path)
    (hupstream : ∀ run upstream, runsOf obs = [run] → initialUpstream graph run source = .ok upstream →
      start ∈ upstream ∧ ∀ hop ∈ hops, hop.node ∉ upstream) (arc : Arc) :
    arc ∈ path.arcs ↔ arc ∈ hopArcs start hops := by
  obtain ⟨run, hrun, hlayers⟩ := h.exists_run hpath hne
  obtain ⟨upstream, oriented, hstart, horiented, hsub⟩ := orient_spec hleg.oriented
    (hrun ▸ List.mem_singleton_self run)
  obtain ⟨hentry, hrest⟩ := hupstream run upstream hrun hstart
  refine hleg.mem_arcs_iff (fun lid => ?_) (fun arc harc => hsub ?_) arc
  · rw [h.observed_iff, map_linkId_hopArcs]
  · have hflat := flatten_stretches routed hops
    rw [← hflat] at hpath hrest harc
    exact (orientRun_spec horiented).hopArcs_mem hlayers (fun s hs => ne_nil_of_mem_stretches hs)
      hpath hentry hrest arc harc

end Legs

/-! ## Where a leg is entered -/

section Entry

variable {graph : TopoGraph} {order : SetOrder} {routed : String → Prop} [DecidablePred routed]
  {ttl : ℤ} {source start : String} {hop : Hop} {hops : List Hop} {obs : List PacketObservation}
  {pairs : Oriented} {anchorOk : Bool} {path : FlowPath}

theorem IsPath.not_mem_both {hops' : List Hop} (h : IsPath graph start (hops ++ hops')) {n : String}
    (hn : n ∈ start :: hops.map Hop.node) : n ∉ hops'.map Hop.node := by
  have hsimple := h.simple
  rw [List.map_append, ← List.cons_append, List.nodup_append'] at hsimple
  exact fun hn' => hsimple.2.2 hn hn'

theorem IsPath.touches_iff (h : IsPath graph start hops) (hne : hops ≠ []) {lids : List String}
    (hlids : lids.Perm (hops.map Hop.linkId)) (n : String) :
    graph.Touches lids n ↔ n ∈ start :: hops.map Hop.node := by
  constructor
  · rintro ⟨lid, hlid, b, hjoins⟩
    exact h.mem_of_joins (hlids.mem_iff.1 hlid) hjoins
  · intro hn
    have hlink {arc : Arc} (harc : arc ∈ hopArcs start hops) : arc.linkId ∈ lids := by
      rw [hlids.mem_iff, ← map_linkId_hopArcs start]
      exact List.mem_map_of_mem harc
    rcases List.mem_cons.1 hn with rfl | hn
    · obtain ⟨hop, hops, rfl⟩ := List.exists_cons_of_ne_nil hne
      exact ⟨_, hlink List.mem_cons_self, _, h.joins _ List.mem_cons_self⟩
    · rw [← map_dst_hopArcs start] at hn
      obtain ⟨arc, harc, rfl⟩ := List.mem_map.1 hn
      exact ⟨_, hlink harc, _, (h.joins arc harc).symm⟩

/-- The forward leg is entered at the source. -/
theorem forward_arcs (h : Probed routed ttl hops obs) (hpath : IsPath graph source hops)
    (hne : hops ≠ []) (hleg : LegIs graph order obs .forward source pairs anchorOk path) (arc : Arc) :
    arc ∈ path.arcs ↔ arc ∈ hopArcs source hops := by
  refine h.mem_arcs_iff hpath hne hleg (fun run upstream hrun hupstream => ?_) arc
  obtain ⟨s, ss, hss⟩ := exists_stretches routed hne
  obtain ⟨run', hrun', hlayers⟩ := h.exists_run hpath hne
  obtain rfl : run' = run := by simpa using hrun'.symm.trans hrun
  rw [hss] at hlayers
  obtain ⟨lids, run, hlids, -, rfl⟩ := List.forall₂_cons_right_iff.1 hlayers
  have hflat := flatten_stretches routed hops
  rw [hss, List.flatten_cons] at hflat
  rw [← hflat] at hpath
  have htouches := (hpath.append.1.touches_iff (ne_nil_of_mem_stretches (hss ▸ List.mem_cons_self))
    hlids source).2 List.mem_cons_self
  obtain rfl := initialUpstream_of_joins hupstream htouches
  rw [hflat] at hpath
  refine ⟨List.mem_singleton_self _, fun hop hhop hmem => ?_⟩
  exact (List.nodup_cons.1 hpath.simple).1 (List.mem_singleton.1 hmem ▸ List.mem_map_of_mem hhop)

/-- The layers of a return leg with several stretches, and the nodes that it is entered from. -/
theorem Probed.entry (h : Probed routed ttl hops obs) (hpath : IsPath graph start hops)
    (hsource : endOf start hops = source) {s t : List Hop} {ss : List (List Hop)}
    (hss : stretches routed hops = s :: t :: ss) {run : List (List String)} {upstream : List String}
    (hrun : runsOf obs = [run]) (hupstream : initialUpstream graph run source = .ok upstream)
    (n : String) :
    n ∈ upstream ↔ n ∈ start :: s.map Hop.node ∧ n ≠ endOf start s := by
  have hs : s ≠ [] := ne_nil_of_mem_stretches (hss ▸ List.mem_cons_self)
  have ht : t ≠ [] := ne_nil_of_mem_stretches (hss ▸ List.mem_cons_of_mem _ List.mem_cons_self)
  have hflat := flatten_stretches routed hops
  rw [hss, List.flatten_cons] at hflat
  have hne : hops ≠ [] := by
    rw [← hflat]
    exact List.append_ne_nil_of_left_ne_nil hs _
  obtain ⟨run', hrun', hlayers⟩ := h.exists_run hpath hne
  obtain rfl : run' = run := by simpa using hrun'.symm.trans hrun
  rw [hss] at hlayers
  obtain ⟨top, rest, htop, hrest, rfl⟩ := List.forall₂_cons_right_iff.1 hlayers
  obtain ⟨second, rest, hsecond, -, rfl⟩ := List.forall₂_cons_right_iff.1 hrest
  rw [← hflat] at hpath hsource
  have hfirst := hpath.append.1.touches_iff hs htop
  have hnext := hpath.append.2
  rw [List.flatten_cons] at hnext
  -- The source is in a layer further down.
  have hnot : ¬graph.Touches top source := fun htouches => by
    refine hpath.not_mem_both ((hfirst source).1 htouches) ?_
    rw [← hsource, endOf_append]
    exact endOf_mem _ (List.append_ne_nil_of_left_ne_nil ht _)
  rw [mem_initialUpstream hupstream hnot, hfirst, hnext.append.1.touches_iff ht hsecond]
  refine and_congr_right fun hn => not_congr ?_
  rw [List.mem_cons, or_iff_left]
  intro hmem
  refine hpath.not_mem_both hn ?_
  rw [List.flatten_cons, List.map_append]
  exact List.mem_append_left _ hmem

/-- A return leg whose first stretch is a single link, and not the last one, is entered at its
    beginning. -/
theorem back_arcs (h : Probed routed ttl hops obs) (hpath : IsPath graph start hops)
    (hsource : endOf start hops = source) {hop hop' : Hop} {rest : List Hop}
    (hhops : hops = hop :: hop' :: rest) (hrouted : routed hop.node)
    (hleg : LegIs graph order obs .back source pairs anchorOk path) (arc : Arc) :
    arc ∈ path.arcs ↔ arc ∈ hopArcs start hops := by
  refine h.mem_arcs_iff hpath (hhops ▸ List.cons_ne_nil _ _) hleg
    (fun run upstream hrun hupstream => ?_) arc
  obtain ⟨t, ss, hss⟩ := exists_stretches routed (List.cons_ne_nil hop' rest)
  have hall : stretches routed hops = [hop] :: t :: ss := by
    rw [hhops, stretches_cons hss, if_pos hrouted]
  have hentry := h.entry hpath hsource hall hrun hupstream
  have hsimple := List.nodup_cons.1 hpath.simple
  constructor
  · refine (hentry start).2 ⟨List.mem_cons_self, fun heq => hsimple.1 ?_⟩
    have heq : start = hop.node := heq
    rw [heq, hhops]
    exact List.mem_cons_self
  · intro hop'' hmem hin
    obtain ⟨hin, hne⟩ := (hentry _).1 hin
    rcases List.mem_cons.1 hin with heq | hin
    · exact hsimple.1 (heq ▸ List.mem_map_of_mem hmem)
    · exact hne (List.mem_singleton.1 hin)

/-- The order that takes a node first. -/
def nodeFirst (node : String) : SetOrder where
  nodes _ upstream := if node ∈ upstream then node :: upstream.erase node else upstream
  links _ remaining := remaining
  nodes_perm _ upstream := by
    by_cases h : node ∈ upstream
    · rw [if_pos h]
      exact (List.perm_cons_erase h).symm
    · rw [if_neg h]
  links_perm _ _ := .refl _

/-- Any other return leg has its first link the wrong way, in some order of the sets. -/
theorem back_arcs_wrong (h : Probed routed ttl hops obs) (hpath : IsPath graph start hops)
    (hsource : endOf start hops = source) {rest : List Hop} (hhops : hops = hop :: rest)
    (hnot : rest ≠ [] → ¬routed hop.node)
    (hleg : LegIs graph (nodeFirst hop.node) obs .back source pairs anchorOk path) :
    ⟨hop.linkId, hop.node, start⟩ ∈ path.arcs := by
  have hne : hops ≠ [] := hhops ▸ List.cons_ne_nil _ _
  have hfirst : ⟨hop.linkId, start, hop.node⟩ ∈ hopArcs start hops := hhops ▸ List.mem_cons_self
  obtain ⟨run, hrun, hlayers⟩ := h.exists_run hpath hne
  obtain ⟨upstream, oriented, hupstream, horiented, hsub⟩ := orient_spec hleg.oriented
    (hrun ▸ List.mem_singleton_self run)
  refine hleg.mem_arcs_of_mem_pairs (h.every hop (hhops ▸ List.mem_cons_self)) (hsub ?_)
  obtain ⟨s, ss, hss⟩ := exists_stretches routed hne
  rcases ss with _ | ⟨t, ss⟩
  · -- One layer, with the source in it: it is entered there.
    have hflat := flatten_stretches routed hops
    rw [hss, List.flatten_singleton] at hflat
    rw [hss, hflat] at hlayers
    obtain ⟨lids, run, hlids, hnil, rfl⟩ := List.forall₂_cons_right_iff.1 hlayers
    obtain rfl := List.forall₂_nil_right_iff.1 hnil
    have htouches := (hpath.touches_iff hne hlids source).2
      (List.mem_cons_of_mem _ (hsource ▸ endOf_mem _ hne))
    obtain rfl := initialUpstream_of_joins hupstream htouches
    have hback := hpath.back
    -- The layer is the path backwards, from the source on.
    have hlinks : lids.Perm ((hopsBack start hops).map Hop.linkId) := by
      rw [← map_linkId_hopArcs (endOf start hops), hopArcs_hopsBack, List.map_reverse, List.map_map]
      refine hlids.trans ((List.Perm.of_eq ?_).trans (List.reverse_perm _).symm)
      exact (map_linkId_hopArcs start hops).symm
    rw [hsource] at hback
    have hlayer : List.Forall₂ (fun lids s => lids.Perm (s.map Hop.linkId)) [lids]
        [hopsBack start hops] := .cons hlinks .nil
    have hpath' : IsPath graph source [hopsBack start hops].flatten := by simpa using hback
    have hall := (orientRun_spec horiented).hopArcs_mem hlayer (fun s hs => ?_) hpath'
      (List.mem_singleton_self _) (fun hop' hhop' hmem => ?_)
    · refine hall ⟨hop.linkId, hop.node, start⟩ ?_
      rw [List.flatten_singleton, ← hsource, hopArcs_hopsBack, List.mem_reverse]
      exact List.mem_map_of_mem (f := Arc.flip) hfirst
    · rw [List.mem_singleton.1 hs, hhops, hopsBack]
      exact List.append_ne_nil_of_right_ne_nil _ (List.cons_ne_nil _ _)
    · rw [List.flatten_singleton] at hhop'
      exact (List.nodup_cons.1 hback.simple).1
        (List.mem_singleton.1 hmem ▸ List.mem_map_of_mem hhop')
  · -- Several layers: the next node is among those that the first one is entered from.
    have hentry := h.entry hpath hsource hss hrun hupstream
    have hrest : rest ≠ [] := by
      rintro rfl
      rw [hhops] at hss
      exact absurd hss (by simp [stretches])
    obtain ⟨s', ss', hss'⟩ := exists_stretches routed hrest
    rw [hhops, stretches_cons hss', if_neg (hnot hrest)] at hss
    obtain ⟨rfl, rfl⟩ := List.cons.inj hss
    have hs' : s' ≠ [] := ne_nil_of_mem_stretches (hss' ▸ List.mem_cons_self)
    -- The path is simple, so the next node is not where the layer ends.
    have hmem : hop.node ∈ upstream := by
      refine (hentry _).2 ⟨List.mem_cons_of_mem _ List.mem_cons_self, fun heq => ?_⟩
      have hflat := flatten_stretches routed rest
      rw [hss', List.flatten_cons] at hflat
      have hsimple := (List.nodup_cons.1 hpath.simple).2
      rw [hhops, List.map_cons, List.nodup_cons, ← hflat, List.map_append] at hsimple
      have heq : hop.node = endOf hop.node s' := heq
      refine hsimple.1 (List.mem_append_left _ ?_)
      rw [heq]
      exact endOf_mem _ hs'
    rw [hhops, stretches_cons hss', if_neg (hnot hrest)] at hlayers
    obtain ⟨lids, run, hlids, -, rfl⟩ := List.forall₂_cons_right_iff.1 hlayers
    obtain ⟨arcs, more, harcs, -, rfl⟩ := orientRun_cons horiented
    have hspreads := spreads_of_spread harcs
    have hnodes : (nodeFirst hop.node).nodes lids upstream = hop.node :: upstream.erase hop.node :=
      if_pos hmem
    rw [hnodes] at hspreads
    refine List.mem_append_left _ (List.mem_append_left _
      (List.mem_map.2 ⟨⟨hop.linkId, hop.node, start⟩, ?_, rfl⟩))
    exact hspreads.mem_of_head (hlids.mem_iff.2 List.mem_cons_self) (hpath.joins _ hfirst).symm

end Entry

/-! ## Both legs -/

section Mirrored

/-- A node where the leg begins: it goes on from it, and does not come to it. -/
def FlowPath.BeginsAt (path : FlowPath) (n : String) : Prop :=
  n ∈ path.arcs.map Arc.src ∧ n ∉ path.arcs.map Arc.dst

/-- A node where the leg ends. -/
def FlowPath.EndsAt (path : FlowPath) (n : String) : Prop :=
  n ∈ path.arcs.map Arc.dst ∧ n ∉ path.arcs.map Arc.src

/-- The return leg is the forward leg the other way. -/
structure ReconstructionResult.Mirrored (result : ReconstructionResult) : Prop where
  reversed : ∀ arc, arc ∈ result.backward.arcs ↔ arc.flip ∈ result.forward.arcs
  meets : ∃ n, (∀ m, result.forward.EndsAt m ↔ m = n) ∧ ∀ m, result.backward.BeginsAt m ↔ m = n
  symmetric : result.asymmetric = false

variable {graph : TopoGraph} {routed : String → Prop} [DecidablePred routed]
  {ttl ttl' : ℤ} {source start : String} {hops : List Hop} {observations : List PacketObservation}
  {forward backward : FlowPath}

theorem edgeMap_items (path : FlowPath) :
    edgeMap path = .ofList (path.arcs.map fun arc => (arc.linkId, arc.src, arc.dst)) := by
  rw [edgeMap, FlowPath.arcs, FlowPath.edges, List.map_map, List.map_flatMap]
  rfl

theorem get?_edgeMap {path : FlowPath} (hnodup : (path.arcs.map Arc.linkId).Nodup) {lid a b : String} :
    (edgeMap path).get? lid = some (a, b) ↔ ⟨lid, a, b⟩ ∈ path.arcs := by
  rw [edgeMap_items, Dict.get?_ofList_of_nodup (by rw [List.map_map]; exact hnodup), List.mem_map]
  constructor
  · rintro ⟨arc, harc, heq⟩
    obtain ⟨hlid, hends⟩ := Prod.mk.inj heq
    obtain ⟨hsrc, hdst⟩ := Prod.mk.inj hends
    subst hlid hsrc hdst
    exact harc
  · exact fun harc => ⟨_, harc, rfl⟩

/-- Legs that are the reverse of each other are not asymmetric. -/
theorem isAsymmetric_eq_false (hforward : (forward.arcs.map Arc.linkId).Nodup)
    (hbackward : (backward.arcs.map Arc.linkId).Nodup)
    (h : ∀ arc, arc ∈ backward.arcs ↔ arc.flip ∈ forward.arcs) :
    isAsymmetric forward backward = false := by
  have hget (lid a b : String) :
      (edgeMap backward).get? lid = some (a, b) ↔ (edgeMap forward).get? lid = some (b, a) := by
    rw [get?_edgeMap hbackward, get?_edgeMap hforward, h]
    rfl
  have hkeys (lid : String) : lid ∈ (edgeMap forward).keys ↔ lid ∈ (edgeMap backward).keys := by
    rw [Dict.mem_keys_iff, Dict.mem_keys_iff]
    constructor
    · rintro ⟨⟨a, b⟩, hab⟩
      exact ⟨(b, a), (hget lid b a).2 hab⟩
    · rintro ⟨⟨a, b⟩, hab⟩
      exact ⟨(b, a), (hget lid a b).1 hab⟩
  have hsame : (edgeMap forward).keys ⊆ (edgeMap backward).keys ∧
      (edgeMap backward).keys ⊆ (edgeMap forward).keys :=
    ⟨fun lid => (hkeys lid).1, fun lid => (hkeys lid).2⟩
  rw [isAsymmetric]
  simp only
  rw [if_neg (not_not_intro hsame)]
  split_ifs
  · rfl
  · rw [List.any_eq_false]
    rintro ⟨lid, a, b⟩ hitem
    simpa using (hget lid b a).2 (Dict.get?_eq_some_iff.2 hitem)

theorem endsAt_iff (hpath : IsPath graph start hops) (hne : hops ≠ []) {path : FlowPath}
    (harcs : ∀ arc, arc ∈ path.arcs ↔ arc ∈ hopArcs start hops) (m : String) :
    path.EndsAt m ↔ m = endOf start hops := by
  have hmem (f : Arc → String) (m : String) :
      m ∈ path.arcs.map f ↔ m ∈ (hopArcs start hops).map f := by
    rw [List.mem_map, List.mem_map]
    exact exists_congr fun arc => and_congr_left fun _ => harcs arc
  rw [FlowPath.EndsAt, hmem, hmem]
  obtain ⟨hwalk, hfinish⟩ := isWalk_hopArcs start hops
  constructor
  · rintro ⟨hdst, hsrc⟩
    exact (hwalk.eq_finish hdst hsrc).trans hfinish
  · rintro rfl
    refine ⟨?_, fun hsrc => ?_⟩
    · rw [map_dst_hopArcs]
      exact endOf_mem _ hne
    · obtain ⟨arc, harc, heq⟩ := List.mem_map.1 hsrc
      exact src_ne_endOf hpath.simple harc heq

theorem beginsAt_iff_endsAt (h : ∀ arc, arc ∈ backward.arcs ↔ arc.flip ∈ forward.arcs) (m : String) :
    backward.BeginsAt m ↔ forward.EndsAt m := by
  have hsrc : m ∈ backward.arcs.map Arc.src ↔ m ∈ forward.arcs.map Arc.dst := by
    simp only [List.mem_map]
    constructor
    · rintro ⟨arc, harc, rfl⟩
      exact ⟨arc.flip, (h arc).1 harc, rfl⟩
    · rintro ⟨arc, harc, rfl⟩
      exact ⟨arc.flip, (h arc.flip).2 harc, rfl⟩
  have hdst : m ∈ backward.arcs.map Arc.dst ↔ m ∈ forward.arcs.map Arc.src := by
    simp only [List.mem_map]
    constructor
    · rintro ⟨arc, harc, rfl⟩
      exact ⟨arc.flip, (h arc).1 harc, rfl⟩
    · rintro ⟨arc, harc, rfl⟩
      exact ⟨arc.flip, (h arc.flip).2 harc, rfl⟩
  rw [FlowPath.BeginsAt, FlowPath.EndsAt, hsrc, hdst]

theorem hopsBack_append (start : String) (hops hops' : List Hop) :
    hopsBack start (hops ++ hops') = hopsBack (endOf start hops) hops' ++ hopsBack start hops := by
  induction hops generalizing start with
  | nil => rw [List.nil_append, endOf, hopsBack, List.append_nil]
  | cons hop hops ih => rw [List.cons_append, hopsBack, ih, endOf, hopsBack, List.append_assoc]

theorem hopsBack_hopsBack (start : String) (hops : List Hop) :
    hopsBack (endOf start hops) (hopsBack start hops) = hops := by
  induction hops generalizing start with
  | nil => rfl
  | cons hop hops ih =>
    rw [endOf, hopsBack.eq_2 start, hopsBack_append, ih, endOf_hopsBack]
    rfl

theorem hopsBack_ne_nil (start : String) (hne : hops ≠ []) : hopsBack start hops ≠ [] := by
  obtain ⟨hop, hops, rfl⟩ := List.exists_cons_of_ne_nil hne
  exact List.append_ne_nil_of_right_ne_nil _ (List.cons_ne_nil _ _)

theorem Probed.ne_nil {obs : List PacketObservation} (h : Probed routed ttl hops obs)
    (hne : hops ≠ []) : obs ≠ [] := by
  obtain ⟨hop, hhop⟩ := List.exists_mem_of_ne_nil hops hne
  obtain ⟨o, ho, -⟩ := h.every hop hhop
  exact List.ne_nil_of_mem ho

/-- The links of the return path are those of the path, the other way. -/
theorem mem_hopArcs_hopsBack (arc : Arc) :
    arc ∈ hopArcs (endOf source hops) (hopsBack source hops) ↔ arc.flip ∈ hopArcs source hops := by
  rw [hopArcs_hopsBack, List.mem_reverse, List.mem_map]
  constructor
  · rintro ⟨arc, harc, rfl⟩
    exact harc
  · exact fun harc => ⟨arc.flip, harc, rfl⟩

/-- Without a router before the end, the return leg goes the wrong way in some order. -/
theorem not_mirrored (hpath : IsPath graph source hops) (hne : hops ≠ [])
    (hforward : Probed routed ttl hops (observations.filter (·.direction = .forward)))
    (hback : Probed routed ttl' (hopsBack source hops) (observations.filter (·.direction = .back)))
    (hnot : ¬∃ before hop last, hops = before ++ [hop, last] ∧ routed hop.node) :
    ∃ order : Leg → SetOrder, ¬∃ result,
      reconstruct graph order observations source = .ok result ∧ result.Mirrored := by
  have hne' := hopsBack_ne_nil source hne
  obtain ⟨hop, rest, hhops⟩ := List.exists_cons_of_ne_nil hne'
  refine ⟨fun _ => nodeFirst hop.node, fun ⟨result, hresult, hmirrored⟩ => ?_⟩
  obtain ⟨forward, backward, hf, hb, rfl⟩ := reconstruct_eq_ok.1 hresult
  obtain ⟨_, _, hfleg⟩ := legIs_of_reconstructLeg (hforward.ne_nil hne) hf
  obtain ⟨_, _, hbleg⟩ := legIs_of_reconstructLeg (hback.ne_nil hne') hb
  have hbridged : rest ≠ [] → ¬routed hop.node := by
    intro hrest hrouted
    obtain ⟨hop', rest, rfl⟩ := List.exists_cons_of_ne_nil hrest
    have hall := hopsBack_hopsBack source hops
    rw [hhops, hopsBack, hopsBack, List.append_assoc] at hall
    exact hnot ⟨_, _, _, hall.symm, hrouted⟩
  have hwrong := back_arcs_wrong hback hpath.back (endOf_hopsBack source hops) hhops hbridged hbleg
  -- The first link of the return leg has the same direction in both legs.
  have hright : ⟨hop.linkId, hop.node, endOf source hops⟩ ∈ hopArcs source hops :=
    (mem_hopArcs_hopsBack ⟨hop.linkId, endOf source hops, hop.node⟩).1 (hhops ▸ List.mem_cons_self)
  have hsame := List.inj_on_of_nodup_map hfleg.nodup_arcs ((hmirrored.reversed _).1 hwrong)
    ((forward_arcs hforward hpath hne hfleg _).2 hright) rfl
  have heq : endOf source hops = hop.node := (Arc.mk.inj hsame).2.1
  refine (List.nodup_cons.1 hpath.back.simple).1 ?_
  rw [hhops, heq]
  exact List.mem_cons_self

/-- With a router there, both legs are right in every order. -/
theorem mirrored {before : List Hop} {hop last : Hop} (hpath : IsPath graph source hops)
    (hforward : Probed routed ttl hops (observations.filter (·.direction = .forward)))
    (hback : Probed routed ttl' (hopsBack source hops) (observations.filter (·.direction = .back)))
    (hhops : hops = before ++ [hop, last]) (hrouted : routed hop.node) (order : Leg → SetOrder) :
    ∃ result, reconstruct graph order observations source = .ok result ∧ result.Mirrored := by
  have hne : hops ≠ [] := hhops ▸ List.append_ne_nil_of_right_ne_nil _ (List.cons_ne_nil _ _)
  have hback' : hopsBack source hops =
      ⟨last.linkId, hop.node⟩ :: ⟨hop.linkId, endOf source before⟩ :: hopsBack source before := by
    rw [hhops, hopsBack_append]
    rfl
  obtain ⟨forward, hf⟩ := exists_reconstructLeg (order .forward) source .forward
    (hforward.knows hpath)
  obtain ⟨backward, hb⟩ := exists_reconstructLeg (order .back) source .back
    (hback.knows hpath.back)
  obtain ⟨_, _, hfleg⟩ := legIs_of_reconstructLeg (hforward.ne_nil hne) hf
  obtain ⟨_, _, hbleg⟩ := legIs_of_reconstructLeg (hback.ne_nil (hopsBack_ne_nil source hne)) hb
  have hfarcs := forward_arcs hforward hpath hne hfleg
  have hbarcs := back_arcs hback hpath.back (endOf_hopsBack source hops) hback' hrouted hbleg
  have hreversed (arc : Arc) : arc ∈ backward.arcs ↔ arc.flip ∈ forward.arcs :=
    (hbarcs arc).trans ((mem_hopArcs_hopsBack arc).trans (hfarcs _).symm)
  refine ⟨_, reconstruct_eq_ok.2 ⟨forward, backward, hf, hb, rfl⟩, hreversed, ?_, ?_⟩
  · have hends := endsAt_iff hpath hne hfarcs
    exact ⟨_, hends, fun m => (beginsAt_iff_endsAt hreversed m).trans (hends m)⟩
  · exact isAsymmetric_eq_false hfleg.nodup_arcs hbleg.nodup_arcs hreversed

/-- A probe that goes along a path and back, whether or not its packets have keys, is reconstructed
    as such in every order of the sets just when the last node before the end of the path is a
    router. -/
theorem mirrored_iff (hpath : IsPath graph source hops) (hne : hops ≠ [])
    (hforward : Probed routed ttl hops (observations.filter (·.direction = .forward)))
    (hback : Probed routed ttl' (hopsBack source hops) (observations.filter (·.direction = .back))) :
    (∀ order : Leg → SetOrder, ∃ result,
      reconstruct graph order observations source = .ok result ∧ result.Mirrored) ↔
      ∃ before hop last, hops = before ++ [hop, last] ∧ routed hop.node := by
  constructor
  · intro h
    by_contra hnot
    obtain ⟨order, hfails⟩ := not_mirrored hpath hne hforward hback hnot
    exact hfails (h order)
  · rintro ⟨before, hop, last, hhops, hrouted⟩
    exact mirrored hpath hforward hback hhops hrouted

/-- A probe over a router and back. -/
def echoObservations : List PacketObservation :=
  [⟨"L0", 64, .forward, some "icmp:1:0"⟩, ⟨"L1", 63, .forward, some "icmp:1:0"⟩,
    ⟨"L1", 64, .back, some "icmp:1:0"⟩, ⟨"L0", 63, .back, some "icmp:1:0"⟩]

theorem mirrored_iff_router :
    ∃ result, reconstruct routerGraph (fun _ => asAdded) echoObservations "S" = .ok result ∧
      result.Mirrored := by
  have hpath : IsPath routerGraph "S" [⟨"L0", "R1"⟩, ⟨"L1", "D"⟩] := by
    refine ⟨fun arc harc => ?_, by decide⟩
    rcases List.mem_cons.1 harc with rfl | harc
    · exact .inl rfl
    · obtain rfl := List.mem_singleton.1 harc
      exact .inl rfl
  have hforward : Probed (· = "R1") 64 [⟨"L0", "R1"⟩, ⟨"L1", "D"⟩]
      (echoObservations.filter (·.direction = .forward)) :=
    ⟨by decide, by simp [Observed, echoObservations]⟩
  have hback : Probed (· = "R1") 64 (hopsBack "S" [⟨"L0", "R1"⟩, ⟨"L1", "D"⟩])
      (echoObservations.filter (·.direction = .back)) :=
    ⟨by decide, by simp [Observed, echoObservations, hopsBack]⟩
  exact (mirrored_iff hpath (List.cons_ne_nil _ _) hforward hback).2 ⟨[], _, _, rfl, rfl⟩ fun _ => asAdded

/-- A probe over a single link and back: both legs are taken to go from the source. -/
theorem not_mirrored_link :
    ∃ order : Leg → SetOrder, ¬∃ result,
      reconstruct ⟨[⟨"L0", "S", "D"⟩]⟩ order
        [⟨"L0", 64, .forward, some "icmp:1:0"⟩, ⟨"L0", 64, .back, some "icmp:1:0"⟩] "S" =
          .ok result ∧ result.Mirrored := by
  have hpath : IsPath ⟨[⟨"L0", "S", "D"⟩]⟩ "S" [⟨"L0", "D"⟩] := by
    refine ⟨fun arc harc => ?_, by decide⟩
    obtain rfl := List.mem_singleton.1 harc
    exact .inl rfl
  have hforward : Probed (fun _ => False) 64 [⟨"L0", "D"⟩]
      [⟨"L0", 64, .forward, some "icmp:1:0"⟩] := ⟨by decide, by simp [Observed]⟩
  have hback : Probed (fun _ => False) 64 (hopsBack "S" [⟨"L0", "D"⟩])
      [⟨"L0", 64, .back, some "icmp:1:0"⟩] := ⟨by decide, by simp [Observed, hopsBack]⟩
  refine not_mirrored hpath (List.cons_ne_nil _ _) hforward hback ?_
  rintro ⟨before, hop, last, -, hrouted⟩
  exact hrouted

end Mirrored

end Dnlab.FlowReconstruct
