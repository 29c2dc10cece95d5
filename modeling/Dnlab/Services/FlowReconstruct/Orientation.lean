import Dnlab.Lib.Except
import Dnlab.Services.FlowReconstruct

/-!
# The orientation of a layer

What `orientSameTtlLinks` does, whatever the order of its sets: the turns of the
nodes on the frontier, each of which orients the links that are left at its node
away from it (`Spreads`). Every link that is oriented goes from a node that was
visited to one that was not (`Spreads.exists_rank`), and begins where the layer is
entered or where another one ends (`Spreads.src_mem`).
-/

namespace Dnlab.FlowReconstruct

open ExceptRules (bind_eq_ok pure_eq_ok)

/-! ## Links at a node -/

section Leaving

variable {graph : TopoGraph} {node lid : String}

/-- The graph has the link. -/
def TopoGraph.Knows (graph : TopoGraph) (lid : String) : Prop :=
  ∃ ends, graph.linkEndpoints lid = .ok ends

/-- The link is between the two nodes. -/
def TopoGraph.Joins (graph : TopoGraph) (lid a b : String) : Prop :=
  graph.linkEndpoints lid = .ok (a, b) ∨ graph.linkEndpoints lid = .ok (b, a)

theorem TopoGraph.Joins.symm {a b : String} (h : graph.Joins lid a b) : graph.Joins lid b a :=
  Or.symm h

/-- The link, away from the node, if it is at the node. -/
def away (graph : TopoGraph) (node lid : String) : Option Arc :=
  match graph.linkEndpoints lid with
  | .ok (a, b) =>
    if node = a then some ⟨lid, a, b⟩ else if node = b then some ⟨lid, b, a⟩ else none
  | .error _ => none

theorem away_of_ends {a b : String} (h : graph.linkEndpoints lid = .ok (a, b)) :
    away graph node lid =
      if node = a then some ⟨lid, a, b⟩ else if node = b then some ⟨lid, b, a⟩ else none := by
  rw [away, h]

theorem away_eq_some {arc : Arc} (h : away graph node lid = some arc) :
    arc.linkId = lid ∧ arc.src = node ∧ graph.Joins lid node arc.dst := by
  rw [away] at h
  split at h
  · rename_i a b hends
    split_ifs at h with ha hb
    · obtain rfl := Option.some.inj h
      exact ⟨rfl, ha.symm, .inl (ha ▸ hends)⟩
    · obtain rfl := Option.some.inj h
      exact ⟨rfl, hb.symm, .inr (hb ▸ hends)⟩
  · exact absurd h (by simp)

/-- A link that is not away from the node is not at it. -/
theorem not_joins_of_away_eq_none (h : away graph node lid = none) (b : String) :
    ¬graph.Joins lid node b := by
  rintro (hends | hends) <;> rw [away, hends] at h
  · simp at h
  · by_cases hb : node = b <;> simp [hb] at h

/-- A link is at two nodes only. -/
theorem TopoGraph.Joins.eq_or_eq {lid a b c d : String} (h : graph.Joins lid a b)
    (h' : graph.Joins lid c d) : a = c ∧ b = d ∨ a = d ∧ b = c := by
  rcases h with h | h <;> rcases h' with h' | h' <;>
    obtain ⟨rfl, rfl⟩ := Prod.mk.inj (Except.ok.inj (h.symm.trans h'))
  · exact .inl ⟨rfl, rfl⟩
  · exact .inr ⟨rfl, rfl⟩
  · exact .inr ⟨rfl, rfl⟩
  · exact .inl ⟨rfl, rfl⟩

theorem away_eq_none (h : ∀ b, ¬graph.Joins lid node b) : away graph node lid = none := by
  rcases haway : away graph node lid with _ | arc
  · rfl
  · exact absurd (away_eq_some haway).2.2 (h _)

theorem away_of_joins {b : String} (h : graph.Joins lid node b) : away graph node lid = some ⟨lid, node, b⟩ := by
  rcases haway : away graph node lid with _ | ⟨lid', src, dst⟩
  · exact absurd h (not_joins_of_away_eq_none haway b)
  · obtain ⟨rfl, rfl, hjoins⟩ := away_eq_some haway
    have hdst : b = dst := (h.eq_or_eq hjoins).elim And.right fun h => h.2.trans h.1
    rw [hdst]

theorem leaving_eq_ok {lids : List String} {arcs : List Arc} :
    leaving graph node lids = .ok arcs ↔
      (∀ lid ∈ lids, graph.Knows lid) ∧ arcs = lids.filterMap (away graph node) := by
  induction lids generalizing arcs with
  | nil =>
    rw [leaving, pure_eq_ok]
    exact ⟨fun h => ⟨fun _ h => absurd h List.not_mem_nil, h.symm⟩, fun h => h.2.symm⟩
  | cons lid lids ih =>
    rw [leaving, bind_eq_ok, List.forall_mem_cons]
    constructor
    · rintro ⟨⟨a, b⟩, hends, h⟩
      obtain ⟨rest, hrest, h⟩ := bind_eq_ok.1 h
      obtain ⟨hknows, rfl⟩ := ih.1 hrest
      refine ⟨⟨⟨_, hends⟩, hknows⟩, ?_⟩
      rw [List.filterMap_cons, away_of_ends hends]
      split_ifs at h ⊢ <;> exact (pure_eq_ok.1 h).symm
    · rintro ⟨⟨⟨⟨a, b⟩, hends⟩, hknows⟩, rfl⟩
      refine ⟨(a, b), hends, bind_eq_ok.2 ⟨_, ih.2 ⟨hknows, rfl⟩, ?_⟩⟩
      rw [List.filterMap_cons, away_of_ends hends]
      split_ifs <;> rfl

end Leaving

/-! ## The turns of a layer -/

section Spreads

variable {graph : TopoGraph} {node : String} {frontier remaining : List String} {arcs : List Arc}

/-- What may become of a layer, with the frontier and the links that are left. -/
inductive Spreads (graph : TopoGraph) : (frontier remaining : List String) → List Arc → Prop
  | done {remaining : List String} : Spreads graph [] remaining []
  | turn {node : String} {frontier remaining snapshot : List String} {more : List Arc}
      (hperm : snapshot.Perm remaining) (hknows : ∀ lid ∈ remaining, graph.Knows lid)
      (hmore : Spreads graph (frontier ++ (snapshot.filterMap (away graph node)).map Arc.dst)
        (remaining.filter fun lid => away graph node lid = none) more) :
      Spreads graph (node :: frontier) remaining (snapshot.filterMap (away graph node) ++ more)

theorem map_linkId_leaving (node : String) (lids : List String) :
    (lids.filterMap (away graph node)).map Arc.linkId =
      lids.filter fun lid => (away graph node lid).isSome := by
  induction lids with
  | nil => rfl
  | cons lid lids ih =>
    rcases haway : away graph node lid with _ | arc
    · rw [List.filterMap_cons_none haway, List.filter_cons_of_neg (by simp [haway]), ih]
    · rw [List.filterMap_cons_some haway, List.filter_cons_of_pos (by simp [haway]), List.map_cons,
        ih, (away_eq_some haway).1]

/-- The links that are left after a turn are those that are not at the node. -/
theorem left_eq {snapshot : List String} (h : snapshot.Perm remaining) :
    (remaining.filter fun lid => lid ∉ (snapshot.filterMap (away graph node)).map Arc.linkId) =
      remaining.filter fun lid => away graph node lid = none := by
  refine List.filter_congr fun lid hlid => ?_
  simp only [map_linkId_leaving, List.mem_filter, h.mem_iff, hlid, true_and,
    Bool.not_eq_true, Option.isSome_eq_false_iff, Option.isNone_iff_eq_none]

/-- A turn takes a node off the frontier, and adds one for each link that it takes away. -/
theorem length_turn (graph : TopoGraph) (node : String) (frontier : List String)
    {snapshot : List String} (h : snapshot.Perm remaining) :
    (frontier ++ (snapshot.filterMap (away graph node)).map Arc.dst).length +
      (remaining.filter fun lid => away graph node lid = none).length =
    frontier.length + remaining.length := by
  have horiented : (snapshot.filterMap (away graph node)).length =
      (remaining.filter fun lid => (away graph node lid).isSome).length := by
    rw [← List.length_map Arc.linkId, map_linkId_leaving, (h.filter _).length_eq]
  have hleft : (remaining.filter fun lid => away graph node lid = none) =
      remaining.filter fun lid => !(away graph node lid).isSome :=
    List.filter_congr fun lid _ => by rcases away graph node lid <;> rfl
  have hsplit := remaining.length_eq_length_filter_add fun lid => (away graph node lid).isSome
  rw [List.length_append, List.length_map, hleft]
  omega

/-- The loop ends before its turns do. -/
theorem spread_spec {order : SetOrder} {turns : ℕ} {visited : List String}
    (hturns : frontier.length + remaining.length ≤ turns)
    (h : spread graph order turns visited frontier remaining = .ok arcs) :
    Spreads graph frontier remaining arcs := by
  induction turns generalizing visited frontier remaining arcs with
  | zero =>
    obtain rfl : frontier = [] := List.length_eq_zero_iff.1 (by omega)
    rw [spread, pure_eq_ok] at h
    exact h ▸ .done
  | succ turns ih =>
    rcases frontier with _ | ⟨node, frontier⟩
    · rw [spread, pure_eq_ok] at h
      exact h ▸ .done
    · rw [spread] at h
      obtain ⟨arcs, harcs, h⟩ := bind_eq_ok.1 h
      obtain ⟨hknows, rfl⟩ := leaving_eq_ok.1 harcs
      obtain ⟨more, hmore, h⟩ := bind_eq_ok.1 h
      obtain rfl := pure_eq_ok.1 h
      have hperm := order.links_perm visited remaining
      rw [left_eq hperm] at hmore
      refine .turn hperm (fun lid hlid => hknows lid (hperm.mem_iff.2 hlid)) (ih ?_ hmore)
      have := length_turn graph node frontier hperm
      rw [List.length_cons] at hturns
      omega

/-! ## What is oriented -/

/-- Every link goes from one of its ends to the other, and is one of those that were left. -/
theorem Spreads.mem {arc : Arc} (h : Spreads graph frontier remaining arcs) (harc : arc ∈ arcs) :
    arc.linkId ∈ remaining ∧ graph.Joins arc.linkId arc.src arc.dst := by
  induction h with
  | done => exact absurd harc List.not_mem_nil
  | turn hperm _ _ ih =>
    rcases List.mem_append.1 harc with harc | harc
    · obtain ⟨lid, hlid, haway⟩ := List.mem_filterMap.1 harc
      obtain ⟨rfl, rfl, hjoins⟩ := away_eq_some haway
      exact ⟨hperm.mem_iff.1 hlid, hjoins⟩
    · obtain ⟨hleft, hjoins⟩ := ih harc
      exact ⟨List.mem_of_mem_filter hleft, hjoins⟩

/-- The turn of a node orients all links at it. -/
theorem Spreads.mem_of_head {lid b : String} (h : Spreads graph (node :: frontier) remaining arcs)
    (hlid : lid ∈ remaining) (hjoins : graph.Joins lid node b) : ⟨lid, node, b⟩ ∈ arcs := by
  rcases h with _ | ⟨hperm, -, -⟩
  exact List.mem_append_left _ (List.mem_filterMap.2
    ⟨lid, hperm.mem_iff.2 hlid, away_of_joins hjoins⟩)

/-- No link is oriented twice. -/
theorem Spreads.nodup (h : Spreads graph frontier remaining arcs) (hnodup : remaining.Nodup) :
    (arcs.map Arc.linkId).Nodup := by
  induction h with
  | done => exact List.nodup_nil
  | turn hperm _ hmore ih =>
    rw [List.map_append, map_linkId_leaving]
    refine List.Nodup.append ((hperm.nodup_iff.2 hnodup).filter _) (ih (hnodup.filter _)) ?_
    -- What is oriented later was not at the node.
    intro lid hlid hlater
    obtain ⟨arc, harc, rfl⟩ := List.mem_map.1 hlater
    have hnone := List.of_mem_filter (hmore.mem harc).1
    have hsome := List.of_mem_filter hlid
    rw [of_decide_eq_true hnone] at hsome
    exact absurd hsome (by decide)

/-- A link begins at a node of the frontier, or where another one ends. -/
theorem Spreads.src_mem {arc : Arc} (h : Spreads graph frontier remaining arcs)
    (harc : arc ∈ arcs) : arc.src ∈ frontier ∨ arc.src ∈ arcs.map Arc.dst := by
  induction h with
  | done => exact absurd harc List.not_mem_nil
  | turn _ _ _ ih =>
    rcases List.mem_append.1 harc with harc | harc
    · obtain ⟨lid, -, haway⟩ := List.mem_filterMap.1 harc
      exact .inl ((away_eq_some haway).2.1 ▸ List.mem_cons_self)
    · rw [List.map_append, List.mem_append]
      rcases ih harc with hmem | hmem
      · exact (List.mem_append.1 hmem).imp (List.mem_cons_of_mem _) .inl
      · exact .inr (.inr hmem)

/-- The nodes have ranks that rise along the links, but for loops: those of the turns. -/
theorem Spreads.exists_rank (h : Spreads graph frontier remaining arcs) :
    ∃ rank : String → ℕ, ∀ arc ∈ arcs, arc.src ≠ arc.dst → rank arc.src < rank arc.dst := by
  induction h with
  | done => exact ⟨fun _ => 0, fun _ h => absurd h List.not_mem_nil⟩
  | @turn node frontier remaining snapshot more _ _ hmore ih =>
    obtain ⟨rank, hrank⟩ := ih
    refine ⟨fun n => if n = node then 0 else rank n + 1, fun arc harc hne => ?_⟩
    rcases List.mem_append.1 harc with harc | harc
    · obtain ⟨lid, -, haway⟩ := List.mem_filterMap.1 harc
      obtain ⟨-, hsrc, -⟩ := away_eq_some haway
      simp only
      rw [if_pos hsrc, if_neg fun hdst => hne (hsrc.trans hdst.symm)]
      exact Nat.succ_pos _
    · -- Later links are not at the node.
      obtain ⟨hleft, hjoins⟩ := hmore.mem harc
      have haway : away graph node arc.linkId = none := by simpa using (List.mem_filter.1 hleft).2
      have hnone := not_joins_of_away_eq_none haway
      simp only
      rw [if_neg fun hsrc => hnone _ (hsrc ▸ hjoins), if_neg fun hdst => hnone _ (hdst ▸ hjoins.symm)]
      exact Nat.succ_lt_succ (hrank arc harc hne)

end Spreads

/-! ## Runs of layers -/

section Runs

variable {graph : TopoGraph} {order : SetOrder} {lids upstream : List String} {arcs : List Arc}

/-- The links of a layer with their orientations. -/
def orientedOf (lids : List String) (arcs : List Arc) : Oriented :=
  arcs.map (fun arc => (arc.linkId, some (arc.src, arc.dst))) ++
    (lids.filter fun lid => lid ∉ arcs.map Arc.linkId).map fun lid => (lid, none)

/-- The nodes that the next layer is entered from. -/
def nextUpstream (upstream : List String) (arcs : List Arc) : List String :=
  if (arcs.map Arc.dst).dedup = [] then upstream else (arcs.map Arc.dst).dedup

/-- What may become of a run of layers. -/
inductive RunOriented (graph : TopoGraph) :
    (upstream : List String) → (run : List (List String)) → Oriented → Prop
  | nil {upstream : List String} : RunOriented graph upstream [] []
  | cons {upstream frontier lids : List String} {arcs : List Arc} {run : List (List String)}
      {more : Oriented} (hperm : frontier.Perm upstream) (hspreads : Spreads graph frontier lids arcs)
      (hmore : RunOriented graph (nextUpstream upstream arcs) run more) :
      RunOriented graph upstream (lids :: run) (orientedOf lids arcs ++ more)

/-- The layers of a run are oriented one after the other. -/
theorem orientRun_cons {run : List (List String)} {pairs : Oriented}
    (h : orientRun graph order upstream (lids :: run) = .ok pairs) :
    ∃ arcs more, spread graph order (upstream.length + lids.length) [] (order.nodes lids upstream) lids =
        .ok arcs ∧
      orientRun graph order (nextUpstream upstream arcs) run = .ok more ∧
      pairs = orientedOf lids arcs ++ more := by
  rw [orientRun] at h
  obtain ⟨⟨oriented, downstream⟩, hlayer, h⟩ := bind_eq_ok.1 h
  obtain ⟨more, hmore, h⟩ := bind_eq_ok.1 h
  obtain rfl := pure_eq_ok.1 h
  rw [orientSameTtlLinks] at hlayer
  obtain ⟨arcs, harcs, hlayer⟩ := bind_eq_ok.1 hlayer
  obtain ⟨rfl, rfl⟩ := Prod.mk.inj (pure_eq_ok.1 hlayer)
  exact ⟨arcs, more, harcs, hmore, rfl⟩

/-- The turns of the nodes that a layer is entered from, in the order that they are taken in. -/
theorem spreads_of_spread
    (h : spread graph order (upstream.length + lids.length) [] (order.nodes lids upstream) lids =
      .ok arcs) : Spreads graph (order.nodes lids upstream) lids arcs :=
  spread_spec (by rw [(order.nodes_perm lids upstream).length_eq]) h

theorem orientRun_spec {run : List (List String)} {pairs : Oriented}
    (h : orientRun graph order upstream run = .ok pairs) : RunOriented graph upstream run pairs := by
  induction run generalizing upstream pairs with
  | nil =>
    rw [orientRun, pure_eq_ok] at h
    exact h ▸ .nil
  | cons lids run ih =>
    obtain ⟨arcs, more, harcs, hmore, rfl⟩ := orientRun_cons h
    exact .cons (order.nodes_perm lids upstream) (spreads_of_spread harcs) (ih hmore)

end Runs

end Dnlab.FlowReconstruct
