import Dnlab.Lib.Traversal
import Dnlab.Services.FlowReconstruct

/-!
# Candidate links

`TopoGraph.candidate_links`: the links that a flow from a node may take. It is a
traversal of the graph, in which a link is at both its ends, twice at the node of a
loop. Whatever the loops, cycles and parallel links, it ends with the links that
have an end in reach of the source, each once (`candidateLinks_iff`).
-/

namespace Dnlab.FlowReconstruct

variable (graph : TopoGraph)

/-- `nodes`: those that were given, and the ends of links. -/
def TopoGraph.nodes (given : List String) : List String :=
  given ++ graph.links.flatMap fun link => [link.nodeA, link.nodeB]

/-- `_adj`: the links at each node. -/
def TopoGraph.adj : Dict String (List LinkRef) :=
  graph.links.foldl (fun d link => (d.push link.nodeA [link]).push link.nodeB [link]) .empty

/-- `link.node_b if link.node_a == node else link.node_a`. -/
def LinkRef.other (link : LinkRef) (node : String) : String :=
  if link.nodeA = node then link.nodeB else link.nodeA

/-- The ids of the links at a node, each with the node at the other end. -/
def TopoGraph.linksFrom (node : String) : List (String × String) :=
  (graph.adj.getD node []).map fun link => (link.linkId, link.other node)

/-- `candidate_links(source)`, whose loop takes at most `turns` turns. The links in `link_seen` are
    those in `link_ids`. -/
def TopoGraph.candidateLinks (given : List String) (turns : ℕ) (source : String) :
    Option (List String) :=
  if source ∉ graph.nodes given then some []
  else Traversal.traverse graph.linksFrom turns source

/-- A link has its ends at two nodes. -/
def LinkRef.Between (link : LinkRef) (a b : String) : Prop :=
  (link.nodeA = a ∧ link.nodeB = b) ∨ (link.nodeA = b ∧ link.nodeB = a)

/-- A node can be reached from another one over links of the graph. -/
def TopoGraph.Reaches : String → String → Prop :=
  Relation.ReflTransGen fun a b => ∃ link ∈ graph.links, link.Between a b

variable {graph}

/-! ## Links at a node -/

theorem mem_getD_foldl_push {link : LinkRef} {node : String} {links : List LinkRef}
    {d : Dict String (List LinkRef)} :
    link ∈ (links.foldl (fun d link => (d.push link.nodeA [link]).push link.nodeB [link]) d).getD
        node [] ↔
      link ∈ d.getD node [] ∨ link ∈ links ∧ (link.nodeA = node ∨ link.nodeB = node) := by
  induction links generalizing d with
  | nil => simp
  | cons first links ih =>
    have hfirst : (link ∈ (if node = first.nodeA then [first] else []) ∨
        link ∈ if node = first.nodeB then [first] else []) ↔
        link = first ∧ (link.nodeA = node ∨ link.nodeB = node) := by
      rw [List.mem_ite_nil_right, List.mem_ite_nil_right, List.mem_singleton]
      constructor
      · rintro (⟨ha, rfl⟩ | ⟨hb, rfl⟩)
        · exact ⟨rfl, .inl ha.symm⟩
        · exact ⟨rfl, .inr hb.symm⟩
      · rintro ⟨rfl, ha | hb⟩
        · exact .inl ⟨ha.symm, rfl⟩
        · exact .inr ⟨hb.symm, rfl⟩
    rw [List.foldl_cons, ih, Dict.getD_push, Dict.getD_push, List.mem_append, List.mem_append,
      List.mem_cons, or_and_right, ← hfirst, or_assoc, or_assoc, or_assoc]

theorem mem_adj {link : LinkRef} {node : String} :
    link ∈ graph.adj.getD node [] ↔ link ∈ graph.links ∧ (link.nodeA = node ∨ link.nodeB = node) :=
  mem_getD_foldl_push.trans (or_iff_right List.not_mem_nil)

/-- The node at the other end of a link, which is that node again for a loop. -/
theorem LinkRef.between_other {link : LinkRef} {node : String}
    (h : link.nodeA = node ∨ link.nodeB = node) : link.Between node (link.other node) := by
  rw [LinkRef.other]
  split
  · rename_i ha
    exact .inl ⟨ha, rfl⟩
  · rename_i ha
    exact .inr ⟨rfl, h.resolve_left ha⟩

theorem LinkRef.Between.other_eq {link : LinkRef} {a b : String} (h : link.Between a b) :
    link.other a = b := by
  rw [LinkRef.other]
  rcases h with ⟨rfl, rfl⟩ | ⟨rfl, rfl⟩
  · rw [if_pos rfl]
  · split
    · exact Eq.symm ‹_›
    · rfl

/-- A step of the traversal goes over a link. -/
theorem step_linksFrom {a b : String} :
    Traversal.Step graph.linksFrom a b ↔ ∃ link ∈ graph.links, link.Between a b := by
  constructor
  · rintro ⟨e, he, rfl⟩
    obtain ⟨link, hlink, rfl⟩ := List.mem_map.1 he
    obtain ⟨hmem, hat⟩ := mem_adj.1 hlink
    exact ⟨link, hmem, LinkRef.between_other hat⟩
  · rintro ⟨link, hmem, hbetween⟩
    have hat : link.nodeA = a ∨ link.nodeB = a := hbetween.imp And.left And.right
    exact ⟨_, List.mem_map_of_mem (mem_adj.2 ⟨hmem, hat⟩), hbetween.other_eq⟩

theorem reachable_linksFrom {a b : String} :
    Traversal.Reachable graph.linksFrom a b ↔ graph.Reaches a b := by
  rw [Traversal.Reachable, TopoGraph.Reaches]
  have hstep : Traversal.Step graph.linksFrom = fun a b => ∃ link ∈ graph.links, link.Between a b :=
    funext₂ fun _ _ => propext step_linksFrom
  rw [hstep]

/-! ## The traversal -/

/-- The nodes of the graph are closed under going over links. -/
theorem mem_nodes_of_linksFrom {given : List String} {node : String} {e : String × String}
    (he : e ∈ graph.linksFrom node) : e.2 ∈ graph.nodes given := by
  obtain ⟨link, hlink, rfl⟩ := List.mem_map.1 he
  have hmem : link ∈ graph.links := (mem_adj.1 hlink).1
  refine List.mem_append_right _ (List.mem_flatMap.2 ⟨link, hmem, ?_⟩)
  simp only [LinkRef.other]
  split
  · exact List.mem_cons_of_mem _ List.mem_cons_self
  · exact List.mem_cons_self

/-- The links that a traversal lists are those with an end in reach. -/
theorem exists_linksFrom {source lid : String} :
    (∃ n, Traversal.Reachable graph.linksFrom source n ∧ ∃ e ∈ graph.linksFrom n, e.1 = lid) ↔
      ∃ link ∈ graph.links, link.linkId = lid ∧
        (graph.Reaches source link.nodeA ∨ graph.Reaches source link.nodeB) := by
  constructor
  · rintro ⟨n, hn, e, he, rfl⟩
    obtain ⟨link, hlink, rfl⟩ := List.mem_map.1 he
    obtain ⟨hmem, hat⟩ := mem_adj.1 hlink
    have hn' := reachable_linksFrom.1 hn
    refine ⟨link, hmem, rfl, hat.imp (fun ha => ?_) fun hb => ?_⟩
    · rwa [ha]
    · rwa [hb]
  · rintro ⟨link, hmem, rfl, hreach | hreach⟩
    · exact ⟨_, reachable_linksFrom.2 hreach, _,
        List.mem_map_of_mem (mem_adj.2 ⟨hmem, .inl rfl⟩), rfl⟩
    · exact ⟨_, reachable_linksFrom.2 hreach, _,
        List.mem_map_of_mem (mem_adj.2 ⟨hmem, .inr rfl⟩), rfl⟩

/-- From a node of a graph whose links have distinct ids, the loop ends within as many turns as the
    graph has nodes, and the links with an end in reach of the node are listed, each once. -/
theorem candidateLinks_iff (graph : TopoGraph) (hids : (graph.links.map LinkRef.linkId).Nodup)
    (given : List String) (source : String) (hsource : source ∈ graph.nodes given) :
    ∃ result, (∀ turns, (graph.nodes given).length ≤ turns →
        graph.candidateLinks given turns source = some result) ∧
      result.Nodup ∧ (∀ lid ∈ result, ∃ link ∈ graph.links, link.linkId = lid) ∧
      ∀ link ∈ graph.links, link.linkId ∈ result ↔
        graph.Reaches source link.nodeA ∨ graph.Reaches source link.nodeB := by
  have hclosed : ∀ n ∈ graph.nodes given, ∀ e ∈ graph.linksFrom n, e.2 ∈ graph.nodes given :=
    fun _ _ _ he => mem_nodes_of_linksFrom he
  obtain ⟨result, hresult⟩ := Traversal.exists_traverse hclosed hsource
  obtain ⟨hnodup, hmem⟩ := Traversal.mem_traverse (hresult _ (Nat.le_refl _))
  refine ⟨result, fun turns hturns => ?_, hnodup, fun lid hlid => ?_, fun link hlink => ?_⟩
  · rw [TopoGraph.candidateLinks, if_neg (not_not_intro hsource), hresult turns hturns]
  · obtain ⟨link, hlink, hid, _⟩ := exists_linksFrom.1 ((hmem lid).1 hlid)
    exact ⟨link, hlink, hid⟩
  · rw [hmem, exists_linksFrom]
    constructor
    · rintro ⟨link', hlink', hid, hreach⟩
      rwa [List.inj_on_of_nodup_map hids hlink' hlink hid] at hreach
    · exact fun hreach => ⟨link, hlink, rfl, hreach⟩

/-- Two links between two nodes, and a loop, next to a part that is out of reach. -/
theorem candidateLinks_parallel :
    (([⟨"l1", "r1", "r2"⟩, ⟨"l2", "r2", "r1"⟩, ⟨"l3", "r2", "r2"⟩, ⟨"l4", "r3", "r4"⟩] :
        List LinkRef).map LinkRef.linkId).Nodup ∧
      ∃ result, (∀ turns, 8 ≤ turns → TopoGraph.candidateLinks
        ⟨[⟨"l1", "r1", "r2"⟩, ⟨"l2", "r2", "r1"⟩, ⟨"l3", "r2", "r2"⟩, ⟨"l4", "r3", "r4"⟩]⟩ [] turns
          "r1" = some result) ∧ result.Nodup := by
  refine ⟨by decide, ?_⟩
  obtain ⟨result, hresult, hnodup, _⟩ := candidateLinks_iff
    ⟨[⟨"l1", "r1", "r2"⟩, ⟨"l2", "r2", "r1"⟩, ⟨"l3", "r2", "r2"⟩, ⟨"l4", "r3", "r4"⟩]⟩ (by decide) []
    "r1" (by decide)
  exact ⟨result, hresult, hnodup⟩

end Dnlab.FlowReconstruct
