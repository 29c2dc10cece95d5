import Dnlab.Gui.DrawioService
import Dnlab.Lib.Except
import Dnlab.Lib.Numeral

/-!
# A diagram that is imported again

The topology that is read from the diagram of a topology (`fromXml_toXml`): the ids of the cells are
distinct, so that the cells are found again in their order (`items_cells`); those of the nodes, and
only these, are vertices, and the edges lead from each end to the node that it named.

The libraries are asked to give back what they printed, for this diagram only (`Faithful`).
-/

namespace Dnlab.Gui.Drawio

variable {φ : Type}

/-! ## What is to be shown -/

/-- A document is read back as an equal one. -/
def Libraries.Restores (L : Libraries φ) (v : Value) : Prop :=
  ∃ v', L.loads (L.dumps v) = some v' ∧ v.beq v' = true

/-- A coordinate is read back as it was. -/
def Libraries.RestoresNumber (L : Libraries φ) (x : φ) : Prop := L.float (L.print x) = some x

/-- The libraries give back what they print of a topology; an empty text is not JSON. -/
structure Faithful (L : Libraries φ) (topology : Topology φ) : Prop where
  xml : L.fromstring (L.tostring (diagram L topology)) = .ok (diagram L topology)
  noJson : L.loads "" = none
  extra : ∀ n ∈ topology.nodes, L.Restores (.dict n.extra)
  mgmt : L.Restores (topology.extra.get "mgmt")
  x : ∀ n ∈ topology.nodes, L.RestoresNumber n.position.x
  y : ∀ n ∈ topology.nodes, L.RestoresNumber n.position.y

/-- The management mapping of a topology, empty if it has none. -/
def mgmtOf (t : Topology φ) : Mapping := mappingOr (t.extra.get "mgmt")

/-- A node is the other one with its name sanitised. -/
structure SameNode (n n' : Node φ) : Prop where
  name : n'.name = sanitizeName n.name
  kind : n'.kind = n.kind
  image : n'.image = n.image
  position : n'.position = n.position
  extra : Value.beq (.dict n.extra) (.dict n'.extra) = true

/-- A link with the names of its nodes sanitised. -/
def sanitizeLink (l : Link) : Link :=
  { l with source := sanitizeName l.source, target := sanitizeName l.target }

/-- A topology is the other one as far as a diagram holds it: the nodes, the links between them and
    the management settings. -/
structure SameDiagram (t t' : Topology φ) : Prop where
  nodes : List.Forall₂ SameNode t.nodes t'.nodes
  /-- A sanitised name stands for the node that the name stood for. -/
  named : ∀ n ∈ t.nodes, ∃ n', t'.getNode (sanitizeName n.name) = some n' ∧ SameNode n n'
  links : t'.links = (t.links.filter fun l => l.source ∈ t.nodes.map (·.name) ∧
    l.target ∈ t.nodes.map (·.name)).map sanitizeLink
  mgmt : Value.beq (.dict (mgmtOf t)) (.dict (mgmtOf t')) = true

/-! ## Documents -/

theorem mappingOr_dict (d : Mapping) : mappingOr (.dict d) = d := rfl

theorem beq_mappingOr {v v' : Value} (h : v.beq v' = true) :
    Value.beq (.dict (mappingOr v)) (.dict (mappingOr v')) = true := by
  cases v <;> cases v' <;> first | exact h | cases h | exact Value.beq_self _

section Libraries

variable {L : Libraries φ}

/-- What is printed is not empty, so it is read. -/
theorem jsonAttrOr_dumps (hnone : L.loads "" = none) {v : Value} (h : L.Restores v)
    (fallback : Value) : v.beq (jsonAttrOr L (some (L.dumps v)) fallback) = true := by
  obtain ⟨v', hv', heq⟩ := h
  have hne : L.dumps v ≠ "" := by
    intro hempty
    rw [hempty, hnone] at hv'
    cases hv'
  have hfilter : (some (L.dumps v)).filter (· ≠ "") = some (L.dumps v) := by
    rw [Option.filter_some, if_pos (by simpa using hne)]
  rw [jsonAttrOr, hfilter]
  dsimp only
  rwa [hv']

/-! ## The cells of nodes -/

theorem get?_setUnlessEmpty_of_ne {d : Dict String String} {name key value : String}
    (h : key ≠ name) : (setUnlessEmpty d name value).get? key = d.get? key := by
  unfold setUnlessEmpty
  split
  · rfl
  · exact Dict.get?_set_of_ne _ _ h

/-- An attribute of the cell of a node, other than the addresses. -/
theorem get?_nodeCell {id : ℕ} {node : Node φ} {key : String} (h4 : key ≠ "dnlab_mgmt_ipv4")
    (h6 : key ≠ "dnlab_mgmt_ipv6") : (nodeCell L id node).get? key =
      List.lookup key [("id", toString id), ("value", node.name),
        ("style", nodeStyle L node.kind), ("vertex", "1"), ("parent", "1"),
        ("dnlab_kind", node.kind), ("dnlab_image", node.image),
        ("dnlab_extra", L.dumps (.dict node.extra))] := by
  rw [nodeCell, Xml.get?_element, get?_setUnlessEmpty_of_ne h6, get?_setUnlessEmpty_of_ne h4,
    Dict.get?, Dict.items_ofList_of_nodup (by simp)]

theorem isVertex_nodeCell (id : ℕ) (node : Node φ) : isVertex (nodeCell L id node) = true := by
  unfold isVertex
  rw [get?_nodeCell (by decide) (by decide), get?_nodeCell (by decide) (by decide)]
  simp [List.lookup_cons]

theorem attr_of_ne_empty {cell : Xml} {name value : String} (h : cell.get? name = some value)
    (hne : value ≠ "") : attr cell name = some value := by
  rw [attr, h, Option.filter_some, if_pos (by simpa using hne)]

/-- The node that is read from its cell. -/
def importedNode (L : Libraries φ) (n : Node φ) : Node φ where
  name := sanitizeName n.name
  kind := n.kind
  image := n.image
  position := n.position
  extra := mappingOr (jsonAttrOr L (some (L.dumps (.dict n.extra))) (.dict []))

theorem sameNode_importedNode (hnone : L.loads "" = none) {n : Node φ}
    (h : L.Restores (.dict n.extra)) : SameNode n (importedNode L n) := by
  have hextra := beq_mappingOr (jsonAttrOr_dumps hnone h (.dict []))
  rw [mappingOr_dict] at hextra
  constructor <;> simp only [importedNode]
  exact hextra

theorem coordinate_of_get? {geo : Xml} {axis : String} {x : φ} (hx : L.RestoresNumber x)
    (h : geo.get? axis = some (L.print x)) : coordinate L (some geo) axis = .ok x := by
  rw [coordinate, Option.bind_some, h]
  dsimp only
  rw [hx]

/-- The geometry of a node. -/
theorem find_nodeCell (id : ℕ) (n : Node φ) : ∃ geo,
    (nodeCell L id n).find "mxGeometry" = some geo ∧
      geo.get? "x" = some (L.print n.position.x) ∧ geo.get? "y" = some (L.print n.position.y) := by
  have hget : ∀ key, (Xml.element "mxGeometry" (.ofList [("x", L.print n.position.x),
      ("y", L.print n.position.y), ("width", "56"), ("height", "56"), ("as", "geometry")]) []).get?
        key = List.lookup key [("x", L.print n.position.x), ("y", L.print n.position.y),
          ("width", "56"), ("height", "56"), ("as", "geometry")] := by
    intro key
    rw [Xml.get?_element, Dict.get?, Dict.items_ofList_of_nodup (by simp)]
  refine ⟨_, ?_, (hget "x").trans (by simp), (hget "y").trans (by simp [List.lookup_cons])⟩
  rw [nodeCell, Xml.find, Xml.children_element, List.find?_cons_of_pos]
  rw [Xml.tag_element, decide_eq_true_eq]

theorem readVertex_nodeCell {id : ℕ} {n : Node φ} {key : Option String} (hname : n.name ≠ "")
    (hkind : n.kind ≠ "") (hx : L.RestoresNumber n.position.x)
    (hy : L.RestoresNumber n.position.y) :
    readVertex L key (nodeCell L id n) = .ok (importedNode L n) := by
  have hvalue : attr (nodeCell L id n) "value" = some n.name :=
    attr_of_ne_empty (by rw [get?_nodeCell (by decide) (by decide)]; simp [List.lookup_cons]) hname
  have hkind' : attr (nodeCell L id n) "dnlab_kind" = some n.kind :=
    attr_of_ne_empty (by rw [get?_nodeCell (by decide) (by decide)]; simp [List.lookup_cons]) hkind
  have himage : (nodeCell L id n).getD "dnlab_image" "" = n.image := by
    rw [Xml.getD, get?_nodeCell (by decide) (by decide)]
    simp [List.lookup_cons]
  have hextra : (nodeCell L id n).get? "dnlab_extra" = some (L.dumps (.dict n.extra)) := by
    rw [get?_nodeCell (by decide) (by decide)]
    simp [List.lookup_cons]
  obtain ⟨geo, hgeo, hgx, hgy⟩ := find_nodeCell (L := L) id n
  rw [readVertex, hvalue, Option.some_or]
  dsimp only
  rw [hgeo, coordinate_of_get? hx hgx, coordinate_of_get? hy hgy, hkind', himage, hextra,
    Option.getD_some]
  rfl

/-! ## The cells of links -/

section Links

variable {topology : Topology φ} {id i : ℕ} {link : Link} {source target : String}

theorem get?_linkCell {key : String} :
    (linkCell L topology id i link source target).get? key =
      List.lookup key [("id", toString id),
        ("value", linkLabel link (topology.getNode link.source) (topology.getNode link.target)),
        ("style", edgeStyle), ("edge", "1"), ("source", source), ("target", target), ("parent", "1"),
        ("dnlab_source_iface", link.sourceIface), ("dnlab_target_iface", link.targetIface),
        ("dnlab_link_type",
          linkType (topology.getNode link.source) (topology.getNode link.target))] := by
  rw [linkCell, Xml.get?_element, Dict.get?, Dict.items_ofList_of_nodup (by simp)]

theorem readEdge_linkCell {vertexIds : Dict (Option String) String} {a b : String}
    (ha : vertexIds.get? (some source) = some a) (hb : vertexIds.get? (some target) = some b) :
    readEdge vertexIds (linkCell L topology id i link source target) =
      some ⟨a, link.sourceIface, b, link.targetIface⟩ := by
  have hedge : (linkCell L topology id i link source target).get? "edge" = some "1" := by
    rw [get?_linkCell]
    simp [List.lookup_cons]
  have hsource : (linkCell L topology id i link source target).getD "source" "" = source := by
    rw [Xml.getD, get?_linkCell]
    simp [List.lookup_cons]
  have htarget : (linkCell L topology id i link source target).getD "target" "" = target := by
    rw [Xml.getD, get?_linkCell]
    simp [List.lookup_cons]
  have hifaces : readIfaces (linkCell L topology id i link source target) =
      (link.sourceIface, link.targetIface) := by
    rw [readIfaces, get?_linkCell, get?_linkCell]
    simp [List.lookup_cons]
  rw [readEdge, if_pos hedge, hsource, htarget, ha, hb, hifaces]
  rfl

theorem mem_linkCells {links : List (Link × ℕ)} {cell : Xml}
    (h : cell ∈ linkCells L topology id links) :
    ∃ id i link source target, cell = linkCell L topology id i link source target := by
  induction links generalizing id with
  | nil => exact absurd h List.not_mem_nil
  | cons e links ih =>
    obtain ⟨link, i⟩ := e
    rw [linkCells] at h
    split at h
    · rcases List.mem_cons.1 h with rfl | h
      · exact ⟨_, _, _, _, _, rfl⟩
      · exact ih h
    · exact ih h

/-- The cells of links have the ids from the next one on. -/
theorem ids_linkCells (id : ℕ) (links : List (Link × ℕ)) : ∃ n, (linkCells L topology id links).map
    (fun cell => cell.get? "id") = (List.range' id n).map fun k => some (toString k) := by
  induction links generalizing id with
  | nil => exact ⟨0, rfl⟩
  | cons e links ih =>
    obtain ⟨link, i⟩ := e
    rw [linkCells]
    split
    · obtain ⟨n, hn⟩ := ih (id + 1)
      refine ⟨n + 1, ?_⟩
      rw [List.map_cons, hn, List.range'_succ, List.map_cons, get?_linkCell, List.lookup_cons_self]
    · exact ih id

/-- The links that are read are those whose nodes have cells. -/
theorem filterMap_linkCells {vertexIds : Dict (Option String) String}
    (hids : ∀ n id, (nodeIds topology.nodes).get? n = some id →
      vertexIds.get? (some id) = some (sanitizeName n)) (links : List (Link × ℕ)) :
    (linkCells L topology id links).filterMap (readEdge vertexIds) =
      ((links.map Prod.fst).filter fun l => l.source ∈ (nodeIds topology.nodes).keys ∧
        l.target ∈ (nodeIds topology.nodes).keys).map sanitizeLink := by
  induction links generalizing id with
  | nil => rfl
  | cons e links ih =>
    obtain ⟨link, i⟩ := e
    rw [linkCells, List.map_cons]
    -- A link is drawn when both its ends have cells.
    split
    · rename_i source target hsource htarget
      have hkeys : link.source ∈ (nodeIds topology.nodes).keys ∧
          link.target ∈ (nodeIds topology.nodes).keys :=
        ⟨Dict.mem_keys_iff.2 ⟨_, hsource⟩, Dict.mem_keys_iff.2 ⟨_, htarget⟩⟩
      rw [List.filterMap_cons_some (readEdge_linkCell (hids _ _ hsource) (hids _ _ htarget)), ih,
        List.filter_cons_of_pos (by simpa using hkeys), List.map_cons]
      rfl
    · rename_i hnone
      have hkeys : ¬(link.source ∈ (nodeIds topology.nodes).keys ∧
          link.target ∈ (nodeIds topology.nodes).keys) := by
        rintro ⟨hs, ht⟩
        obtain ⟨source, hsource⟩ := Dict.mem_keys_iff.1 hs
        obtain ⟨target, htarget⟩ := Dict.mem_keys_iff.1 ht
        exact hnone source target hsource htarget
      rw [ih, List.filter_cons_of_neg (by simpa using hkeys)]

end Links

/-! ## All cells -/

section Cells

variable (L) (topology : Topology φ)

/-- The cells that no node and no link has. -/
def baseCells : List Xml :=
  [.element "mxCell" (.ofList [("id", "0")]) [],
    .element "mxCell" (.ofList [("id", "1"), ("parent", "0")]) [], metaCell L topology]

/-- The cells of the nodes. -/
def nodeCells : List Xml := (topology.nodes.zipIdx 2).map fun (node, id) => nodeCell L id node

variable {L topology}

theorem diagramCells_eq : diagramCells L topology = baseCells L topology ++ nodeCells L topology ++
    linkCells L topology (2 + topology.nodes.length) topology.links.zipIdx := rfl

/-- An attribute of the cell of the metadata, other than the settings. -/
theorem get?_metaCell {key : String} (h : key ≠ "dnlab_mgmt") : (metaCell L topology).get? key =
    List.lookup key [("id", "dnlab_meta"), ("parent", "0"), ("dnlab_version", "1"),
      ("dnlab_topology_name", topology.name)] := by
  rw [metaCell, Xml.get?_element]
  split
  · rw [Dict.get?_set_of_ne _ _ h, Dict.get?, Dict.items_ofList_of_nodup (by simp)]
  · rw [Dict.get?, Dict.items_ofList_of_nodup (by simp)]

theorem get?_baseCells {cell : Xml} (h : cell ∈ baseCells L topology) :
    cell.get? "vertex" = none ∧ cell.get? "edge" = none := by
  simp only [baseCells, List.mem_cons, List.not_mem_nil, or_false] at h
  rcases h with rfl | rfl | rfl
  · exact ⟨rfl, rfl⟩
  · exact ⟨rfl, rfl⟩
  · rw [get?_metaCell (by decide), get?_metaCell (by decide)]
    simp [List.lookup_cons]

theorem ids_baseCells : (baseCells L topology).map (fun cell => cell.get? "id") =
    [some "0", some "1", some "dnlab_meta"] := by
  have hmeta : (metaCell L topology).get? "id" = some "dnlab_meta" := by
    rw [get?_metaCell (by decide), List.lookup_cons_self]
  rw [baseCells, List.map_cons, List.map_cons, List.map_cons, hmeta]
  rfl

theorem ids_nodeCells : (nodeCells L topology).map (fun cell => cell.get? "id") =
    (List.range' 2 topology.nodes.length).map fun k => some (toString k) := by
  rw [nodeCells, List.map_map, ← List.zipIdx_map_snd 2 topology.nodes, List.map_map]
  refine List.map_congr_left fun e _ => ?_
  exact (get?_nodeCell (by decide) (by decide)).trans List.lookup_cons_self

theorem some_toString_injective : Function.Injective fun k : ℕ => some (toString k) :=
  fun _ _ h => Text.toString_inj.1 (Option.some.inj h)

/-- No two cells have the same id. -/
theorem nodup_ids : ((diagramCells L topology).map fun cell => cell.get? "id").Nodup := by
  obtain ⟨n, hn⟩ : ∃ n, _ = (List.range' (2 + topology.nodes.length) n).map _ :=
    ids_linkCells (L := L) (2 + topology.nodes.length) topology.links.zipIdx
  rw [diagramCells_eq, List.map_append, List.map_append, ids_baseCells, ids_nodeCells, hn,
    List.append_assoc, ← List.map_append, List.range'_append_1]
  refine List.nodup_append.2 ⟨by decide, (List.nodup_range' 1).map some_toString_injective, ?_⟩
  intro a ha b hb
  obtain ⟨k, hk, rfl⟩ := List.mem_map.1 hb
  have hk2 : 2 ≤ k := (List.mem_range'_1.1 hk).1
  -- Numbers from 2 on are neither 0 nor 1, and the metadata has no number.
  simp only [List.mem_cons, List.not_mem_nil, or_false] at ha
  rcases ha with rfl | rfl | rfl
  · intro h
    exact absurd (Text.toString_inj (m := 0).1 (Option.some.inj h)) (by omega)
  · intro h
    exact absurd (Text.toString_inj (m := 1).1 (Option.some.inj h)) (by omega)
  · intro h
    have hdigit := Text.isDigit_toString (n := k) 'd' (by rw [← Option.some.inj h]; decide)
    exact absurd hdigit (by decide)

theorem iters_nil_of_cell {cell : Xml} (h : cell ∈ diagramCells L topology) :
    cell.tag = "mxCell" ∧ Xml.iters "mxCell" cell.children = [] := by
  rw [diagramCells_eq, List.mem_append, List.mem_append] at h
  rcases h with (h | h) | h
  · simp only [baseCells, List.mem_cons, List.not_mem_nil, or_false] at h
    rcases h with rfl | rfl | rfl <;> exact ⟨rfl, rfl⟩
  · obtain ⟨⟨node, id⟩, -, rfl⟩ := List.mem_map.1 h
    have hgeo : ∀ a, Xml.iters "mxCell" [.element "mxGeometry" a []] = [] := fun a => by
      simp [Xml.iters, Xml.iter]
    exact ⟨rfl, hgeo _⟩
  · obtain ⟨id, i, link, source, target, rfl⟩ := mem_linkCells h
    refine ⟨rfl, ?_⟩
    rw [linkCell, Xml.children_element]
    cases parallelLinkWaypoint L topology i link <;> simp [Xml.iters, Xml.iter]

/-- The cells of a diagram are found in their order. -/
theorem iter_diagram : (diagram L topology).iter "mxCell" = diagramCells L topology := by
  rw [diagram, Xml.iter_of_tag_ne (by rw [Xml.tag_element]; decide), Xml.children_element,
    Xml.iters, Xml.iter_of_tag_ne (by rw [Xml.tag_element]; decide), Xml.children_element,
    Xml.iters_eq_self fun _ => iters_nil_of_cell]
  exact List.append_nil _

/-- The cells by their id, in the order of the diagram. -/
theorem items_cells :
    (Dict.ofList ((diagramCells L topology).map fun cell => (cell.get? "id", cell))).items =
      (diagramCells L topology).map fun cell => (cell.get? "id", cell) := by
  refine Dict.items_ofList_of_nodup ?_
  rw [List.map_map]
  exact nodup_ids

/-! ## What is read -/

/-- The vertices are the cells of the nodes. -/
theorem filter_isVertex : (diagramCells L topology).filter isVertex = nodeCells L topology := by
  have hbase : (baseCells L topology).filter isVertex = [] := by
    refine List.filter_eq_nil_iff.2 fun cell hcell => ?_
    rw [isVertex, (get?_baseCells hcell).1]
    simp
  have hnodes : (nodeCells L topology).filter isVertex = nodeCells L topology := by
    refine List.filter_eq_self.2 fun cell hcell => ?_
    obtain ⟨⟨node, id⟩, -, rfl⟩ := List.mem_map.1 hcell
    exact isVertex_nodeCell id node
  have hlinks : (linkCells L topology (2 + topology.nodes.length) topology.links.zipIdx).filter
      isVertex = [] := by
    refine List.filter_eq_nil_iff.2 fun cell hcell => ?_
    obtain ⟨id, i, link, source, target, rfl⟩ := mem_linkCells hcell
    rw [isVertex, get?_linkCell]
    simp [List.lookup_cons]
  rw [diagramCells_eq, List.filter_append, List.filter_append, hbase, hnodes, hlinks,
    List.append_nil, List.nil_append]

/-- The nodes that are read, by the id of their cell. -/
def importedNodes (L : Libraries φ) (topology : Topology φ) : List (Option String × Node φ) :=
  (topology.nodes.zipIdx 2).map fun (n, id) => (some (toString id), importedNode L n)

theorem readVertices_cells (hL : Faithful L topology) (hname : ∀ n ∈ topology.nodes, n.name ≠ "")
    (hkind : ∀ n ∈ topology.nodes, n.kind ≠ "") :
    readVertices L (Dict.ofList ((diagramCells L topology).map fun cell => (cell.get? "id", cell))) =
      .ok (importedNodes L topology) := by
  have hpairs : ((diagramCells L topology).map fun cell => (cell.get? "id", cell)).filter
      (fun e => isVertex e.2) = (topology.nodes.zipIdx 2).map fun (n, id) =>
        (some (toString id), nodeCell L id n) := by
    rw [List.filter_map, show (fun e : Option String × Xml => isVertex e.2) ∘
      (fun cell => (cell.get? "id", cell)) = isVertex from rfl, filter_isVertex, nodeCells,
      List.map_map]
    refine List.map_congr_left fun e _ => Prod.ext ?_ rfl
    exact (get?_nodeCell (by decide) (by decide)).trans List.lookup_cons_self
  rw [readVertices, items_cells, hpairs, ExceptRules.mapM_eq_ok, importedNodes,
    List.forall₂_map_left_iff, List.forall₂_map_right_iff, List.forall₂_same]
  rintro ⟨n, id⟩ hn
  have hmem := List.fst_mem_of_mem_zipIdx hn
  refine ExceptRules.bind_eq_ok.2 ⟨importedNode L n, ?_, rfl⟩
  exact readVertex_nodeCell (hname n hmem) (hkind n hmem) (hL.x n hmem) (hL.y n hmem)

/-- The names of the nodes that are read, by the id of their cell. -/
theorem names_importedNodes :
    (importedNodes L topology).map (fun (id, node) => (id, node.name)) =
      (topology.nodes.zipIdx 2).map fun (n, id) => (some (toString id), sanitizeName n.name) := by
  rw [importedNodes, List.map_map]
  refine List.map_congr_left fun e _ => ?_
  simp only [Function.comp_apply, importedNode]

/-- The ids of the nodes lead to their sanitised names. -/
theorem get?_vertexIds {name id : String} (h : (nodeIds topology.nodes).get? name = some id) :
    (Dict.ofList ((importedNodes L topology).map fun (id, node) => (id, node.name))).get?
      (some id) = some (sanitizeName name) := by
  have hmem := Dict.mem_of_get?_ofList h
  obtain ⟨⟨n, k⟩, hn, heq⟩ := List.mem_map.1 hmem
  obtain ⟨rfl, rfl⟩ := Prod.mk.inj heq
  rw [names_importedNodes]
  refine (Dict.get?_ofList_of_nodup ?_).2 (List.mem_map_of_mem hn)
  have hids : ((topology.nodes.zipIdx 2).map fun e : Node φ × ℕ =>
      (some (toString e.2), sanitizeName e.1.name)).map Prod.fst =
        ((topology.nodes.zipIdx 2).map Prod.snd).map fun k => some (toString k) := by
    rw [List.map_map, List.map_map]
    rfl
  rw [hids, List.zipIdx_map_snd]
  exact (List.nodup_range' 1).map some_toString_injective

theorem keys_nodeIds (nodes : List (Node φ)) (name : String) :
    name ∈ (nodeIds nodes).keys ↔ name ∈ nodes.map (·.name) := by
  rw [nodeIds, Dict.mem_keys_ofList, List.map_map]
  have hnames : (nodes.zipIdx 2).map (Prod.fst ∘ fun e : Node φ × ℕ => (e.1.name, toString e.2)) =
      ((nodes.zipIdx 2).map Prod.fst).map (·.name) := by
    rw [List.map_map]
    rfl
  rw [hnames, List.zipIdx_map_fst]

theorem filterMap_cells {vertexIds : Dict (Option String) String}
    (hids : ∀ n id, (nodeIds topology.nodes).get? n = some id →
      vertexIds.get? (some id) = some (sanitizeName n)) :
    (diagramCells L topology).filterMap (readEdge vertexIds) =
      (topology.links.filter fun l => l.source ∈ topology.nodes.map (·.name) ∧
        l.target ∈ topology.nodes.map (·.name)).map sanitizeLink := by
  have hbase : (baseCells L topology).filterMap (readEdge vertexIds) = [] := by
    refine List.filterMap_eq_nil_iff.2 fun cell hcell => ?_
    rw [readEdge, (get?_baseCells hcell).2, if_neg (by simp)]
  have hnodes : (nodeCells L topology).filterMap (readEdge vertexIds) = [] := by
    refine List.filterMap_eq_nil_iff.2 fun cell hcell => ?_
    obtain ⟨⟨node, id⟩, -, rfl⟩ := List.mem_map.1 hcell
    have hedge : (nodeCell L id node).get? "edge" = none := by
      rw [get?_nodeCell (by decide) (by decide)]
      simp [List.lookup_cons]
    exact if_neg (by rw [hedge]; simp)
  rw [diagramCells_eq, List.filterMap_append, List.filterMap_append, hbase, hnodes,
    filterMap_linkCells hids, List.zipIdx_map_fst]
  simp only [keys_nodeIds, List.nil_append]

/-- The cell of the metadata is found by its id. -/
theorem get?_cells_meta :
    (Dict.ofList ((diagramCells L topology).map fun cell => (cell.get? "id", cell))).get?
      (some "dnlab_meta") = some (metaCell L topology) := by
  rw [Dict.get?_eq_some_iff, items_cells]
  have hid : (metaCell L topology).get? "id" = some "dnlab_meta" := by
    rw [get?_metaCell (by decide), List.lookup_cons_self]
  refine List.mem_map.2 ⟨metaCell L topology, ?_, by rw [hid]⟩
  rw [diagramCells_eq]
  exact List.mem_append_left _ (List.mem_append_left _ (by simp [baseCells]))

/-- Only a mapping with entries is remembered, and it is read back as an equal one. -/
theorem readMgmt_cells (hL : Faithful L topology) : Value.beq (.dict (mgmtOf topology))
    (.dict (mappingOr (Mapping.get (readMgmt L (Dict.ofList ((diagramCells L topology).map
      fun cell => (cell.get? "id", cell)))) "mgmt"))) = true := by
  have hget : (metaCell L topology).get? "dnlab_mgmt" =
      if (topology.extra.get "mgmt").truthy then some (L.dumps (topology.extra.get "mgmt"))
      else none := by
    rw [metaCell, Xml.get?_element]
    split
    · exact Dict.get?_set_self _ _ _
    · rw [Dict.get?, Dict.items_ofList_of_nodup (by simp)]
      simp [List.lookup_cons]
  rw [readMgmt, get?_cells_meta, mgmtOf]
  dsimp only
  rw [hget]
  split
  · have hbeq := beq_mappingOr (jsonAttrOr_dumps hL.noJson hL.mgmt (.dict []))
    split
    · rename_i hnil
      rw [hnil] at hbeq
      exact hbeq
    · exact hbeq
  · rename_i hfalsy
    have hnil : mappingOr (topology.extra.get "mgmt") = [] := by
      cases hv : topology.extra.get "mgmt" with
      | dict d =>
        rw [hv, Value.truthy] at hfalsy
        simpa [mappingOr] using hfalsy
      | _ => rfl
    rw [hnil]
    rfl

end Cells

/-- A node is found by its sanitised name if no other one has the same. -/
theorem exists_getNode {nodes nodes' : List (Node φ)} (h : List.Forall₂ SameNode nodes nodes')
    (hdistinct : (nodes.map fun n => sanitizeName n.name).Nodup) {n : Node φ} (hn : n ∈ nodes) :
    ∃ n', nodes'.find? (fun m => m.name = sanitizeName n.name) = some n' ∧ SameNode n n' := by
  induction h with
  | nil => exact absurd hn List.not_mem_nil
  | @cons m m' nodes nodes' hm _ ih =>
    rw [List.map_cons, List.nodup_cons] at hdistinct
    rcases List.mem_cons.1 hn with rfl | hn
    · exact ⟨m', List.find?_cons_of_pos (by simpa using hm.name), hm⟩
    · obtain ⟨n', hfind, hsame⟩ := ih hdistinct.2 hn
      refine ⟨n', ?_, hsame⟩
      rwa [List.find?_cons_of_neg]
      rw [decide_eq_true_eq, hm.name]
      intro heq
      exact hdistinct.1 (List.mem_map.2 ⟨n, hn, heq.symm⟩)

/-- The topology that is read from the diagram of a topology has its nodes, the links between them
    and its management settings. -/
theorem fromXml_toXml {topology : Topology φ} (topologyName : String) (hL : Faithful L topology)
    (hname : ∀ n ∈ topology.nodes, n.name ≠ "")
    (hdistinct : (topology.nodes.map fun n => sanitizeName n.name).Nodup)
    (hkind : ∀ n ∈ topology.nodes, n.kind ≠ "") :
    ∃ t, fromXml L (toXml L topology) topologyName = .ok t ∧ t.name = topologyName ∧
      SameDiagram topology t := by
  have hnodes : List.Forall₂ SameNode topology.nodes
      ((importedNodes L topology).map Prod.snd) := by
    have hmap : (importedNodes L topology).map Prod.snd = topology.nodes.map (importedNode L) := by
      rw [importedNodes, List.map_map, ← List.zipIdx_map_fst 2 topology.nodes, List.map_map,
        List.zipIdx_map_fst]
      rfl
    rw [hmap, List.forall₂_map_right_iff, List.forall₂_same]
    exact fun n hn => sameNode_importedNode hL.noJson (hL.extra n hn)
  have hlinks : (Dict.ofList ((diagramCells L topology).map fun cell =>
      (cell.get? "id", cell))).values.filterMap (readEdge (Dict.ofList
        ((importedNodes L topology).map fun (id, node) => (id, node.name)))) =
      (topology.links.filter fun l => l.source ∈ topology.nodes.map (·.name) ∧
        l.target ∈ topology.nodes.map (·.name)).map sanitizeLink := by
    have hvalues : (Dict.ofList ((diagramCells L topology).map fun cell =>
        (cell.get? "id", cell))).values = diagramCells L topology := by
      rw [Dict.values, items_cells, List.map_map]
      exact List.map_id _
    rw [hvalues]
    exact filterMap_cells fun _ _ => get?_vertexIds
  have hread : fromXml L (toXml L topology) topologyName =
      readGraph L topologyName (diagram L topology) := by
    rw [fromXml, toXml, hL.xml]
    rfl
  rw [hread, readGraph, iter_diagram]
  dsimp only
  -- Each cell of a node is read as the node that it was made of.
  rw [readVertices_cells hL hname hkind]
  refine ⟨_, rfl, rfl, hnodes, fun n hn => exists_getNode hnodes hdistinct hn, hlinks, ?_⟩
  exact readMgmt_cells hL

end Libraries

/-! ## A diagram of two routers -/

/-- An attribute as the library prints it. -/
def printAttr (e : String × String) : String :=
  let escaped := e.2.toList.flatMap fun c =>
    if c = '&' then "&amp;".toList
    else if c = '<' then "&lt;".toList
    else if c = '>' then "&gt;".toList
    else if c = '"' then "&quot;".toList
    else if c = '\r' then "&#13;".toList
    else if c = '\n' then "&#10;".toList
    else if c = '\t' then "&#09;".toList
    else [c]
  " " ++ e.1 ++ "=\"" ++ .ofList escaped ++ "\""

mutual

/-- An element as the library prints it. -/
def printXml : Xml → String
  | .element tag attrs [] => "<" ++ tag ++ Text.join "" (attrs.items.map printAttr) ++ " />"
  | .element tag attrs (child :: children) =>
    "<" ++ tag ++ Text.join "" (attrs.items.map printAttr) ++ ">" ++ printXml child ++
      printXmls children ++ "</" ++ tag ++ ">"

/-- Elements one after the other. -/
def printXmls : List Xml → String
  | [] => ""
  | x :: l => printXml x ++ printXmls l

end

/-- The documents of the routers and their texts. -/
def routerDocuments : List (String × Value) :=
  [("\x7b\x7d", .dict []), ("\x7b\"cpu\":2\x7d", .dict [(.str "cpu", .int 2)]),
    ("\x7b\"network\":\"lab\"\x7d", .dict [(.str "network", .str "lab")])]

/-- Two routers with a link; one of their names is to be sanitised. The coordinates are whole. -/
def routers : Topology ℤ where
  name := "lab"
  nodes := [⟨"edge router", "linux", "alpine:3", ⟨100, 100⟩, none, none, []⟩,
    ⟨"r2", "cisco_vios", "vios:15", ⟨300, 100⟩, none, none, [(.str "cpu", .int 2)]⟩]
  links := [⟨"edge router", "eth1", "r2", ""⟩, ⟨"r2", "eth2", "gone", "eth1"⟩]
  extra := [(.str "mgmt", .dict [(.str "network", .str "lab")])]

/-- The libraries on whole coordinates and the documents of the routers, without a reader of XML. -/
def printers : Libraries ℤ where
  tostring := printXml
  fromstring _ := .error "ParseError"
  dumps v := ((routerDocuments.find? fun e => e.2.beq v).map Prod.fst).getD "null"
  loads text := routerDocuments.lookup text
  print x := toString x ++ ".0"
  float text := Text.toInt? (Text.removeEnd text ".0")
  hundred := 100
  waypoint _ _ _ _ := ("200", "100")
  nodeIconDataUri _ := "data:image/svg+xml,"

/-- Libraries with a reader of XML that knows the diagram of one topology. -/
def withReader (L : Libraries φ) (topology : Topology φ) : Libraries φ :=
  { L with
    fromstring := fun text =>
      if text = toXml L topology then .ok (diagram L topology) else .error "ParseError" }

/-- A diagram does not depend on the reader of XML. -/
theorem diagram_withReader (L : Libraries φ) (known topology : Topology φ) :
    diagram (withReader L known) topology = diagram L topology := by
  have hlinks : ∀ (links : List (Link × ℕ)) (id : ℕ),
      linkCells (withReader L known) topology id links = linkCells L topology id links := by
    intro links
    induction links with
    | nil => exact fun _ => rfl
    | cons e links ih =>
      intro id
      rw [linkCells, linkCells]
      split
      · rw [ih]
        rfl
      · exact ih id
  rw [diagram, diagram, diagramCells, diagramCells, hlinks]
  rfl

theorem fromstring_withReader (L : Libraries φ) (topology : Topology φ) :
    (withReader L topology).fromstring (toXml (withReader L topology) topology) =
      .ok (diagram (withReader L topology) topology) := by
  rw [toXml, diagram_withReader]
  exact if_pos rfl

/-- The libraries, with a reader of the diagram of the routers. -/
def routerLibraries : Libraries ℤ := withReader printers routers

theorem restoresNumber_routers : routerLibraries.RestoresNumber 100 ∧
    routerLibraries.RestoresNumber 300 := by
  have hprint : ∀ x ∈ [(100 : ℤ), 300],
      Text.toInt? (Text.removeEnd (toString x ++ ".0") ".0") = some x := by decide
  exact ⟨hprint 100 (by decide), hprint 300 (by decide)⟩

theorem faithful_routers : Faithful routerLibraries routers := by
  obtain ⟨h100, h300⟩ := restoresNumber_routers
  refine ⟨fromstring_withReader printers routers, rfl, ?_, ⟨_, rfl, Value.beq_self _⟩, ?_, ?_⟩
  · intro n hn
    rcases List.mem_pair.1 hn with rfl | rfl <;> exact ⟨_, rfl, Value.beq_self _⟩
  · intro n hn
    rcases List.mem_pair.1 hn with rfl | rfl
    · exact h100
    · exact h300
  · intro n hn
    rcases List.mem_pair.1 hn with rfl | rfl <;> exact h100

/-- The routers are imported again, with the link between them. -/
theorem fromXml_toXml_routers : ∃ t,
    fromXml routerLibraries (toXml routerLibraries routers) "imported" = .ok t ∧
      t.name = "imported" ∧ SameDiagram routers t :=
  fromXml_toXml "imported" faithful_routers (by decide) (by decide) (by decide)

end Dnlab.Gui.Drawio
