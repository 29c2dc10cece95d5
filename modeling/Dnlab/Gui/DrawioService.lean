import Dnlab.Lib.Occurrence
import Dnlab.Lib.Value
import Dnlab.Lib.Xml
import Mathlib.Data.Char
import Mathlib.Data.List.Lex

/-!
# Diagrams

The import and export of draw.io diagrams, after `drawio_service.py`: each node of a topology is a
cell that is a vertex, each link one that is an edge between the cells of its nodes, and what a
diagram does not show is in further attributes of the cells.

The libraries that print and read XML and JSON are parameters, as is what is done with coordinates.
Of a topology, the parts that have a place in a diagram are modelled.
-/

namespace Dnlab.Gui

/-! ## Topologies of the editor -/

/-- The position of a node. -/
structure NodePosition (φ : Type) where
  x : φ
  y : φ

/-- A node. -/
structure Node (φ : Type) where
  name : String
  kind : String
  image : String
  position : NodePosition φ
  mgmtIpv4 : Option String := none
  mgmtIpv6 : Option String := none
  /-- Further parameters of the node. -/
  extra : Mapping := []

/-- A link; an interface that is not given is empty. -/
structure Link where
  source : String
  sourceIface : String := ""
  target : String
  targetIface : String := ""
  deriving DecidableEq

/-- A topology. -/
structure Topology (φ : Type) where
  name : String
  nodes : List (Node φ) := []
  links : List Link := []
  /-- Further entries of the file. -/
  extra : Mapping := []

/-- `self.get_node(name)`. -/
def Topology.getNode {φ : Type} (t : Topology φ) (name : String) : Option (Node φ) :=
  t.nodes.find? fun n => n.name = name

namespace Drawio

/-- What the service calls: the libraries for XML and JSON, the numbers of the coordinates, and the
    icons of the catalogue. -/
structure Libraries (φ : Type) where
  /-- `ET.tostring(element, encoding="unicode", xml_declaration=False)`. -/
  tostring : Xml → String
  /-- `ET.fromstring(text)`. -/
  fromstring : String → Except String Xml
  /-- `json.dumps(value, separators=(",", ":"), sort_keys=True)`. -/
  dumps : Value → String
  /-- `json.loads(text)`, if the text is JSON. -/
  loads : String → Option Value
  /-- `str(x)`. -/
  print : φ → String
  /-- `float(text)`, if the text is a number. -/
  float : String → Option φ
  /-- `100.0`. -/
  hundred : φ
  /-- The point through which the `i`-th of `count` parallel edges goes, as printed. -/
  waypoint : (i count : ℕ) → (source target : NodePosition φ) → String × String
  /-- `node_icon_data_uri(kind)`. -/
  nodeIconDataUri : String → String

/-! ## Helpers -/

/-- `_STYLE_KIND_MAP`. -/
def styleKindMap : List (String × String) :=
  [("cisco.routers.router", "cisco_xrv9k"), ("cisco.routers.cisco_router", "cisco_xrv9k"),
    ("cisco.switches.layer_3", "cisco_n9kv"), ("cisco.switches.multilayer", "cisco_n9kv"),
    ("cisco.firewalls", "cisco_vios"), ("juniper.router", "juniper_vmx"),
    ("juniper.ex_switch", "juniper_vjunosswitch"), ("arista", "arista_ceos"),
    ("nokia", "nokia_srlinux"), ("linux", "linux"), ("server", "linux"),
    ("router", "cisco_xrv9k"), ("switch", "cisco_n9kv"), ("firewall", "cisco_vios")]

/-- `[a-zA-Z0-9_-]`. -/
def isNameChar (c : Char) : Bool := Text.isAlnum c || c == '_' || c == '-'

/-- `self._sanitize_name(label)`. -/
def sanitizeName (label : String) : String :=
  Text.orElse (.ofList ((Text.stripSpaces label).toList.map fun c => if isNameChar c then c else '_'))
    "node"

/-- `self._style_to_kind(style)`. -/
def styleToKind (style : String) : String :=
  ((styleKindMap.find? fun e => Text.contains (Text.lower style) (Text.lower e.1)).map Prod.snd).getD
    "linux"

/-- `self._parse_link_label(label)`. -/
def parseLinkLabel (label : String) : String × String :=
  let parts := [" – ", " - ", "/", ":"].findSome? fun sep =>
    Occurrence.firstIn sep.toList label.toList
  match parts with
  | some (a, b) => (Text.stripSpaces (.ofList a), Text.stripSpaces (.ofList b))
  | none => ("", "")

/-- `self._link_type(source_node, target_node)`. -/
def linkType {φ : Type} (source target : Option (Node φ)) : String :=
  if (source.any fun n => n.kind = "_real_net") ∨ (target.any fun n => n.kind = "_real_net") then
    "real_net"
  else "data"

/-- `self._link_label(link, source_node, target_node)`. -/
def linkLabel {φ : Type} (link : Link) (source target : Option (Node φ)) : String :=
  if source.any fun n => n.kind = "_real_net" then link.targetIface
  else if target.any fun n => n.kind = "_real_net" then link.sourceIface
  else Text.join " – " ([link.sourceIface, link.targetIface].filter (· ≠ ""))

/-- `self._link_pair_key(link)`. -/
def linkPairKey (link : Link) : String × String :=
  if link.source.toList ≤ link.target.toList then (link.source, link.target)
  else (link.target, link.source)

/-- `self._link_sort_key(link)`. -/
def linkSortKey (link : Link) : List (List Char) :=
  [link.source.toList, link.target.toList, link.sourceIface.toList, link.targetIface.toList]

/-- `self._edge_style()`. -/
def edgeStyle : String :=
  "html=1;rounded=0;curved=1;startArrow=none;endArrow=none;sourceArrow=none;targetArrow=none;"

section Service

variable {φ : Type} (L : Libraries φ)

/-- `self._json_attr_or(value, fallback)`. -/
def jsonAttrOr (value : Option String) (fallback : Value) : Value :=
  match value.filter (· ≠ "") with
  | none => fallback
  | some text => (L.loads text).getD fallback

/-- `self._node_style(kind)`. -/
def nodeStyle (kind : String) : String :=
  "shape=image;html=1;imageAspect=0;aspect=fixed;image=" ++ L.nodeIconDataUri kind ++
    ";verticalLabelPosition=bottom;verticalAlign=top;align=center;"

/-! ## Import -/

/-- The value if it is a mapping, and an empty one else. -/
def mappingOr : Value → Mapping
  | .dict d => d
  | _ => []

/-- A coordinate of a geometry. -/
def coordinate (geo : Option Xml) (axis : String) : Except String φ :=
  match geo.bind fun g => g.get? axis with
  | none => .ok L.hundred
  | some text =>
    match L.float text with
    | some x => .ok x
    | none => .error ("could not convert string to float: " ++ Text.repr text)

/-- Whether a cell is one of a node. -/
def isVertex (cell : Xml) : Bool :=
  cell.get? "vertex" = some "1" && !decide (cell.get? "parent" ∈ [some "", none, some "0"])

/-- The text of an attribute, if it is there and not empty. -/
def attr (cell : Xml) (name : String) : Option String := (cell.get? name).filter (· ≠ "")

/-- The node of a cell. -/
def readVertex (id : Option String) (cell : Xml) : Except String (Node φ) :=
  match (attr cell "value").or id with
  | none => .error "'NoneType' object has no attribute 'strip'"
  | some label => do
    let x ← coordinate L (cell.find "mxGeometry") "x"
    let y ← coordinate L (cell.find "mxGeometry") "y"
    pure
      { name := sanitizeName label
        kind := (attr cell "dnlab_kind").getD (styleToKind (cell.getD "style" ""))
        image := cell.getD "dnlab_image" ""
        position := ⟨x, y⟩
        extra := mappingOr (jsonAttrOr L (cell.get? "dnlab_extra") (.dict [])) }

/-- The nodes of the cells, each with the id of its cell. -/
def readVertices (cells : Dict (Option String) Xml) :
    Except String (List (Option String × Node φ)) :=
  (cells.items.filter fun e => isVertex e.2).mapM fun (id, cell) => do
    let node ← readVertex L id cell
    pure (id, node)

/-- The interfaces of a cell: those of its attributes, or else those that its label shows. -/
def readIfaces (cell : Xml) : String × String :=
  match cell.get? "dnlab_source_iface", cell.get? "dnlab_target_iface" with
  | none, none => parseLinkLabel ((cell.get? "value").getD "")
  | source, target => (source.getD "", target.getD "")

/-- The link of a cell, if it is an edge between cells of nodes. -/
def readEdge (vertexIds : Dict (Option String) String) (cell : Xml) : Option Link :=
  if cell.get? "edge" = some "1" then do
    let source ← vertexIds.get? (some (cell.getD "source" ""))
    let target ← vertexIds.get? (some (cell.getD "target" ""))
    let (sourceIface, targetIface) := readIfaces cell
    pure ⟨source, sourceIface, target, targetIface⟩
  else none

/-- The management settings that a diagram remembers. -/
def readMgmt (cells : Dict (Option String) Xml) : Mapping :=
  match cells.get? (some "dnlab_meta") with
  | none => []
  | some cell =>
    let mgmt := mappingOr (jsonAttrOr L (cell.get? "dnlab_mgmt") (.dict []))
    if mgmt = [] then [] else .ofFields [("mgmt", .dict mgmt)]

/-- The topology of a graph. -/
def readGraph (topologyName : String) (graphModel : Xml) : Except String (Topology φ) := do
  let cells := Dict.ofList ((graphModel.iter "mxCell").map fun cell => (cell.get? "id", cell))
  let vertices ← readVertices L cells
  let vertexIds := Dict.ofList (vertices.map fun (id, node) => (id, node.name))
  pure
    { name := topologyName
      nodes := vertices.map Prod.snd
      links := cells.values.filterMap (readEdge vertexIds)
      extra := readMgmt L cells }

/-- `from_xml(xml_str, topology_name)`. -/
def fromXml (text topologyName : String) : Except String (Topology φ) := do
  let root ← L.fromstring text
  let graphModel := if root.tag = "mxGraphModel" then some root else root.findDeep "mxGraphModel"
  match graphModel with
  | none => .error "No mxGraphModel element found in XML"
  | some graphModel => readGraph L topologyName graphModel

/-! ## Export -/

/-- `d[name] = value` if the value is not empty. -/
def setUnlessEmpty (d : Dict String String) (name value : String) : Dict String String :=
  if value = "" then d else d.set name value

/-- A management address of a node: its own, or that of its parameters. -/
def mgmtAddress (own : Option String) (extra : Mapping) (key : String) : String :=
  Text.orElse (own.getD "") (if (extra.get key).truthy then (extra.get key).print else "")

/-- The cell of a node. -/
def nodeCell (id : ℕ) (node : Node φ) : Xml :=
  let attrs : Dict String String := .ofList
    [("id", toString id), ("value", node.name), ("style", nodeStyle L node.kind), ("vertex", "1"),
      ("parent", "1"), ("dnlab_kind", node.kind), ("dnlab_image", node.image),
      ("dnlab_extra", L.dumps (.dict node.extra))]
  let attrs := setUnlessEmpty attrs "dnlab_mgmt_ipv4"
    (mgmtAddress node.mgmtIpv4 node.extra "mgmt-ipv4")
  let attrs := setUnlessEmpty attrs "dnlab_mgmt_ipv6"
    (mgmtAddress node.mgmtIpv6 node.extra "mgmt-ipv6")
  .element "mxCell" attrs
    [.element "mxGeometry" (.ofList [("x", L.print node.position.x), ("y", L.print node.position.y),
      ("width", "56"), ("height", "56"), ("as", "geometry")]) []]

/-- The links between the same nodes as a link, in the order in which they are drawn. -/
def parallelLinks (links : List Link) (link : Link) : List (Link × ℕ) :=
  (links.zipIdx.filter fun e => linkPairKey e.1 = linkPairKey link).insertionSort
    fun a b => linkSortKey a.1 ≤ linkSortKey b.1

/-- `self._parallel_link_waypoint(link, topology, parallel_groups)` of the `i`-th link. -/
def parallelLinkWaypoint (topology : Topology φ) (i : ℕ) (link : Link) :
    Option (String × String) :=
  let siblings := parallelLinks topology.links link
  if siblings.length ≤ 1 then none
  else do
    let place ← siblings.findIdx? fun e => e.2 = i
    let source ← topology.getNode (linkPairKey link).1
    let target ← topology.getNode (linkPairKey link).2
    pure (L.waypoint place siblings.length source.position target.position)

/-- The cell of the `i`-th link. -/
def linkCell (topology : Topology φ) (id i : ℕ) (link : Link) (source target : String) : Xml :=
  let sourceNode := topology.getNode link.source
  let targetNode := topology.getNode link.target
  let points := match parallelLinkWaypoint L topology i link with
    | none => []
    | some (x, y) =>
      [.element "Array" (.ofList [("as", "points")])
        [.element "mxPoint" (.ofList [("x", x), ("y", y)]) []]]
  .element "mxCell" (.ofList
    [("id", toString id), ("value", linkLabel link sourceNode targetNode), ("style", edgeStyle),
      ("edge", "1"), ("source", source), ("target", target), ("parent", "1"),
      ("dnlab_source_iface", link.sourceIface), ("dnlab_target_iface", link.targetIface),
      ("dnlab_link_type", linkType sourceNode targetNode)])
    [.element "mxGeometry" (.ofList [("relative", "1"), ("as", "geometry")]) points]

/-- The ids of the cells of the nodes. -/
def nodeIds (nodes : List (Node φ)) : Dict String String :=
  .ofList ((nodes.zipIdx 2).map fun (node, id) => (node.name, toString id))

/-- The cells of the links whose nodes have cells; `id` is the next id. -/
def linkCells (topology : Topology φ) : (id : ℕ) → List (Link × ℕ) → List Xml
  | _, [] => []
  | id, (link, i) :: links =>
    match (nodeIds topology.nodes).get? link.source, (nodeIds topology.nodes).get? link.target with
    | some source, some target =>
      linkCell L topology id i link source target :: linkCells topology (id + 1) links
    | _, _ => linkCells topology id links

/-- The cell of `self._append_dnlab_metadata(root_el, topology)`. -/
def metaCell (topology : Topology φ) : Xml :=
  let attrs : Dict String String := .ofList
    [("id", "dnlab_meta"), ("parent", "0"), ("dnlab_version", "1"),
      ("dnlab_topology_name", topology.name)]
  let mgmt := topology.extra.get "mgmt"
  .element "mxCell" (if mgmt.truthy then attrs.set "dnlab_mgmt" (L.dumps mgmt) else attrs) []

/-- The cells of a diagram. -/
def diagramCells (topology : Topology φ) : List Xml :=
  [.element "mxCell" (.ofList [("id", "0")]) [],
    .element "mxCell" (.ofList [("id", "1"), ("parent", "0")]) [], metaCell L topology] ++
    (topology.nodes.zipIdx 2).map (fun (node, id) => nodeCell L id node) ++
    linkCells L topology (2 + topology.nodes.length) topology.links.zipIdx

/-- The diagram of a topology. -/
def diagram (topology : Topology φ) : Xml :=
  .element "mxGraphModel" (.ofList
    [("dx", "1422"), ("dy", "762"), ("grid", "1"), ("gridSize", "10"), ("guides", "1"),
      ("tooltips", "1"), ("connect", "1"), ("arrows", "1"), ("fold", "1"), ("page", "1"),
      ("pageScale", "1"), ("pageWidth", "1169"), ("pageHeight", "827"), ("math", "0"),
      ("shadow", "0")])
    [.element "root" ∅ (diagramCells L topology)]

/-- `to_xml(topology)`. -/
def toXml (topology : Topology φ) : String := L.tostring (diagram L topology)

end Service

end Drawio

end Dnlab.Gui
