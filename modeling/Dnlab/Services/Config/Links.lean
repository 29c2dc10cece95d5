import Dnlab.Lib.Except
import Dnlab.Services.Config
import Mathlib.Data.Sum.Basic

/-!
# The links of a topology file

The loop of `parse_topology` over the links: each of them joins two devices, or a device
and a real network. A topology with such links (`Accepted`) has both devices of every
link, and no device of a link has a colon in its name.
-/

namespace Dnlab.Config

/-- The device and the interface of `<node>:<interface>`. -/
def endpointParts (endpoint : String) : String × String :=
  (.ofList (endpoint.toList.takeWhile (· ≠ ':')),
    .ofList (endpoint.toList.dropWhile (· ≠ ':')).tail)

/-- `str(texts)` of a list of texts. -/
def listText (texts : List String) : String := "[" ++ Text.join ", " (texts.map Text.repr) ++ "]"

section Read

variable (nodes : Dict String VDNode) (realNets : Dict String RealNet)

/-- What a link of the file is: one without two endpoints is skipped. -/
def readLink : (endpoints : List String) → Except Err (Option (Link ⊕ RealNetLink))
  | [a, b] =>
    let (aNode, aIface) := endpointParts a
    let (bNode, bIface) := endpointParts b
    if realNets.contains aNode ∨ realNets.contains bNode then
      if realNets.contains aNode ∧ nodes.contains bNode then
        .ok (some (.inr { realNet := aNode, node := bNode, iface := bIface }))
      else if realNets.contains bNode ∧ nodes.contains aNode then
        .ok (some (.inr { realNet := bNode, node := aNode, iface := aIface }))
      else .error (configError ("Invalid real_net link: " ++ listText [a, b]))
    else if ¬nodes.contains aNode ∨ ¬nodes.contains bNode then
      .error (configError ("Link references unknown node: " ++ a ++ " or " ++ b ++
        ". Known nodes: " ++ listText nodes.keys))
    else
      .ok (some (.inl
        { source := aNode, sourceIface := aIface, target := bNode, targetIface := bIface }))
  | _ => .ok none

/-- The links of the file, those between devices and those to real networks. -/
def readLinks (raw : List (List String)) : Except Err (List Link × List RealNetLink) := do
  let links ← raw.mapM (readLink nodes realNets)
  pure ((links.filterMap id).filterMap Sum.getLeft?, (links.filterMap id).filterMap Sum.getRight?)

end Read

/-- The links of a topology are those of some file with its devices and its real networks. -/
def Accepted (topo : DistributedTopology) : Prop :=
  ∃ raw, readLinks topo.nodes topo.realNets raw = .ok (topo.links, topo.realNetLinks)

/-- A device that a link of a file may end at. -/
structure MayEnd (nodes : Dict String VDNode) (node : String) : Prop where
  known : nodes.contains node = true
  noColon : ':' ∉ node.toList

theorem colon_notMem_endpointParts (endpoint : String) : ':' ∉ (endpointParts endpoint).1.toList := by
  rw [endpointParts, String.toList_ofList]
  intro h
  have hcolon := List.mem_takeWhile_imp h
  simp at hcolon

section Read

variable {nodes : Dict String VDNode} {realNets : Dict String RealNet}

theorem mayEnd_of_readLink {endpoints : List String} {link : Option (Link ⊕ RealNetLink)}
    (h : readLink nodes realNets endpoints = .ok link) :
    (∀ l, link = some (.inl l) → MayEnd nodes l.source ∧ MayEnd nodes l.target) ∧
      ∀ l, link = some (.inr l) → MayEnd nodes l.node ∧ l.host = "" := by
  rw [readLink.eq_def] at h
  split at h
  · rename_i a b
    have ha := colon_notMem_endpointParts a
    have hb := colon_notMem_endpointParts b
    dsimp only at h
    split at h
    · split at h
      · rename_i hnet
        cases h
        refine ⟨nofun, fun l hl => ?_⟩
        cases hl
        exact ⟨⟨hnet.2, hb⟩, rfl⟩
      · split at h
        · rename_i hnet
          cases h
          refine ⟨nofun, fun l hl => ?_⟩
          cases hl
          exact ⟨⟨hnet.2, ha⟩, rfl⟩
        · cases h
    · split at h
      · cases h
      · rename_i hknown
        rw [not_or, not_not, not_not] at hknown
        cases h
        refine ⟨fun l hl => ?_, nofun⟩
        cases hl
        exact ⟨⟨hknown.1, ha⟩, hknown.2, hb⟩
  · cases h
    exact ⟨nofun, nofun⟩

end Read

namespace Accepted

variable {topo : DistributedTopology}

theorem link (h : Accepted topo) {l : Link} (hl : l ∈ topo.links) :
    MayEnd topo.nodes l.source ∧ MayEnd topo.nodes l.target := by
  obtain ⟨raw, hraw⟩ := h
  simp only [readLinks, ExceptRules.bind_eq_ok, ExceptRules.pure_eq_ok, ExceptRules.mapM_eq_ok]
    at hraw
  obtain ⟨links, hlinks, heq⟩ := hraw
  rw [← (Prod.mk.inj heq).1] at hl
  obtain ⟨s, hs, hleft⟩ := List.mem_filterMap.1 hl
  obtain ⟨o, ho, rfl⟩ := List.mem_filterMap.1 hs
  obtain ⟨endpoints, -, hread⟩ := ExceptRules.forall₂_exists hlinks ho
  obtain rfl := Sum.getLeft?_eq_some_iff.1 hleft
  exact (mayEnd_of_readLink hread).1 l rfl

/-- An attachment to a real network is not placed yet. -/
theorem realNetLink (h : Accepted topo) {l : RealNetLink} (hl : l ∈ topo.realNetLinks) :
    MayEnd topo.nodes l.node ∧ l.host = "" := by
  obtain ⟨raw, hraw⟩ := h
  simp only [readLinks, ExceptRules.bind_eq_ok, ExceptRules.pure_eq_ok, ExceptRules.mapM_eq_ok]
    at hraw
  obtain ⟨links, hlinks, heq⟩ := hraw
  rw [← (Prod.mk.inj heq).2] at hl
  obtain ⟨s, hs, hright⟩ := List.mem_filterMap.1 hl
  obtain ⟨o, ho, rfl⟩ := List.mem_filterMap.1 hs
  obtain ⟨endpoints, -, hread⟩ := ExceptRules.forall₂_exists hlinks ho
  obtain rfl := Sum.getRight?_eq_some_iff.1 hright
  exact (mayEnd_of_readLink hread).2 l rfl

end Accepted

end Dnlab.Config
