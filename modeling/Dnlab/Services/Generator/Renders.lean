import Dnlab.Services.Generator.Agreement
import Dnlab.Services.Scheduler.Ends

/-!
# Plans that can be written

When the files of a plan can be written. Every link of a topology joins devices that it has, so
that the names of the ends and the runtime links are always found; the file of a device is written
if the topology has the device, with warm ports that its profile allows (`PortsFit`)
and with binds and ports that the program can go through (`ListsFit`): it adds to them.
-/

namespace Dnlab

open ExceptRules (Succeeds)

namespace WarmLinks

/-- The number of warm ports that the environment of a device asks for. -/
def portsSetting (vd : VDNode) : Option Int :=
  let setting := vd.env.getD "DNLAB_WARM_PORTS" ""
  if setting = "" then some 0 else Text.toInt? setting

/-- The warm ports of a device, if it has any, are no more than its profile allows. -/
def PortsFit (topo : DistributedTopology) (node : String) (vd : VDNode) : Prop :=
  isEnabled vd = true → ∀ profile, profileForNode vd = some profile →
    ∃ requested, portsSetting vd = some requested ∧
      max (max profile.defaultPorts (highestUsedPort topo node)) requested.toNat ≤ profile.maxPorts

variable {topo : DistributedTopology} {node : String} {vd : VDNode}

/-- The ports in use depend on the ends of the links only. -/
theorem highestUsedPort_congr {topo topo' : DistributedTopology} (hlinks : topo'.links = topo.links)
    (hnets : topo'.realNetLinks.map RealNetLink.linkEnd =
      topo.realNetLinks.map RealNetLink.linkEnd) (node : String) :
    highestUsedPort topo' node = highestUsedPort topo node := by
  have hflat : ∀ nets : List RealNetLink,
      nets.flatMap (fun l => if l.node = node then [ifaceIndex l.iface] else []) =
        (nets.map RealNetLink.linkEnd).flatMap
          fun e => if e.1 = node then [ifaceIndex e.2] else [] := by
    intro nets
    rw [List.flatMap_map]
    rfl
  unfold highestUsedPort
  dsimp only
  rw [hlinks, hflat, hflat, hnets]

theorem succeeds_requestedCapacity_iff {profile : Profile} :
    Succeeds (requestedCapacity topo node vd profile) ↔ ∃ requested, portsSetting vd = some requested ∧
      max (max profile.defaultPorts (highestUsedPort topo node)) requested.toNat ≤
        profile.maxPorts := by
  unfold requestedCapacity
  dsimp only
  rw [← portsSetting]
  cases portsSetting vd with
  | none => exact ⟨fun ⟨_, h⟩ => (by cases h), fun ⟨_, h, _⟩ => (by cases h)⟩
  | some requested =>
    dsimp only
    split
    · rename_i hmore
      refine ⟨fun ⟨_, h⟩ => (by cases h), ?_⟩
      rintro ⟨_, h, hle⟩
      cases h
      exact absurd hmore hle.not_gt
    · rename_i hle
      exact ⟨fun _ => ⟨requested, rfl, not_lt.1 hle⟩, fun _ => ⟨_, rfl⟩⟩

theorem succeeds_capacityForNode_iff (hvd : topo.nodes.get? node = some vd) :
    Succeeds (capacityForNode topo node) ↔ PortsFit topo node vd := by
  unfold capacityForNode PortsFit
  rw [nodeOf_eq_ok.2 hvd]
  dsimp only
  split
  · rename_i hnone
    refine ⟨fun _ _ profile hp => ?_, fun _ => ⟨0, rfl⟩⟩
    rw [hnone] at hp
    cases hp
  · rename_i profile hprofile
    split
    · rename_i hen
      rw [succeeds_requestedCapacity_iff]
      refine ⟨fun h _ p hp => ?_, fun h => h hen profile hprofile⟩
      obtain rfl := Option.some.inj (hprofile.symm.trans hp)
      exact h
    · rename_i hen
      exact ⟨fun _ h => absurd h hen, fun _ => ⟨0, rfl⟩⟩

end WarmLinks

namespace RuntimeLinks

open Scheduler (linkEnds)
open WarmLinks (nodeOf nodeOf_eq_ok)

variable {topo : DistributedTopology} {plan : SchedulePlan}

/-- The topology has the devices of all link ends of a plan. -/
def EndsKnown (topo : DistributedTopology) (plan : SchedulePlan) : Prop :=
  ∀ e ∈ linkEnds topo plan, topo.nodes.contains e.1 = true

theorem succeeds_nodeOf {node : String} (h : topo.nodes.contains node = true) :
    Succeeds (nodeOf topo node) := by
  obtain ⟨vd, hvd⟩ := Dict.mem_keys_iff.1 (Dict.contains_iff.1 h)
  exact ⟨vd, nodeOf_eq_ok.2 hvd⟩

theorem succeeds_endpointName {node iface lid fallback : String}
    (h : topo.nodes.contains node = true) :
    Succeeds (endpointName topo node iface lid fallback) :=
  (succeeds_nodeOf h).bind fun _ _ => .ite (fun _ => .pure _) fun _ => .pure _

theorem succeeds_warmOf {node : String} (h : topo.nodes.contains node = true) :
    Succeeds (warmOf topo node) :=
  (succeeds_nodeOf h).bind fun _ _ => .pure _

theorem succeeds_buildRuntimeLinks (h : EndsKnown topo plan) :
    Succeeds (buildRuntimeLinks topo plan) := by
  have hwithin : ∀ l ∈ plan.localLinks, ∀ e ∈ l.ends, topo.nodes.contains e.1 = true :=
    fun l hl e he => h e (List.mem_append_left _ (List.mem_append_left _
      (List.mem_flatMap.2 ⟨l, hl, he⟩)))
  have hacross : ∀ c ∈ plan.crossHostLinks, ∀ e ∈ (Scheduler.linkOf c).ends,
      topo.nodes.contains e.1 = true :=
    fun c hc e he => h e (List.mem_append_left _ (List.mem_append_right _
      (List.mem_flatMap.2 ⟨c, hc, he⟩)))
  have hnet : ∀ l ∈ topo.realNetLinks, topo.nodes.contains l.node = true :=
    fun l hl => h l.linkEnd (List.mem_append_right _ (List.mem_map_of_mem hl))
  unfold buildRuntimeLinks
  refine .bind (Succeeds.mapM_iff.2 ?_) fun _ _ => .bind (Succeeds.mapM_iff.2 ?_) fun _ _ =>
    .bind (Succeeds.mapM_iff.2 ?_) fun _ _ => .pure _
  · rintro ⟨l, i⟩ hl
    have hends := hwithin l (List.fst_mem_of_mem_zipIdx hl)
    have hs := hends (l.source, l.sourceIface) List.mem_cons_self
    have ht := hends (l.target, l.targetIface) (List.mem_cons_of_mem _ List.mem_cons_self)
    exact (succeeds_endpointName hs).bind fun _ _ => (succeeds_endpointName ht).bind fun _ _ =>
      (succeeds_warmOf hs).bind fun _ _ => (succeeds_warmOf ht).bind fun _ _ => .pure _
  · rintro ⟨c, i⟩ hc
    have hends := hacross c (List.fst_mem_of_mem_zipIdx hc)
    have hs := hends (c.sourceNode, c.sourceIface) List.mem_cons_self
    have ht := hends (c.targetNode, c.targetIface) (List.mem_cons_of_mem _ List.mem_cons_self)
    exact (succeeds_endpointName hs).bind fun _ _ => (succeeds_endpointName ht).bind fun _ _ =>
      (succeeds_warmOf hs).bind fun _ _ => (succeeds_warmOf ht).bind fun _ _ => .pure _
  · rintro ⟨l, i⟩ hl
    have hn := hnet l (List.fst_mem_of_mem_zipIdx hl)
    exact (succeeds_endpointName hn).bind fun _ _ => (succeeds_warmOf hn).bind fun _ _ => .pure _

end RuntimeLinks

namespace Yaml

/-- A value that can be gone through: anything but a number that is not zero, and `true`. -/
def IsListable : Yaml → Prop
  | .bool b => b = false
  | .int n => n = 0
  | _ => True

/-- Before any element that is no text, there is a text with a suffix. -/
def TextsUntil (suffix : String) : List Yaml → Prop
  | [] => True
  | .str s :: l => Text.endsWith s suffix = true ∨ TextsUntil suffix l
  | _ :: _ => False

theorem succeeds_elements_iff {v : Yaml} : Succeeds v.elements ↔ v.IsListable := by
  cases v with
  | null => exact iff_of_true (.pure _) trivial
  | bool b =>
    cases b with
    | false => exact iff_of_true (.pure _) rfl
    | true => exact ⟨fun ⟨_, h⟩ => (by cases h), fun h => (by cases h)⟩
  | int n =>
    by_cases hn : n = 0
    · subst hn
      exact iff_of_true (.pure _) rfl
    · have herr : (Yaml.int n).elements = .error ⟨.other, "'int' object is not iterable"⟩ := by
        unfold elements
        split <;> first | rfl | simp_all
      exact ⟨fun ⟨_, h⟩ => (by rw [herr] at h; cases h), fun h => absurd h hn⟩
  | str s => exact iff_of_true (.pure _) trivial
  | seq l => exact iff_of_true (.pure _) trivial
  | map l => exact iff_of_true (.pure _) trivial

theorem textsUntil_map_str (suffix : String) (l : List String) :
    TextsUntil suffix (l.map .str) := by
  induction l with
  | nil => trivial
  | cons s l ih => exact .inr ih

end Yaml

namespace Generator

open RuntimeLinks (EndsKnown succeeds_buildRuntimeLinks succeeds_nodeOf)
open WarmLinks (PortsFit nodeOf_eq_ok highestUsedPort_congr succeeds_capacityForNode_iff)
open Yaml (TextsUntil succeeds_elements_iff)

variable {topo : DistributedTopology} {plan : SchedulePlan}
  {webui : Dict String (List WebUIAllocation)} {node : String} {vd : VDNode}

/-- The lists of a device that the program adds to can be gone through; and where it looks for the
    bind of the data, it finds it or has seen texts only. -/
structure ListsFit (topo : DistributedTopology) (webui : Dict String (List WebUIAllocation))
    (node : String) (vd : VDNode) : Prop where
  binds : hasVswitch topo node = true ∨ needsPersistBind vd.image = true →
    (fieldOf vd.extra "binds").IsListable
  ports : webui.getD node [] ≠ [] → (fieldOf vd.extra "ports").IsListable
  texts : needsPersistBind vd.image = true → hasVswitch topo node = false →
    ∀ l, (fieldOf vd.extra "binds").elements = .ok l → TextsUntil ":/persist" l

/-- The topology has a device, and the file of it can be written. -/
def Writable (topo : DistributedTopology) (webui : Dict String (List WebUIAllocation))
    (node : String) : Prop :=
  ∃ vd, topo.nodes.get? node = some vd ∧ PortsFit topo node vd ∧ ListsFit topo webui node vd

/-- Whether a device can be written does not depend on where the attachments are placed. -/
theorem writable_congr {topo topo' : DistributedTopology} (hnodes : topo'.nodes = topo.nodes)
    (hlinks : topo'.links = topo.links) (hnets : topo'.realNetLinks.map RealNetLink.linkEnd =
      topo.realNetLinks.map RealNetLink.linkEnd) (hover : topo'.nodeOverrides = topo.nodeOverrides)
    (node : String) : Writable topo' webui node ↔ Writable topo webui node := by
  have hswitch : hasVswitch topo' node = hasVswitch topo node := by rw [hasVswitch, hover, hasVswitch]
  have hlists : ∀ vd, ListsFit topo' webui node vd ↔ ListsFit topo webui node vd := by
    intro vd
    constructor <;> intro h
    · exact ⟨hswitch ▸ h.binds, h.ports, hswitch ▸ h.texts⟩
    · exact ⟨hswitch ▸ h.binds, h.ports, hswitch ▸ h.texts⟩
  unfold Writable PortsFit
  rw [hnodes, highestUsedPort_congr hlinks hnets]
  simp only [hlists]

/-! ## The node of a file -/

theorem succeeds_anyEndsWith_iff {suffix : String} {l : List Yaml} :
    Succeeds (anyEndsWith suffix l) ↔ TextsUntil suffix l := by
  induction l with
  | nil => exact iff_of_true (.pure _) trivial
  | cons v l ih =>
    cases v with
    | str s =>
      rw [anyEndsWith, TextsUntil]
      split
      · rename_i h
        exact iff_of_true (.pure _) (.inl h)
      · rename_i h
        rw [ih, or_iff_right h]
    | null => exact ⟨fun ⟨_, h⟩ => (by cases h), False.elim⟩
    | bool b => exact ⟨fun ⟨_, h⟩ => (by cases h), False.elim⟩
    | int n => exact ⟨fun ⟨_, h⟩ => (by cases h), False.elim⟩
    | seq l => exact ⟨fun ⟨_, h⟩ => (by cases h), False.elim⟩
    | map l => exact ⟨fun ⟨_, h⟩ => (by cases h), False.elim⟩

/-- What the program does not write itself, it takes from the device. -/
theorem fieldOf_baseNode {key : String} {capacity : ℕ}
    (hkey : key ∉ ["kind", "image", "mgmt-ipv4", "env", "webui_ports"]) :
    fieldOf (baseNode vd capacity) key = fieldOf vd.extra key := by
  simp only [List.mem_cons, List.not_mem_nil, or_false, not_or] at hkey
  obtain ⟨hkind, himage, hip, henv, hports⟩ := hkey
  have hset : ∀ (c : Prop) [Decidable c] (d : Dict String Yaml) (k : String) (v : Yaml), key ≠ k →
      d.get? key = none → (if c then d else d.set k v).get? key = none := by
    intro c _ d k v hne hd
    split
    · exact hd
    · rw [Dict.get?_set_of_ne _ _ hne, hd]
  rw [fieldOf, fieldOf, Dict.getD, Dict.getD, baseNode, Dict.get?_update_items,
    Dict.get?_erase_of_ne _ hports]
  have hhead : (((∅ : Dict String Yaml).set "kind" (.str vd.kind)).set "image"
      (.str vd.image)).get? key = none := by
    rw [Dict.get?_set_of_ne _ _ himage, Dict.get?_set_of_ne _ _ hkind]
    rfl
  have henvs := hset (vd.env.items = []) _ _ (envYaml (nodeEnv vd)) henv
    (hset (vd.mgmtIpv4 = "") _ _ (.str vd.mgmtIpv4) hip hhead)
  have hnone : ∀ d : Dict String Yaml, d.get? key = none →
      ((vd.extra.get? key).or (d.get? key)).getD .null = (vd.extra.get? key).getD .null := by
    intro d hd
    rw [hd, Option.or_none]
  refine hnone _ ?_
  split
  · exact hset _ _ _ _ henv henvs
  · exact henvs

theorem fieldOf_set_of_ne {d : Dict String Yaml} {key key' : String} {v : Yaml} (h : key ≠ key') :
    fieldOf (d.set key' v) key = fieldOf d key := by
  rw [fieldOf, Dict.getD, Dict.get?_set_of_ne _ _ h, fieldOf, Dict.getD]

theorem fieldOf_set_self (d : Dict String Yaml) (key : String) (v : Yaml) :
    fieldOf (d.set key v) key = v := by
  rw [fieldOf, Dict.getD, Dict.get?_set_self, Option.getD_some]

/-- The bind of the switch file: the list of the binds becomes one of texts. -/
theorem succeeds_bindVswitch_iff {d : Dict String Yaml} :
    Succeeds (bindVswitch topo node d) ↔
      (hasVswitch topo node = true → (fieldOf d "binds").IsListable) := by
  unfold bindVswitch
  split
  · rename_i h
    rw [Succeeds.bind_iff (p := True) fun _ _ => iff_true_intro (.pure _), and_true,
      succeeds_elements_iff, forall_prop_of_true h]
  · rename_i h
    exact iff_of_true (.pure _) fun h' => absurd h' h

theorem bindVswitch_eq_ok {d d' : Dict String Yaml} (h : bindVswitch topo node d = .ok d') :
    fieldOf d' "ports" = fieldOf d "ports" ∧
      if hasVswitch topo node = true then ∃ l : List String, fieldOf d' "binds" = .seq (l.map .str)
      else fieldOf d' "binds" = fieldOf d "binds" := by
  unfold bindVswitch at h
  split at h
  · rename_i hswitch
    obtain ⟨binds, -, h⟩ := ExceptRules.bind_eq_ok.1 h
    obtain rfl := ExceptRules.pure_eq_ok.1 h
    rw [if_pos hswitch]
    exact ⟨fieldOf_set_of_ne (by decide), _, fieldOf_set_self _ _ _⟩
  · rename_i hswitch
    obtain rfl := ExceptRules.pure_eq_ok.1 h
    rw [if_neg hswitch]
    exact ⟨rfl, rfl⟩

theorem succeeds_publishPorts_iff {allocs : List WebUIAllocation} {d : Dict String Yaml} :
    Succeeds (publishPorts allocs d) ↔ (allocs ≠ [] → (fieldOf d "ports").IsListable) := by
  unfold publishPorts
  split
  · rename_i h
    exact iff_of_true (.pure _) fun h' => absurd h h'
  · rename_i h
    rw [Succeeds.bind_iff (p := True) fun _ _ => iff_true_intro (.pure _), and_true,
      succeeds_elements_iff, forall_prop_of_true h]

theorem fieldOf_publishPorts {allocs : List WebUIAllocation} {d d' : Dict String Yaml}
    (h : publishPorts allocs d = .ok d') : fieldOf d' "binds" = fieldOf d "binds" := by
  unfold publishPorts at h
  split at h
  · obtain rfl := ExceptRules.pure_eq_ok.1 h
    rfl
  · obtain ⟨ports, -, h⟩ := ExceptRules.bind_eq_ok.1 h
    obtain rfl := ExceptRules.pure_eq_ok.1 h
    exact fieldOf_set_of_ne (by decide)

theorem succeeds_bindPersist_iff {d : Dict String Yaml} :
    Succeeds (bindPersist topo node vd d) ↔ (needsPersistBind vd.image = true →
      ∃ l, (fieldOf d "binds").elements = .ok l ∧ TextsUntil ":/persist" l) := by
  unfold bindPersist
  split
  · rename_i h
    rw [forall_prop_of_true h]
    constructor
    · rintro ⟨_, hok⟩
      obtain ⟨l, hl, hok⟩ := ExceptRules.bind_eq_ok.1 hok
      obtain ⟨b, hb, -⟩ := ExceptRules.bind_eq_ok.1 hok
      exact ⟨l, hl, succeeds_anyEndsWith_iff.1 ⟨b, hb⟩⟩
    · rintro ⟨l, hl, htexts⟩
      refine .bind ⟨l, hl⟩ fun l' hl' => .bind ?_ fun _ _ => .pure _
      obtain rfl := Except.ok.inj (hl.symm.trans hl')
      exact succeeds_anyEndsWith_iff.2 htexts
  · rename_i h
    exact iff_of_true (.pure _) fun h' => absurd h' h

/-- The three steps that add to the lists of a node. -/
theorem succeeds_lists_iff {d : Dict String Yaml} (hbinds : fieldOf d "binds" = fieldOf vd.extra "binds")
    (hports : fieldOf d "ports" = fieldOf vd.extra "ports") :
    Succeeds (bindVswitch topo node d >>= fun d => publishPorts (webui.getD node []) d >>= fun d =>
      bindPersist topo node vd d) ↔ ListsFit topo webui node vd := by
  constructor
  · rintro ⟨_, hok⟩
    obtain ⟨d₁, h₁, hok⟩ := ExceptRules.bind_eq_ok.1 hok
    obtain ⟨d₂, h₂, hok⟩ := ExceptRules.bind_eq_ok.1 hok
    obtain ⟨hkept, hchanged⟩ := bindVswitch_eq_ok h₁
    have hswitch := succeeds_bindVswitch_iff.1 ⟨d₁, h₁⟩
    have hpublish := succeeds_publishPorts_iff.1 ⟨d₂, h₂⟩
    have hpersist := succeeds_bindPersist_iff.1 ⟨_, hok⟩
    rw [fieldOf_publishPorts h₂] at hpersist
    rw [hkept, hports] at hpublish
    rw [hbinds] at hswitch hchanged
    refine ⟨fun hneeds => ?_, hpublish, fun hneeds hno l hl => ?_⟩
    · by_cases hsw : hasVswitch topo node = true
      · exact hswitch hsw
      · obtain ⟨l, hl, -⟩ := hpersist (hneeds.resolve_left hsw)
        rw [if_neg hsw] at hchanged
        rw [hchanged] at hl
        exact succeeds_elements_iff.1 ⟨l, hl⟩
    · obtain ⟨l', hl', htexts⟩ := hpersist hneeds
      rw [if_neg (Bool.not_eq_true _ ▸ hno)] at hchanged
      rw [hchanged, hl] at hl'
      exact Except.ok.inj hl' ▸ htexts
  · intro h
    refine .bind (succeeds_bindVswitch_iff.2 fun hsw => hbinds ▸ h.binds (.inl hsw)) fun d₁ h₁ => ?_
    obtain ⟨hkept, hchanged⟩ := bindVswitch_eq_ok h₁
    refine .bind (succeeds_publishPorts_iff.2 fun hne => hkept ▸ hports ▸ h.ports hne)
      fun d₂ h₂ => succeeds_bindPersist_iff.2 fun hneeds => ?_
    rw [fieldOf_publishPorts h₂]
    by_cases hsw : hasVswitch topo node = true
    · -- The binds are texts by now, so that any of them has an end to look at.
      rw [if_pos hsw] at hchanged
      obtain ⟨l, hl⟩ := hchanged
      exact ⟨_, by rw [hl]; rfl, Yaml.textsUntil_map_str _ l⟩
    · rw [if_neg hsw, hbinds] at hchanged
      obtain ⟨l, hl⟩ := succeeds_elements_iff.2 (h.binds (.inr hneeds))
      exact ⟨l, hchanged ▸ hl, h.texts hneeds (Bool.not_eq_true _ ▸ hsw) l hl⟩

/-- The node of a device can be written if and only if its ports fit and the program can go through
    the lists that it adds to. -/
theorem succeeds_buildNodeDict_iff :
    Succeeds (buildNodeDict topo node webui) ↔ Writable topo webui node := by
  unfold buildNodeDict Writable
  cases hvd : topo.nodes.get? node with
  | none =>
    rw [WarmLinks.nodeOf, hvd]
    exact ⟨fun ⟨_, h⟩ => (by cases h), fun ⟨_, h, _⟩ => (by cases h)⟩
  | some vd =>
    have hiff : (∃ vd', some vd = some vd' ∧ PortsFit topo node vd' ∧ ListsFit topo webui node vd') ↔
        PortsFit topo node vd ∧ ListsFit topo webui node vd := by
      simp
    rw [hiff, nodeOf_eq_ok.2 hvd, ← succeeds_capacityForNode_iff hvd]
    exact Succeeds.bind_iff (x := WarmLinks.capacityForNode topo node) fun capacity _ =>
      succeeds_lists_iff (fieldOf_baseNode (by decide)) (fieldOf_baseNode (by decide))

/-! ## The files of a plan -/

theorem succeeds_microHostEndpoints (h : EndsKnown topo plan) :
    Succeeds (microHostEndpoints topo plan) := by
  obtain ⟨links, hlinks⟩ := succeeds_buildRuntimeLinks h
  exact ⟨_, ExceptRules.map_eq_ok.2 ⟨_, endpointEntries_eq hlinks, rfl⟩⟩

theorem succeeds_buildMicroClabDict_iff {host : String} {names : Dict EndpointKey String} :
    Succeeds (buildMicroClabDict topo plan host node names webui) ↔ Writable topo webui node := by
  rw [← succeeds_buildNodeDict_iff]
  constructor
  · rintro ⟨_, hok⟩
    obtain ⟨d, hd, -⟩ := ExceptRules.bind_eq_ok.1 hok
    exact ⟨d, hd⟩
  · intro h
    obtain ⟨vd, hvd, hfit, -⟩ := succeeds_buildNodeDict_iff.1 h
    exact h.bind fun _ _ => ((succeeds_capacityForNode_iff hvd).2 hfit).bind fun _ _ => .pure _

/-- The files of a plan are written if and only if that of every device on a host can be. -/
theorem succeeds_generateMicroTopologyFiles_iff (hends : EndsKnown topo plan) :
    Succeeds (generateMicroTopologyFiles topo plan webui) ↔
      ∀ host node, Scheduled plan host node → Writable topo webui node := by
  constructor
  · rintro ⟨_, hok⟩ host node ⟨a, ha, hnode⟩
    obtain ⟨names, -, hok⟩ := ExceptRules.bind_eq_ok.1 hok
    obtain ⟨pairs, hpairs, -⟩ := ExceptRules.bind_eq_ok.1 hok
    have hactive : (host, a) ∈ plan.assignments.items.filter fun p => p.2.vdNames ≠ [] :=
      List.mem_filter.2 ⟨Dict.get?_eq_some_iff.1 ha, decide_eq_true (List.ne_nil_of_mem hnode)⟩
    obtain ⟨_, hhost⟩ := Succeeds.mapM_iff.1 ⟨pairs, hpairs⟩ _ hactive
    obtain ⟨_, hclabs, -⟩ := ExceptRules.bind_eq_ok.1 hhost
    obtain ⟨clabs, hclabs, -⟩ := ExceptRules.bind_eq_ok.1 hclabs
    obtain ⟨_, hfile⟩ := Succeeds.mapM_iff.1 ⟨clabs, hclabs⟩ node hnode
    obtain ⟨c, hc, -⟩ := ExceptRules.bind_eq_ok.1 hfile
    exact succeeds_buildMicroClabDict_iff.1 ⟨c, hc⟩
  · intro h
    refine (succeeds_microHostEndpoints hends).bind fun names _ => ?_
    refine (Succeeds.mapM_iff.2 ?_).bind fun _ _ => .pure _
    rintro ⟨host, a⟩ ha
    have hget := Dict.get?_eq_some_iff.2 (List.mem_filter.1 ha).1
    refine .bind (.bind (Succeeds.mapM_iff.2 fun node hnode => ?_) fun _ _ => .pure _)
      fun _ _ => .pure _
    exact (succeeds_buildMicroClabDict_iff.2 (h host node ⟨a, hget, hnode⟩)).bind fun _ _ => .pure _

end Generator

end Dnlab
