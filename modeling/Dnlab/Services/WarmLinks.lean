import Dnlab.Models.State
import Dnlab.Services.Remote

/-!
# Warm links

The devices whose image can take a link while it runs, after
`services/warm_links.py`: their ports exist on the host from the start, under
names that do not depend on the links. A device has that capability when its
image or kind has a profile and the label of its image allows it.
-/

namespace Dnlab.WarmLinks

/-- The environment variable that records what the label of the image says. -/
def imageStatusEnv : String := "DNLAB_WARM_LINKS_IMAGE_STATUS"

/-- The environment variable that records the digest of the base image. -/
def baseDigestEnv : String := "DNLAB_WARM_LINKS_BASE_DIGEST"

/-- The ports of a kind of device. -/
structure Profile where
  defaultPorts : ℕ
  maxPorts : ℕ
  vmIndex : ℕ
  deriving DecidableEq

/-- The profiles, by their key. -/
def profiles : List (String × Profile) :=
  [("dnlab_frr", ⟨8, 8, 0⟩), ("openwrt", ⟨8, 64, 0⟩), ("dnlab_opnsense", ⟨8, 64, 0⟩),
    ("nvidia_cumulusvx", ⟨16, 64, 0⟩), ("mikrotik_ros", ⟨16, 31, 0⟩), ("cisco_vios", ⟨15, 15, 0⟩),
    ("juniper_vjunosrouter", ⟨16, 97, 0⟩), ("juniper_vjunosswitch", ⟨16, 57, 0⟩),
    ("juniper_vjunosevolved", ⟨16, 17, 0⟩), ("cisco_n9kv", ⟨16, 129, 0⟩),
    ("cisco_nxos", ⟨16, 32, 0⟩), ("cisco_cat9kv", ⟨9, 9, 0⟩), ("cisco_c9800cl", ⟨3, 3, 0⟩),
    ("cisco_xrv9k", ⟨16, 128, 0⟩)]

/-- The key of a profile and a part of the image names that have it. -/
def imageProfilePatterns : List (String × String) :=
  [("dnlab_frr", "dnlab_frr"), ("dnlab_opnsense", "dnlab_opnsense"),
    ("nvidia_cumulusvx", "nvidia_cumulusvx"), ("mikrotik_ros", "mikrotik"),
    ("juniper_vjunosrouter", "vjunos-router"), ("juniper_vjunosrouter", "vjunosrouter"),
    ("juniper_vjunosswitch", "vjunos-switch"), ("juniper_vjunosswitch", "vjunosswitch"),
    ("juniper_vjunosevolved", "vjunosevolved"), ("cisco_c9800cl", "c9800"),
    ("cisco_cat9kv", "cat9kv"), ("cisco_n9kv", "n9kv"), ("cisco_nxos", "nxos"),
    ("cisco_xrv9k", "xrv9k"), ("cisco_vios", "vios"), ("openwrt", "openwrt")]

/-- The profile key of a device, by its image or else by its kind. -/
def profileKey (node : VDNode) : Option String :=
  let image := Text.lower node.image
  match imageProfilePatterns.find? fun p => Text.contains image p.2 with
  | some (key, _) => some key
  | none => if (profiles.lookup node.kind).isSome then some node.kind else none

/-- The profile of a device. -/
def profileForNode (node : VDNode) : Option Profile := (profileKey node).bind fun key => profiles.lookup key

/-- What the label of the image of a device says. -/
def imageStatus (node : VDNode) : String := Text.lower (node.env.getD imageStatusEnv "")

/-- Whether a device takes links while it runs. -/
def isEnabled (node : VDNode) : Bool :=
  match profileForNode node with
  | none => false
  | some _ => imageStatus node = "validated" || imageStatus node = "experimental"

/-- The capability of a device as recorded in its runtime state. -/
def statusForNode (node : VDNode) : HotLinksStatus :=
  match profileForNode node with
  | none => .unsupported
  | some _ =>
    if imageStatus node = "validated" then .validated
    else if imageStatus node = "missing" then .missing
    else if imageStatus node = "unsupported" then .unsupported
    else if isEnabled node then .experimentalEnabled
    else .experimental

/-- The environment of a device with the capability that the labels of its image declare. -/
def applyImageLabels (env : Dict String String) (labels : Dict String String) :
    Dict String String :=
  let capabilities :=
    (Text.split ',' (labels.getD "org.dnlab.capabilities" "")).map Text.stripSpaces
  let label := Text.lower (labels.getD "org.dnlab.warm-links.status" "experimental")
  let status :=
    if "warm-links-v1" ∈ capabilities ∧ (label = "validated" ∨ label = "experimental") then label
    else "unsupported"
  let env := env.set imageStatusEnv status
  let digest := labels.getD "org.opencontainers.image.base.digest" ""
  if digest = "" then env.erase baseDigestEnv
  else env.set baseDigestEnv (Text.afterLast '@' digest)

/-- The environment of a device after its image has been inspected on the host it is to run on;
    `parse` reads the labels from the output of the command. -/
def inspectImageOnHost {ρ : Type} (B : Backend ρ) (parse : String → Dict String String)
    (clients : Clients) (host : String) (node : VDNode) :
    Prog (Remote ρ) Err (Dict String String) := do
  let r ← clients.runNoCheck B host (.imageLabels node.image)
  if r.rc ≠ 0 then pure ((node.env.set imageStatusEnv "missing").erase baseDigestEnv)
  else pure (applyImageLabels node.env (parse r.out))

/-- `N` for an interface `ethN` with `N` from 1 on, and `0` for any other. -/
def ifaceIndex (iface : String) : ℕ :=
  match iface.toList with
  | 'e' :: 't' :: 'h' :: c :: l =>
    if c.isDigit ∧ c ≠ '0' ∧ l.all Char.isDigit then Nat.ofDigitChars 10 (c :: l) 0 else 0
  | _ => 0

/-- The highest port of a device that a link of the topology uses. -/
def highestUsedPort (topo : DistributedTopology) (nodeName : String) : ℕ :=
  let ofLink (l : Link) : List ℕ :=
    (if l.source = nodeName then [ifaceIndex l.sourceIface] else []) ++
      (if l.target = nodeName then [ifaceIndex l.targetIface] else [])
  let ofNet (l : RealNetLink) : List ℕ := if l.node = nodeName then [ifaceIndex l.iface] else []
  (topo.links.flatMap ofLink ++ topo.realNetLinks.flatMap ofNet).foldl max 0

/-- `topo.nodes[name]`. -/
def nodeOf (topo : DistributedTopology) (name : String) : Except Err VDNode :=
  match topo.nodes.get? name with
  | some node => .ok node
  | none => .error ⟨.key, "'" ++ name ++ "'"⟩

/-- How many warm ports a device with a profile asks for, if the profile has as many. -/
def requestedCapacity (topo : DistributedTopology) (nodeName : String) (node : VDNode)
    (profile : Profile) : Except Err ℕ :=
  let setting := node.env.getD "DNLAB_WARM_PORTS" ""
  match if setting = "" then some 0 else Text.toInt? setting with
  | none => .error ⟨.value, nodeName ++ ": DNLAB_WARM_PORTS must be an integer"⟩
  | some requested =>
    let capacity := max (max profile.defaultPorts (highestUsedPort topo nodeName)) requested.toNat
    if capacity > profile.maxPorts then
      .error ⟨.value, nodeName ++ ": warm-port capacity " ++ toString capacity ++ " exceeds " ++
        toString profile.maxPorts ++ " for " ++ (profileKey node).getD ""⟩
    else .ok capacity

/-- How many warm ports a device is given. -/
def capacityForNode (topo : DistributedTopology) (nodeName : String) : Except Err ℕ :=
  match nodeOf topo nodeName with
  | .error e => .error e
  | .ok node =>
    match profileForNode node with
    | none => .ok 0
    | some profile =>
      if isEnabled node then requestedCapacity topo nodeName node profile else .ok 0

theorem nodeOf_eq_ok {topo : DistributedTopology} {name : String} {node : VDNode} :
    nodeOf topo name = .ok node ↔ topo.nodes.get? name = some node := by
  unfold nodeOf
  split <;> simp_all

/-- Only a device that takes links while it runs has warm ports. -/
theorem isEnabled_of_capacity {topo : DistributedTopology} {name : String} {n : ℕ}
    (h : capacityForNode topo name = .ok n) (hn : n ≠ 0) :
    ∃ node, nodeOf topo name = .ok node ∧ isEnabled node = true := by
  unfold capacityForNode at h
  split at h
  · exact absurd h (by simp)
  · rename_i node hnode
    refine ⟨node, hnode, ?_⟩
    split at h
    · exact absurd (Except.ok.inj h).symm hn
    · split at h
      · rename_i hen
        exact hen
      · exact absurd (Except.ok.inj h).symm hn

end Dnlab.WarmLinks
