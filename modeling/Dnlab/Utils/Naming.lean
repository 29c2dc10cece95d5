import Dnlab.Lib.Dict
import Dnlab.Lib.Hash
import Dnlab.Lib.Text

/-!
# Interface naming

The names of the interfaces, bridges, containers and files of a lab, after
`utils/naming.py`. The kernel limits an interface name to fifteen characters,
and most of these names are cut to that length: two different things may get
the same name, and `ensureUnique` renames the repetitions in one list of names.
-/

namespace Dnlab.Naming

/-- The longest interface name. -/
def maxIfaceLen : ℕ := 15

/-- The longest management network: its bridge is `br-` and the network. -/
def maxMgmtNetLen : ℕ := 12

/-- `(\d+)/…/(\d+)`, `n` groups of digits, joined. -/
def slashedDecimals : (n : ℕ) → List Char → Option (List Char)
  | 0, _ => some []
  | 1, l => (Text.decimals l).map Prod.fst
  | n + 2, l =>
    match Text.decimals l with
    | some (ds, '/' :: rest) => (slashedDecimals (n + 1) rest).map (ds ++ ·)
    | _ => none

/-- The text after the first of the `words` that `l` starts with. -/
def afterAny (words : List String) (l : List Char) : Option (List Char) :=
  words.findSome? fun w => if w.toList.isPrefixOf l then some (l.drop w.toList.length) else none

/-- One of the vendor patterns of `shortenIface`: a word, groups of digits, and what the word
    is abbreviated to. -/
def vendorForm (words : List String) (groups : ℕ) (short : String) (l : List Char) :
    Option String :=
  (afterAny words l).bind fun rest =>
    (slashedDecimals groups rest).map fun ds => short ++ .ofList ds

/-- Shorten a vendor interface name to a compact form. -/
def shortenIface (iface : String) : String :=
  let l := iface.toList
  ((((((vendorForm ["eth"] 1 "e" l).or
    (vendorForm ["ge-"] 3 "g" l)).or
    (vendorForm ["xe-"] 3 "x" l)).or
    (vendorForm ["Ethernet", "ethernet"] 2 "E" l)).or
    (vendorForm ["GigabitEthernet", "Gigabitethernet", "gigabitEthernet", "gigabitethernet"] 4
      "G" l))).getD (Text.first 6 (Text.keep Text.isAlnum iface))

/-- The first digits of the SHA-1 digest of a text. -/
def shortHash (value : String) (length : ℕ) : String := Text.first length (Hash.hexdigest value)

/-- The first four letters and digits of a node name. -/
def nodeShort (nodeName : String) : String :=
  Text.orElse (Text.first 4 (Text.keep Text.isAlnum nodeName)) "n"

/-- The short form of an interface, cut to `n` characters. -/
def ifaceShort (n : ℕ) (iface : String) : String :=
  Text.orElse (Text.first n (shortenIface iface)) "if"

/-- `vx<lab_hash>-<node_short>-<iface_short>`. -/
def vxlanHostIface (labName nodeName iface : String) : String :=
  Text.first maxIfaceLen
    ("vx" ++ shortHash labName 3 ++ "-" ++ nodeShort nodeName ++ "-" ++ ifaceShort 3 iface)

/-- `vx-<lab>-mgmt`. -/
def mgmtVxlanIface (labName : String) : String := "vx-" ++ Text.first 7 labName ++ "-mgmt"

/-- The characters a sanitized lab name may have. -/
def isLabChar (c : Char) : Bool := c.isLower || c.isDigit || c == '-'

/-- A lowercase, bridge-safe form of a lab name: any run of other characters becomes a dash, runs
    of dashes collapse, and dashes at the ends go. -/
def sanitizeLabName (labName : String) : String :=
  let l := Text.replaceRuns (!isLabChar ·) '-' false (Text.lower labName).toList
  Text.orElse (.ofList (Text.strip '-' (Text.replaceRuns (· == '-') '-' false l))) "lab"

/-- Docker network name for the management plane. -/
def mgmtNetworkName (labName : String) : String :=
  Text.first maxMgmtNetLen (sanitizeLabName labName)

/-- Management bridge name. -/
def mgmtBridgeName (labName : String) : String := "br-" ++ mgmtNetworkName labName

/-- VRF device name. -/
def vrfName (labName : String) : String := Text.first maxIfaceLen ("vrf-" ++ Text.first 11 labName)

/-- Jump host container name. -/
def jumphostContainerName (labName : String) : String := "dnlab-" ++ labName ++ "-jumphost"

/-- Runtime relay container name, one per host. -/
def runtimeRelayContainerName (labName : String) : String :=
  "dnlab-" ++ labName ++ "-runtime-relay"

/-- The container name of a node of a shared topology: `clab-<lab>-<vd>`. -/
def vdContainerName (labName vdName : String) : String := "clab-" ++ labName ++ "-" ++ vdName

/-- The project name of a single-node topology. -/
def microTopologyName (labName vdName : String) : String := "dnlab-" ++ labName ++ "-" ++ vdName

/-- The path of a single-node topology file on its host. -/
def microTopologyFile (labName vdName hostName : String) : String :=
  "/tmp/" ++ microTopologyName labName vdName ++ "-" ++ hostName ++ ".clab.yml"

/-- The container name of a single-node topology. -/
def microVdContainerName (labName vdName : String) : String :=
  "clab-" ++ microTopologyName labName vdName ++ "-" ++ vdName

/-- The project name of the management anchor of a host. -/
def mgmtAnchorTopologyName (labName hostName : String) : String :=
  "dnlab-" ++ labName ++ "-mgmt-" ++ hostName

/-- The path of the topology file of a management anchor. -/
def mgmtAnchorTopologyFile (labName hostName : String) : String :=
  "/tmp/" ++ mgmtAnchorTopologyName labName hostName ++ ".clab.yml"

/-- The container name of a management anchor. -/
def mgmtAnchorContainerName (labName hostName : String) : String :=
  "clab-" ++ mgmtAnchorTopologyName labName hostName ++ "-mgmt-anchor"

/-- Host-side endpoint name for per-node runtime links. -/
def runtimeHostEndpoint (_labName nodeName iface linkId : String) : String :=
  let lid := Text.orElse (Text.last 3 (Text.keep Text.isAlnum linkId)) "0"
  Text.first maxIfaceLen ("rt-" ++ nodeShort nodeName ++ "-" ++ ifaceShort 4 iface ++ "-" ++ lid)

/-- Stable host endpoint for a warm port, independent of the link. -/
def runtimePortEndpoint (labName nodeName iface : String) : String :=
  Text.first maxIfaceLen
    ("wp-" ++ ifaceShort 4 iface ++ "-" ++ shortHash (labName ++ ":" ++ nodeName ++ ":" ++ iface) 6)

/-- A sanitized name without its dashes, cut to five characters. -/
def sanitizedShort (name : String) : String :=
  Text.first 5 (Text.keep (· != '-') (sanitizeLabName name))

/-- The bridge of a real network of a lab. -/
def realnetBridgeName (labName realNet : String) : String :=
  Text.first maxIfaceLen ("br" ++ Text.first 5 (sanitizeLabName labName) ++ sanitizedShort realNet)

/-- The VXLAN interface of the fabric of a real network on a host. -/
def realnetVxlanIface (labName realNet : String) : String :=
  Text.first maxIfaceLen ("vx" ++ sanitizedShort labName ++ sanitizedShort realNet)

/-- Host-side veth name attached to the bridge of a real network. -/
def realnetBridgeIface (nodeName iface : String) : String :=
  Text.first maxIfaceLen ("rn-" ++ Text.first 4 nodeName ++ "-" ++ shortenIface iface)

/-- The router container of a real network. -/
def realnetRouterContainerName (labName realNet : String) : String :=
  "dnlab-" ++ labName ++ "-" ++ realNet ++ "-realnet"

/-- The name of the `count`-th repetition of `name`. -/
def suffixed (name : String) (count : ℕ) : String :=
  Text.first maxIfaceLen (Text.first (maxIfaceLen - 1) name ++ toString count)

/-- The loop of `ensureUnique`, with the repetitions of each name seen so far. -/
def ensureUniqueFrom (seen : Dict String ℕ) : List String → List String
  | [] => []
  | name :: names =>
    match seen.get? name with
    | some n => suffixed name (n + 1) :: ensureUniqueFrom (seen.set name (n + 1)) names
    | none => name :: ensureUniqueFrom (seen.set name 0) names

/-- Ensure all names are unique: append a numeric suffix on collision. -/
def ensureUnique (names : List String) : List String := ensureUniqueFrom ∅ names

/-! ## Unique names -/

/-- How often a name has been seen. -/
def timesSeen (seen : Dict String ℕ) (name : String) : ℕ := ((seen.get? name).map (· + 1)).getD 0

/-- The name in place of `name` after it has been seen `count` times. -/
def nthName (name : String) (count : ℕ) : String := if count = 0 then name else suffixed name count

theorem timesSeen_set (seen : Dict String ℕ) (name name' : String) (n : ℕ) :
    timesSeen (seen.set name n) name' = if name' = name then n + 1 else timesSeen seen name' := by
  unfold timesSeen
  rw [Dict.get?_set]
  split <;> rfl

theorem ensureUniqueFrom_cons (seen : Dict String ℕ) (name : String) (names : List String) :
    ensureUniqueFrom seen (name :: names) = nthName name (timesSeen seen name) ::
      ensureUniqueFrom (seen.set name (timesSeen seen name)) names := by
  rw [ensureUniqueFrom]
  unfold timesSeen nthName
  cases seen.get? name <;> rfl

theorem length_ensureUniqueFrom (seen : Dict String ℕ) (names : List String) :
    (ensureUniqueFrom seen names).length = names.length := by
  induction names generalizing seen with
  | nil => rfl
  | cons name names ih =>
    rw [ensureUniqueFrom_cons, List.length_cons, List.length_cons, ih]

@[simp] theorem length_ensureUnique (names : List String) :
    (ensureUnique names).length = names.length :=
  length_ensureUniqueFrom _ names

theorem getElem?_ensureUniqueFrom (seen : Dict String ℕ) (names : List String) (j : ℕ) :
    (ensureUniqueFrom seen names)[j]? =
      (names[j]?).map fun n => nthName n (timesSeen seen n + (names.take j).count n) := by
  induction names generalizing seen j with
  | nil => rfl
  | cons name names ih =>
    rw [ensureUniqueFrom_cons]
    cases j with
    | zero => simp
    | succ j =>
      rw [List.getElem?_cons_succ, ih, List.getElem?_cons_succ, List.take_succ_cons]
      refine Option.map_congr fun n _ => ?_
      rw [timesSeen_set, List.count_cons]
      by_cases h : n = name
      · subst h
        simp only [if_true, beq_self_eq_true]
        congr 1
        omega
      · have h' : (name == n) = false := beq_eq_false_iff_ne.2 fun h' => h h'.symm
        rw [if_neg h, h', if_neg Bool.false_ne_true, Nat.add_zero]

/-- The `j`-th name becomes the repetition of as many as are before it. -/
theorem getElem?_ensureUnique (names : List String) (j : ℕ) :
    (ensureUnique names)[j]? =
      (names[j]?).map fun n => nthName n ((names.take j).count n) := by
  rw [ensureUnique, getElem?_ensureUniqueFrom]
  simp [timesSeen]

theorem take_append_eq_self_iff {l : List Char} {d : Char} {ds : List Char} :
    (l.take 14 ++ d :: ds).take 15 = l ↔ l.length = 15 ∧ l.getLast? = some d := by
  rcases Nat.lt_or_ge l.length 15 with hlt | hge
  · -- The suffix of a shorter name is added to it.
    refine ⟨fun h => ?_, fun h => absurd h.1 hlt.ne⟩
    have hlen := congrArg List.length h
    simp only [List.length_take, List.length_append, List.length_cons] at hlen
    omega
  · have h14 : (l.take 14).length = 14 := by
      rw [List.length_take]
      omega
    have htake : (l.take 14 ++ d :: ds).take 15 = l.take 14 ++ [d] := by
      rw [List.take_append, h14, List.take_of_length_le (by omega)]
      rfl
    rw [htake]
    constructor
    · intro h
      refine ⟨?_, ?_⟩
      · rw [← h, List.length_append, h14]
        rfl
      · rw [← h, List.getLast?_append]
        rfl
    · rintro ⟨h15, hlast⟩
      obtain ⟨m, rfl⟩ := List.getLast?_eq_some_iff.1 hlast
      have hm : m.length = 14 := by
        rw [List.length_append] at h15
        exact Nat.succ.inj h15
      rw [List.take_append_of_le_length hm.ge, List.take_of_length_le hm.le]

/-- A repetition keeps its name only if that has fifteen characters and ends with the digit that
    would replace its end. -/
theorem suffixed_eq_self_iff {name : String} {count : ℕ} :
    suffixed name count = name ↔
      name.toList.length = 15 ∧ name.toList.getLast? = (toString count).toList.head? := by
  have hne : (toString count).toList ≠ [] := fun h =>
    Text.toString_ne_empty count (String.toList_inj.1 h)
  obtain ⟨d, ds, hd⟩ := List.exists_cons_of_ne_nil hne
  unfold suffixed maxIfaceLen
  rw [← String.toList_inj, Text.toList_first, String.toList_append, Text.toList_first, hd]
  exact take_append_eq_self_iff

/-- A name stays as it is after the names `before`: it is not one of them, or it has fifteen
    characters and ends with the first digit of the number of its occurrences among them. -/
def KeptAfter (before : List String) (name : String) : Prop :=
  name ∉ before ∨ (name.toList.length = 15 ∧
    name.toList.getLast? = (toString (before.count name)).toList.head?)

theorem nthName_eq_self_iff {before : List String} {name : String} :
    nthName name (before.count name) = name ↔ KeptAfter before name := by
  unfold nthName KeptAfter
  by_cases h : before.count name = 0
  · simp [h, List.count_eq_zero.1 h]
  · have hm : name ∈ before := List.count_pos_iff.1 (Nat.pos_of_ne_zero h)
    rw [if_neg h, suffixed_eq_self_iff]
    simp [hm]

example : shortenIface "GigabitEthernet0/0/0/1" = "G0001" := by decide
example : realnetBridgeName "My Lab!" "wan-1" = "brmy-lawan1" := by decide

end Dnlab.Naming
