import Dnlab.Utils.Naming
import Mathlib.Data.List.TakeWhile

/-!
# What a name tells

When two of the cut names of the dataplane are equal, in terms of the parts that
they are made of. A name also tells what it was made for by how it starts: the
end of a link within a host (`rt-`), of one between hosts (`vx` and a digit of a
digest), of an attachment to a real network (`rn-`), the bridge of a link
(`br-`) or that of a real network (`br` and no dash).
-/

namespace Dnlab.Naming

/-! ## The characters of the parts -/

theorem dash_notMem_keep_isAlnum (s : String) : '-' ∉ (Text.keep Text.isAlnum s).toList := by
  simp [Text.keep, Text.isAlnum]

theorem dash_notMem_nodeShort (node : String) : '-' ∉ (nodeShort node).toList := by
  unfold nodeShort Text.orElse
  split
  · decide
  · rw [Text.toList_first]
    exact fun h => dash_notMem_keep_isAlnum node (List.mem_of_mem_take h)

theorem length_nodeShort_le (node : String) : (nodeShort node).toList.length ≤ 4 := by
  unfold nodeShort Text.orElse
  split
  · decide
  · exact Text.length_first_le 4 _

theorem length_ifaceShort_le {n : ℕ} (hn : 2 ≤ n) (iface : String) :
    (ifaceShort n iface).toList.length ≤ n := by
  unfold ifaceShort Text.orElse
  split
  · exact hn
  · exact Text.length_first_le n _

theorem isDecimal_of_mem_decimals {l ds rest : List Char} (h : Text.decimals l = some (ds, rest)) :
    ∀ c ∈ ds, Text.isDecimal c = true := by
  unfold Text.decimals at h
  split at h
  · simp at h
  · rename_i ds' hds
    obtain ⟨rfl, -⟩ := Prod.mk.inj (Option.some.inj h)
    exact fun c hc => List.mem_takeWhile_imp hc

theorem isDecimal_of_mem_slashedDecimals {n : ℕ} {l ds : List Char}
    (h : slashedDecimals n l = some ds) : ∀ c ∈ ds, Text.isDecimal c = true := by
  induction n using Nat.twoStepInduction generalizing l ds with
  | zero =>
    obtain rfl := Option.some.inj h
    simp
  | one =>
    obtain ⟨⟨ds', rest⟩, h', rfl⟩ := Option.map_eq_some_iff.1 h
    exact isDecimal_of_mem_decimals h'
  | more n _ ih =>
    rw [slashedDecimals] at h
    split at h
    · rename_i ds' rest hds
      obtain ⟨ds'', h', rfl⟩ := Option.map_eq_some_iff.1 h
      intro c hc
      rcases List.mem_append.1 hc with hc | hc
      · exact isDecimal_of_mem_decimals hds c hc
      · exact ih h' c hc
    · simp at h

/-- A vendor form has no dash: its abbreviation has none and a dash is no digit. -/
theorem dash_notMem_vendorForm {words : List String} {groups : ℕ} {short form : String}
    {l : List Char} (hs : '-' ∉ short.toList) (h : vendorForm words groups short l = some form) :
    '-' ∉ form.toList := by
  obtain ⟨rest, -, h⟩ := Option.bind_eq_some_iff.1 h
  obtain ⟨ds, hds, rfl⟩ := Option.map_eq_some_iff.1 h
  rw [String.toList_append, String.toList_ofList, List.mem_append]
  rintro (h | h)
  · exact hs h
  · exact absurd (isDecimal_of_mem_slashedDecimals hds _ h) (by decide)

theorem dash_notMem_shortenIface (iface : String) : '-' ∉ (shortenIface iface).toList := by
  have key : ∀ form : Option String, (∀ f, form = some f → '-' ∉ f.toList) →
      '-' ∉ (form.getD (Text.first 6 (Text.keep Text.isAlnum iface))).toList := by
    rintro (_ | f) hf
    · rw [Option.getD_none, Text.toList_first]
      exact fun h => dash_notMem_keep_isAlnum iface (List.mem_of_mem_take h)
    · exact hf f rfl
  refine key _ fun f hv => ?_
  simp only [Option.or_eq_some_iff] at hv
  rcases hv with (((hv | ⟨-, hv⟩) | ⟨-, hv⟩) | ⟨-, hv⟩) | ⟨-, hv⟩ <;>
    exact dash_notMem_vendorForm (by decide) hv

theorem dash_notMem_ifaceShort (n : ℕ) (iface : String) : '-' ∉ (ifaceShort n iface).toList := by
  unfold ifaceShort Text.orElse
  split
  · decide
  · rw [Text.toList_first]
    exact fun h => dash_notMem_shortenIface iface (List.mem_of_mem_take h)

/-! ## Equal names -/

/-- What is left for the last part of a name that starts with `p`. -/
def room (p : String) : ℕ := maxIfaceLen - p.toList.length

/-- The digits of a link id that its names show. -/
def lidShort (linkId : String) : String :=
  Text.orElse (Text.last 3 (Text.keep Text.isAlnum linkId)) "0"

/-- The name of an end of a link within a host, up to the link. -/
def hostEndpointStart (node iface : String) : String :=
  "rt-" ++ nodeShort node ++ "-" ++ ifaceShort 4 iface ++ "-"

theorem runtimeHostEndpoint_eq (lab node iface lid : String) :
    runtimeHostEndpoint lab node iface lid = hostEndpointStart node iface ++
      Text.first (room (hostEndpointStart node iface)) (lidShort lid) := by
  refine Text.first_append ?_ _
  have hn := length_nodeShort_le node
  have hi := length_ifaceShort_le (n := 4) (by decide) iface
  simp only [String.toList_append, List.length_append, maxIfaceLen,
    show "rt-".toList.length = 3 from rfl, show "-".toList.length = 1 from rfl]
  omega

/-- Two ends of links within hosts have the same name if they show the same node, interface and
    link. -/
theorem runtimeHostEndpoint_inj {lab lab' node node' iface iface' lid lid' : String} :
    runtimeHostEndpoint lab node iface lid = runtimeHostEndpoint lab' node' iface' lid' ↔
      nodeShort node = nodeShort node' ∧ ifaceShort 4 iface = ifaceShort 4 iface' ∧
        Text.first (room (hostEndpointStart node iface)) (lidShort lid) =
          Text.first (room (hostEndpointStart node iface)) (lidShort lid') := by
  rw [runtimeHostEndpoint_eq, runtimeHostEndpoint_eq]
  constructor
  · intro h
    have hl := congrArg String.toList h
    simp only [hostEndpointStart, String.toList_append, List.append_assoc,
      show "-".toList = ['-'] from rfl, List.singleton_append, List.append_cancel_left_eq] at hl
    obtain ⟨hn, hl⟩ := (Text.append_sep_inj (dash_notMem_nodeShort _)
      (dash_notMem_nodeShort _)).1 hl
    obtain ⟨hi, -⟩ := (Text.append_sep_inj (dash_notMem_ifaceShort _ _)
      (dash_notMem_ifaceShort _ _)).1 hl
    rw [String.toList_inj] at hn hi
    have hstart : hostEndpointStart node iface = hostEndpointStart node' iface' := by
      rw [hostEndpointStart, hostEndpointStart, hn, hi]
    rw [← hstart] at h
    exact ⟨hn, hi, (Text.append_left_inj _ _ _).1 h⟩
  · rintro ⟨hn, hi, hl⟩
    have hstart : hostEndpointStart node iface = hostEndpointStart node' iface' := by
      rw [hostEndpointStart, hostEndpointStart, hn, hi]
    rw [← hstart, hl]

/-- The name of an end of a link between hosts, up to the interface. -/
def vxlanIfaceStart (lab node : String) : String :=
  "vx" ++ shortHash lab 3 ++ "-" ++ nodeShort node ++ "-"

/-- What a repetition adds to a name. -/
def countText (count : ℕ) : String := if count = 0 then "" else toString count

theorem length_shortHash {value : String} {n : ℕ} (hn : n ≤ 40) :
    (shortHash value n).toList.length = n := by
  rw [shortHash, Text.toList_first, List.length_take, Hash.length_hexdigest]
  exact Nat.min_eq_left hn

theorem length_vxlanIfaceStart_le (lab node : String) :
    (vxlanIfaceStart lab node).toList.length ≤ 11 := by
  have hh : (shortHash lab 3).toList.length = 3 := length_shortHash (by decide)
  have hn := length_nodeShort_le node
  simp only [vxlanIfaceStart, String.toList_append, List.length_append,
    show "vx".toList.length = 2 from rfl, show "-".toList.length = 1 from rfl]
  omega

/-- The `count`-th repetition of the name of an end of a link between hosts. -/
theorem nthName_vxlanHostIface (lab node iface : String) (count : ℕ) :
    nthName (vxlanHostIface lab node iface) count = vxlanIfaceStart lab node ++
      Text.first (room (vxlanIfaceStart lab node)) (ifaceShort 3 iface ++ countText count) := by
  have hs := length_vxlanIfaceStart_le lab node
  have hi := length_ifaceShort_le (n := 3) (by decide) iface
  have hplain : vxlanHostIface lab node iface = vxlanIfaceStart lab node ++ ifaceShort 3 iface := by
    refine Text.first_of_length_le ?_
    rw [show "vx" ++ shortHash lab 3 ++ "-" ++ nodeShort node ++ "-" ++ ifaceShort 3 iface =
      vxlanIfaceStart lab node ++ ifaceShort 3 iface from rfl, String.toList_append,
      List.length_append, maxIfaceLen]
    omega
  have hlen : (vxlanIfaceStart lab node ++ ifaceShort 3 iface).toList.length ≤ 14 := by
    rw [String.toList_append, List.length_append]
    omega
  unfold nthName countText
  by_cases h : count = 0
  · rw [if_pos h, if_pos h, hplain, String.append_empty, Text.first_of_length_le]
    rw [room, maxIfaceLen]
    omega
  · rw [if_neg h, if_neg h, suffixed, hplain,
      Text.first_of_length_le (n := maxIfaceLen - 1) hlen, String.append_assoc,
      Text.first_append (by rw [maxIfaceLen]; omega)]
    rfl

/-- Two ends of links between hosts have the same name if the labs have the same short digest and
    the ends show the same node, interface and number of repetitions. -/
theorem nthName_vxlanHostIface_inj {lab lab' node node' iface iface' : String} {count count' : ℕ} :
    nthName (vxlanHostIface lab node iface) count =
        nthName (vxlanHostIface lab' node' iface') count' ↔
      shortHash lab 3 = shortHash lab' 3 ∧ nodeShort node = nodeShort node' ∧
        Text.first (room (vxlanIfaceStart lab node)) (ifaceShort 3 iface ++ countText count) =
          Text.first (room (vxlanIfaceStart lab node)) (ifaceShort 3 iface' ++ countText count') := by
  rw [nthName_vxlanHostIface, nthName_vxlanHostIface]
  constructor
  · intro h
    have hl := congrArg String.toList h
    simp only [vxlanIfaceStart, String.toList_append, List.append_assoc,
      show "-".toList = ['-'] from rfl, List.singleton_append, List.append_cancel_left_eq] at hl
    obtain ⟨hh, hl⟩ := List.append_inj hl (by
      rw [length_shortHash (by decide), length_shortHash (by decide)])
    obtain ⟨hn, -⟩ := (Text.append_sep_inj (dash_notMem_nodeShort _)
      (dash_notMem_nodeShort _)).1 (List.cons.inj hl).2
    rw [String.toList_inj] at hn hh
    have hstart : vxlanIfaceStart lab node = vxlanIfaceStart lab' node' := by
      rw [vxlanIfaceStart, vxlanIfaceStart, hh, hn]
    rw [← hstart] at h
    exact ⟨hh, hn, (Text.append_left_inj _ _ _).1 h⟩
  · rintro ⟨hh, hn, hl⟩
    have hstart : vxlanIfaceStart lab node = vxlanIfaceStart lab' node' := by
      rw [vxlanIfaceStart, vxlanIfaceStart, hh, hn]
    rw [← hstart, hl]

/-- The name of an attachment to a real network, up to the interface. -/
def bridgeIfaceStart (node : String) : String := "rn-" ++ Text.first 4 node ++ "-"

theorem realnetBridgeIface_eq (node iface : String) :
    realnetBridgeIface node iface = bridgeIfaceStart node ++
      Text.first (room (bridgeIfaceStart node)) (shortenIface iface) := by
  refine Text.first_append ?_ _
  have hn := Text.length_first_le 4 node
  simp only [String.toList_append, List.length_append, maxIfaceLen,
    show "rn-".toList.length = 3 from rfl, show "-".toList.length = 1 from rfl]
  omega

/-- Two attachments to real networks have the same name if they show the same node and
    interface. -/
theorem realnetBridgeIface_inj {node node' iface iface' : String} :
    realnetBridgeIface node iface = realnetBridgeIface node' iface' ↔
      Text.first 4 node = Text.first 4 node' ∧
        Text.first (room (bridgeIfaceStart node)) (shortenIface iface) =
          Text.first (room (bridgeIfaceStart node)) (shortenIface iface') := by
  rw [realnetBridgeIface_eq, realnetBridgeIface_eq]
  have hdash : ∀ n iface, '-' ∉ (Text.first n (shortenIface iface)).toList := by
    intro n iface h
    rw [Text.toList_first] at h
    exact dash_notMem_shortenIface iface (List.mem_of_mem_take h)
  constructor
  · intro h
    have hl := congrArg String.toList h
    simp only [bridgeIfaceStart, String.toList_append, List.append_assoc,
      show "-".toList = ['-'] from rfl, List.singleton_append, List.append_cancel_left_eq] at hl
    obtain ⟨hn, -⟩ := (Text.append_sep_inj' (hdash _ _) (hdash _ _)).1 hl
    rw [String.toList_inj] at hn
    have hstart : bridgeIfaceStart node = bridgeIfaceStart node' := by
      rw [bridgeIfaceStart, bridgeIfaceStart, hn]
    rw [← hstart] at h
    exact ⟨hn, (Text.append_left_inj _ _ _).1 h⟩
  · rintro ⟨hn, hl⟩
    have hstart : bridgeIfaceStart node = bridgeIfaceStart node' := by
      rw [bridgeIfaceStart, bridgeIfaceStart, hn]
    rw [← hstart, hl]

/-- The bridges of two real networks have the same name if labs and networks show the same
    letters. -/
theorem realnetBridgeName_inj {lab lab' net net' : String} :
    realnetBridgeName lab net = realnetBridgeName lab' net' ↔
      Text.first 5 (sanitizeLabName lab) ++ sanitizedShort net =
        Text.first 5 (sanitizeLabName lab') ++ sanitizedShort net' := by
  have hplain : ∀ lab net, realnetBridgeName lab net =
      "br" ++ (Text.first 5 (sanitizeLabName lab) ++ sanitizedShort net) := by
    intro lab net
    have hl := Text.length_first_le 5 (sanitizeLabName lab)
    have hn : (sanitizedShort net).toList.length ≤ 5 := Text.length_first_le 5 _
    rw [realnetBridgeName, Text.first_of_length_le, String.append_assoc]
    simp only [String.toList_append, List.length_append, maxIfaceLen,
      show "br".toList.length = 2 from rfl]
    omega
  rw [hplain, hplain, Text.append_left_inj]

/-! ## What a name is of -/

/-- The first two letters of a name. -/
def kind (name : String) : List Char := name.toList.take 2

theorem kind_append {p : String} (h : 2 ≤ p.toList.length) (s : String) :
    kind (p ++ s) = kind p := by
  rw [kind, kind, String.toList_append, List.take_append_of_le_length h]

theorem kind_runtimeHostEndpoint (lab node iface lid : String) :
    kind (runtimeHostEndpoint lab node iface lid) = ['r', 't'] := by
  rw [runtimeHostEndpoint_eq, hostEndpointStart, String.append_assoc, String.append_assoc,
    String.append_assoc, String.append_assoc, kind_append (by decide)]
  decide

theorem kind_nthName_vxlanHostIface (lab node iface : String) (count : ℕ) :
    kind (nthName (vxlanHostIface lab node iface) count) = ['v', 'x'] := by
  rw [nthName_vxlanHostIface, vxlanIfaceStart, String.append_assoc, String.append_assoc,
    String.append_assoc, String.append_assoc, kind_append (by decide)]
  decide

theorem kind_realnetBridgeIface (node iface : String) :
    kind (realnetBridgeIface node iface) = ['r', 'n'] := by
  rw [realnetBridgeIface_eq, bridgeIfaceStart, String.append_assoc, String.append_assoc,
    kind_append (by decide)]
  decide

/-- A stripped text does not start with what it was stripped of. -/
theorem head?_strip_ne (c : Char) (l : List Char) : (Text.strip c l).head? ≠ some c := by
  unfold Text.strip
  have hpre : ((l.dropWhile (· == c)).reverse.dropWhile (· == c)).reverse <+:
      l.dropWhile (· == c) := by
    rw [← List.reverse_suffix, List.reverse_reverse]
    exact List.dropWhile_suffix _
  intro h
  have h' := List.head?_dropWhile_not (· == c) l
  obtain ⟨rest, hrest⟩ := hpre
  generalize ((l.dropWhile (· == c)).reverse.dropWhile (· == c)).reverse = stripped at h hrest
  rw [← hrest] at h'
  rcases stripped with _ | ⟨d, stripped⟩
  · simp at h
  · obtain rfl : d = c := Option.some.inj h
    simp at h'

theorem sanitizeLabName_start (lab : String) :
    ∃ c l, (sanitizeLabName lab).toList = c :: l ∧ c ≠ '-' := by
  unfold sanitizeLabName Text.orElse
  dsimp only
  generalize Text.replaceRuns (· == '-') '-' false _ = l
  split
  · exact ⟨'l', ['a', 'b'], rfl, by decide⟩
  · rename_i hne
    rw [String.toList_ofList]
    have h := head?_strip_ne '-' l
    rcases hs : Text.strip '-' l with _ | ⟨c, rest⟩
    · rw [hs] at hne
      exact absurd rfl hne
    · rw [hs] at h
      exact ⟨c, rest, rfl, fun hc => h (congrArg some hc)⟩

/-- The bridge of a real network has no dash in the third place. -/
theorem realnetBridgeName_start (lab net : String) :
    ∃ c l, (realnetBridgeName lab net).toList = 'b' :: 'r' :: c :: l ∧ c ≠ '-' := by
  obtain ⟨c, l, hl, hc⟩ := sanitizeLabName_start lab
  refine ⟨c, (l.take 4 ++ (sanitizedShort net).toList).take 12, ?_, hc⟩
  unfold realnetBridgeName
  rw [Text.toList_first, String.toList_append, String.toList_append, Text.toList_first, hl]
  rfl

theorem kind_realnetBridgeName (lab net : String) :
    kind (realnetBridgeName lab net) = ['b', 'r'] := by
  obtain ⟨c, l, h, -⟩ := realnetBridgeName_start lab net
  rw [kind, h]
  rfl

end Dnlab.Naming
