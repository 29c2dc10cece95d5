import Dnlab.Services.Generator.Names
import Dnlab.Services.Scheduler.Ends
import Dnlab.Utils.Naming.Unique

/-!
# The ports of a device

Which interfaces are warm ports (`warmPort_iff`), and what the generator reads back from the
links that it has written: `attachedPorts` are the interfaces of these links, and no
host-side name passes for a port (`portName_mem_attachedPorts_iff`).
-/

namespace Dnlab

namespace WarmLinks

open Generator (portName)

/-- The interfaces of a device up to a number of warm ports. -/
def WarmPort (capacity : ℕ) (iface : String) : Prop := ∃ k < capacity, iface = portName (k + 1)

/-- A device takes links while it runs, and an interface is one of those that it numbers. -/
def WarmEnd (topo : DistributedTopology) (node iface : String) : Prop :=
  ∃ vd, topo.nodes.get? node = some vd ∧ isEnabled vd = true ∧ ifaceIndex iface ≠ 0

theorem toList_portName (n : ℕ) : (portName n).toList = 'e' :: 't' :: 'h' :: Nat.toDigits 10 n := by
  rw [portName, String.toList_append, Nat.toString_eq_ofList_toDigits, String.toList_ofList,
    String.toList_ofList]
  rfl

theorem portName_inj {m n : ℕ} : portName m = portName n ↔ m = n := by
  rw [portName, portName, Text.append_left_inj, Text.toString_inj]

/-- A numeral but that of zero does not begin with a zero. -/
theorem head?_toDigits_ne {n : ℕ} (h : n ≠ 0) : (Nat.toDigits 10 n).head? ≠ some '0' := by
  have hdigit : ∀ k < 10, k ≠ 0 → Nat.digitChar k ≠ '0' := by decide
  induction n using Nat.base_induction 10 (by decide) with
  | single m hm =>
    rw [Nat.toDigits_of_lt_base hm]
    exact fun heq => hdigit m hm h (Option.some.inj heq)
  | digit m k hk hm ih =>
    rw [← Nat.toDigits_append_toDigits (by decide) hm hk,
      List.head?_append_of_ne_nil _ Nat.toDigits_ne_nil]
    exact ih hm.ne'

theorem ifaceIndex_portName {n : ℕ} (h : n ≠ 0) : ifaceIndex (portName n) = n := by
  have hdigit : ∀ c ∈ Nat.toDigits 10 n, c.isDigit = true := fun c hc =>
    Nat.isDigit_of_mem_toDigits (b := 10) (by decide) (by decide) hc
  obtain ⟨c, l, hl⟩ := List.exists_cons_of_ne_nil (Nat.toDigits_ne_nil (n := n) (b := 10))
  have hhead := head?_toDigits_ne h
  rw [hl] at hdigit hhead
  have hcanonical : c.isDigit = true ∧ c ≠ '0' ∧ l.all Char.isDigit = true :=
    ⟨hdigit c List.mem_cons_self, fun heq => hhead (congrArg some heq),
      List.all_eq_true.2 fun d hd => hdigit d (List.mem_cons_of_mem _ hd)⟩
  rw [ifaceIndex, toList_portName, hl]
  show ite _ _ _ = n
  rw [if_pos hcanonical, ← hl, Nat.ofDigitChars_ten_toDigits]

theorem portName_ifaceIndex {iface : String} (h : ifaceIndex iface ≠ 0) :
    portName (ifaceIndex iface) = iface := by
  revert h
  rw [ifaceIndex]
  split
  · rename_i c l hlist
    split
    · rename_i hcanonical
      obtain ⟨hc, hzero, hl⟩ := hcanonical
      intro _
      have hdigits : ∀ d ∈ c :: l, d.isDigit = true := fun d hd => by
        rcases List.mem_cons.1 hd with rfl | hd
        · exact hc
        · exact List.all_eq_true.1 hl d hd
      rw [← String.toList_inj, toList_portName,
        Text.toDigits_ofDigitChars hdigits (List.cons_ne_nil _ _)
          (.inr fun heq => hzero (Option.some.inj heq)), hlist]
    · exact fun h => absurd rfl h
  · exact fun h => absurd rfl h

theorem le_foldl_max {l : List ℕ} {x : ℕ} (init : ℕ) (h : x ≤ init ∨ x ∈ l) :
    x ≤ l.foldl max init := by
  induction l generalizing init with
  | nil => exact h.resolve_right List.not_mem_nil
  | cons y l ih =>
    rw [List.foldl_cons]
    refine ih _ ?_
    rcases h with h | h
    · exact .inl (h.trans (le_max_left _ _))
    · rcases List.mem_cons.1 h with rfl | h
      · exact .inl (le_max_right _ _)
      · exact .inr h

variable {topo : DistributedTopology} {node iface : String} {capacity : ℕ}

theorem ifaceIndex_le_highestUsedPort (h : (node, iface) ∈ topo.ends) :
    ifaceIndex iface ≤ highestUsedPort topo node := by
  refine le_foldl_max 0 (.inr ?_)
  rcases List.mem_append.1 h with h | h
  · obtain ⟨l, hl, hend⟩ := List.mem_flatMap.1 h
    refine List.mem_append_left _ (List.mem_flatMap.2 ⟨l, hl, ?_⟩)
    simp only [Link.ends, List.mem_cons, Prod.mk.injEq, List.not_mem_nil, or_false] at hend
    rcases hend with ⟨rfl, rfl⟩ | ⟨rfl, rfl⟩
    · exact List.mem_append_left _ (by simp)
    · exact List.mem_append_right _ (by simp)
  · obtain ⟨l, hl, hend⟩ := List.mem_map.1 h
    obtain ⟨rfl, rfl⟩ := Prod.mk.inj hend
    exact List.mem_append_right _ (List.mem_flatMap.2 ⟨l, hl, by simp⟩)

theorem highestUsedPort_le_capacity {vd : VDNode} (hvd : topo.nodes.get? node = some vd)
    (hen : isEnabled vd = true) (hcap : capacityForNode topo node = .ok capacity) :
    highestUsedPort topo node ≤ capacity := by
  rw [capacityForNode, nodeOf_eq_ok.2 hvd] at hcap
  dsimp only at hcap
  split at hcap
  · rename_i hnone
    rw [isEnabled, hnone] at hen
    cases hen
  · rw [if_pos hen, requestedCapacity] at hcap
    dsimp only at hcap
    split at hcap
    · cases hcap
    · split at hcap
      · cases hcap
      · rw [← Except.ok.inj hcap]
        exact (le_max_right _ _).trans (le_max_left _ _)

/-- An end of a link is a warm port if its device numbers its interface. -/
theorem warmPort_iff (hcap : capacityForNode topo node = .ok capacity)
    (hend : (node, iface) ∈ topo.ends) : WarmPort capacity iface ↔ WarmEnd topo node iface := by
  constructor
  · rintro ⟨k, hk, rfl⟩
    obtain ⟨vd, hvd, hen⟩ := isEnabled_of_capacity hcap (Nat.ne_of_gt (Nat.zero_lt_of_lt hk))
    refine ⟨vd, nodeOf_eq_ok.1 hvd, hen, ?_⟩
    rw [ifaceIndex_portName k.succ_ne_zero]
    exact k.succ_ne_zero
  · rintro ⟨vd, hvd, hen, hindex⟩
    obtain ⟨k, hk⟩ := Nat.exists_eq_succ_of_ne_zero hindex
    refine ⟨k, ?_, ?_⟩
    · have hle := (ifaceIndex_le_highestUsedPort hend).trans
        (highestUsedPort_le_capacity hvd hen hcap)
      omega
    · rw [← Nat.succ_eq_add_one, ← hk, portName_ifaceIndex hindex]

end WarmLinks

namespace Generator

open RuntimeLinks WarmLinks

/-! ## Host-side names -/

section Names

variable {topo : DistributedTopology} {plan : SchedulePlan} {entries : List EndpointEntry}

/-- What holds of the names that are collected, and does not change when a name is repeated, holds
    of the unique names. -/
theorem uniqueNames_induction {P : EndpointKey → String → Prop}
    (hraw : ∀ e ∈ entries, P e.key e.raw)
    (hnth : ∀ k name n, P k name → P k (Naming.nthName name n)) {k : EndpointKey} {name : String}
    (h : (uniqueNames plan entries).get? k = some name) : P k name := by
  set raw := Dict.ofList (entries.map fun e => (e.key, e.raw)) with hdict
  have hraw' : ∀ k name, raw.get? k = some name → P k name := by
    intro k name hk
    obtain ⟨e, he, heq⟩ := List.mem_map.1 (Dict.mem_of_get?_ofList hk)
    obtain ⟨rfl, rfl⟩ := Prod.mk.inj heq
    exact hraw e he
  have hkeys : ∀ ks ∈ (keysPerHost plan entries).values, ∀ k ∈ ks, P k (raw.getD k "") := by
    intro ks hks k hk
    obtain ⟨⟨host, ks'⟩, hitem, rfl⟩ := List.mem_map.1 hks
    rw [items_keysPerHost hitem] at hk
    obtain ⟨e, he, rfl⟩ := List.mem_map.1 hk
    obtain ⟨name, hname⟩ : ∃ name, raw.get? e.key = some name :=
      Dict.mem_keys_iff.1 (Dict.mem_keys_ofList.2
        (List.mem_map.2 ⟨_, List.mem_map.2 ⟨e, (List.mem_filter.1 he).1, rfl⟩, rfl⟩))
    rw [Dict.getD, hname]
    exact hraw' _ _ hname
  rw [uniqueNames, ← hdict] at h
  -- By induction on the hosts, what is set so far is right.
  have hrun : ∀ kss : List (List EndpointKey), (∀ ks ∈ kss, ∀ k ∈ ks, P k (raw.getD k "")) →
      ∀ out : Dict EndpointKey String, (∀ k name, out.get? k = some name → P k name) →
      ∀ k name, (kss.foldl (fun out ks => out.update
        (ks.zip (Naming.ensureUnique (ks.map fun k => raw.getD k "")))) out).get? k = some name →
        P k name := by
    intro kss hkss
    induction kss with
    | nil => exact fun _ hout => hout
    | cons ks kss ih =>
      intro out hout k name hname
      refine ih (fun ks' h' => hkss ks' (List.mem_cons_of_mem _ h')) _ (fun k name hk => ?_)
        k name hname
      rcases Dict.mem_of_get?_update hk with hzip | hk
      · obtain ⟨j, hj⟩ := List.getElem?_of_mem hzip
        obtain ⟨hkey, hunique⟩ := List.getElem?_zip_eq_some.1 hj
        dsimp only at hkey hunique
        rw [Naming.getElem?_ensureUnique, List.getElem?_map, hkey] at hunique
        obtain rfl := Option.some.inj hunique
        exact hnth _ _ _ (hkss ks List.mem_cons_self k (List.mem_of_getElem? hkey))
      · exact hout k name hk
  exact hrun _ hkeys raw hraw' k name h

/-- The start of a name that is repeated. -/
theorem head?_nthName {name : String} (h : name.toList.head? ≠ some 'e') (n : ℕ) :
    (Naming.nthName name n).toList.head? ≠ some 'e' := by
  rw [Naming.nthName]
  split
  · exact h
  · rw [Naming.toList_suffixed]
    cases hname : name.toList with
    | nil =>
      intro hhead
      obtain ⟨ds, hds⟩ := List.head?_eq_some_iff.1 hhead
      have hmem : 'e' ∈ (Nat.toDigits 10 n).take (Naming.digitRoom name) := by
        rw [List.take_nil, List.nil_append] at hds
        exact hds ▸ List.mem_cons_self
      exact absurd (Nat.isDigit_of_mem_toDigits (b := 10) (by decide) (by decide)
        (List.mem_of_mem_take hmem)) (by decide)
    | cons c l =>
      rw [hname] at h
      exact h

/-- Every name is collected for the end it is looked up by. -/
theorem raw_of_endpointEntries (h : endpointEntries topo plan = .ok entries) {e : EndpointEntry}
    (he : e ∈ entries) : ∃ lid fallback,
      endpointName topo e.key.2.1 e.key.2.2 lid fallback = .ok e.raw := by
  simp only [endpointEntries, ExceptRules.bind_eq_ok, ExceptRules.pure_eq_ok,
    ExceptRules.mapM_eq_ok] at h
  obtain ⟨within, hwithin, across, hacross, nets, hnets, rfl⟩ := h
  rcases List.mem_append.1 he with he | he
  · rcases List.mem_append.1 he with he | he
    · obtain ⟨es, hes, hmem⟩ := List.mem_flatten.1 he
      obtain ⟨li, -, hli⟩ := ExceptRules.forall₂_exists hwithin hes
      simp only [localEntries, ExceptRules.bind_eq_ok, ExceptRules.pure_eq_ok] at hli
      obtain ⟨a, ha, b, hb, rfl⟩ := hli
      simp only [List.mem_cons, List.not_mem_nil, or_false] at hmem
      rcases hmem with rfl | rfl
      · exact ⟨_, _, ha⟩
      · exact ⟨_, _, hb⟩
    · obtain ⟨es, hes, hmem⟩ := List.mem_flatten.1 he
      obtain ⟨li, -, hli⟩ := ExceptRules.forall₂_exists hacross hes
      simp only [crossEntries, ExceptRules.bind_eq_ok, ExceptRules.pure_eq_ok] at hli
      obtain ⟨a, ha, b, hb, rfl⟩ := hli
      simp only [List.mem_cons, List.not_mem_nil, or_false] at hmem
      rcases hmem with rfl | rfl
      · exact ⟨_, _, ha⟩
      · exact ⟨_, _, hb⟩
  · obtain ⟨es, hes, hmem⟩ := List.mem_flatten.1 he
    obtain ⟨li, -, hli⟩ := ExceptRules.forall₂_exists hnets hes
    simp only [realNetEntries, ExceptRules.bind_eq_ok, ExceptRules.pure_eq_ok] at hli
    obtain ⟨a, ha, rfl⟩ := hli
    obtain rfl := List.mem_singleton.1 hmem
    exact ⟨_, _, ha⟩

/-- No end of a device that takes links while it runs is named like a port. -/
theorem getD_ne_portName {names : Dict EndpointKey String}
    (hnames : microHostEndpoints topo plan = .ok names) {node : String} (hwarm : WarmNode topo node)
    (lid iface : String) (n : ℕ) : names.getD (lid, node, iface) "" ≠ portName n := by
  obtain ⟨entries, hentries, rfl⟩ := ExceptRules.map_eq_ok.1 hnames
  have hhead : ∀ k name, (uniqueNames plan entries).get? k = some name → k.2.1 = node →
      name.toList.head? ≠ some 'e' := fun k name hname =>
    uniqueNames_induction (P := fun k name => k.2.1 = node → name.toList.head? ≠ some 'e')
      (fun e he hnode => by
        obtain ⟨lid, fallback, hraw⟩ := raw_of_endpointEntries hentries he
        rw [endpointName_of_warm hraw (hnode ▸ hwarm), Naming.runtimePortEndpoint,
          Text.toList_first, String.toList_append, String.toList_append, String.toList_append]
        exact fun hw => absurd (Option.some.inj hw) (by decide))
      (fun k name n hname hnode => head?_nthName (hname hnode) n) hname
  intro hport
  rw [Dict.getD] at hport
  cases hget : (uniqueNames plan entries).get? (lid, node, iface) with
  | none =>
    rw [hget] at hport
    have hlist := congrArg String.toList hport
    rw [toList_portName] at hlist
    cases hlist
  | some name =>
    rw [hget] at hport
    refine hhead _ name hget rfl ?_
    rw [show name = portName n from hport, toList_portName]
    rfl

end Names

/-! ## The links of a file read back -/

theorem portOf_append {node : String} (h : ':' ∉ node.toList) (iface : String) :
    portOf (node ++ ":" ++ iface) = iface := by
  have htext : (node ++ ":" ++ iface).toList = node.toList ++ ':' :: iface.toList := by
    rw [String.toList_append, String.toList_append, List.append_assoc]
    rfl
  have hnode : ∀ c ∈ node.toList, decide (c ≠ ':') = true := fun c hc =>
    decide_eq_true fun heq => h (heq ▸ hc)
  rw [portOf, htext, List.dropWhile_append_of_pos hnode, List.dropWhile_cons_of_neg (by decide),
    List.tail_cons, String.ofList_toList]

theorem startsWith_append (s t : String) : Text.startsWith (s ++ t) s = true := by
  rw [Text.startsWith, List.isPrefixOf_iff_prefix, String.toList_append]
  exact List.prefix_append _ _

/-- What is between two texts with a colon after them. -/
theorem eq_of_startsWith_colon {node other : String} {name : String} (h : ':' ∉ node.toList)
    (h' : ':' ∉ other.toList) (hstart : Text.startsWith (other ++ ":" ++ name) (node ++ ":") = true) :
    other = node := by
  have htext : (other ++ ":" ++ name).toList = other.toList ++ ':' :: name.toList := by
    rw [String.toList_append, String.toList_append, List.append_assoc]
    rfl
  obtain ⟨rest, hrest⟩ := List.isPrefixOf_iff_prefix.1 hstart
  rw [String.toList_append, htext, List.append_assoc] at hrest
  have hhead (s : String) (hs : ':' ∉ s.toList) (l : List Char) :
      (s.toList ++ ':' :: l).takeWhile (· ≠ ':') = s.toList := by
    have hs' : ∀ c ∈ s.toList, decide (c ≠ ':') = true := fun c hc =>
      decide_eq_true fun heq => hs (heq ▸ hc)
    rw [List.takeWhile_append_of_pos hs', List.takeWhile_cons_of_neg (by decide), List.append_nil]
  have hsame := congrArg (List.takeWhile (· ≠ ':')) hrest
  rw [hhead other h'] at hsame
  exact String.toList_inj.1 (hsame.symm.trans (hhead node h _))

section Attached

variable {names : Dict EndpointKey String} {node : String} {links : List ClabLink}

/-- The port that the code reads from a link is that of the link: the host-side end of a link is
    never taken for a port, even of a device that is called as the host is. -/
theorem portName_mem_attachedPorts_iff (hcolon : ':' ∉ node.toList)
    (hlinks : ∀ e ∈ links, ∃ lid iface, e = clabLink names lid node iface)
    (hname : ∀ lid iface n, names.getD (lid, node, iface) "" ≠ portName n) (n : ℕ) :
    portName n ∈ attachedPorts node links ↔
      ∃ e ∈ links, e.endpoints.head? = some (node ++ ":" ++ portName n) := by
  have hhost : "host:" = "host" ++ ":" := by decide
  rw [attachedPorts]
  constructor
  · intro h
    obtain ⟨text, htext, hport⟩ := List.mem_map.1 h
    obtain ⟨hmem, hstart⟩ := List.mem_filter.1 htext
    obtain ⟨e, he, hend⟩ := List.mem_flatMap.1 hmem
    obtain ⟨lid, iface, rfl⟩ := hlinks e he
    simp only [clabLink, List.mem_cons, List.not_mem_nil, or_false] at hend
    rcases hend with rfl | rfl
    · rw [portOf_append hcolon] at hport
      exact ⟨_, he, hport ▸ rfl⟩
    · rw [hhost] at hstart hport
      obtain rfl := eq_of_startsWith_colon hcolon (by decide) hstart
      rw [portOf_append hcolon] at hport
      exact absurd hport (hname _ _ _)
  · rintro ⟨e, he, hhead⟩
    obtain ⟨lid, iface, rfl⟩ := hlinks e he
    have hport : node ++ ":" ++ iface = node ++ ":" ++ portName n := Option.some.inj hhead
    refine List.mem_map.2 ⟨node ++ ":" ++ iface, List.mem_filter.2
      ⟨List.mem_flatMap.2 ⟨_, he, List.mem_cons_self⟩, startsWith_append _ _⟩, ?_⟩
    rw [hport, portOf_append hcolon]

end Attached

end Generator

end Dnlab
