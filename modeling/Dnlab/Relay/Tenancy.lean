import Dnlab.Lib.Doubled
import Dnlab.Lib.Except
import Dnlab.Relay

/-!
# Relays and other labs

A relay takes a container for one of its lab if the name goes on, after the
lab's, with a word twice (`matchesLabContainer_iff`). The container of a device
of another lab does so if the name of that lab goes on from the name of this one
in one of two ways, which depend on the device (`Mistaken`, `refuses_iff`).
-/

namespace Dnlab.Relay

/-- A name that can stand in a command: a word without spaces. -/
structure IsName (name : String) : Prop where
  ne_empty : name ≠ ""
  noSpace : name.toList.any Text.isSpace = false

/-- A generated key is ASCII text. -/
structure IsKey (key : String) : Prop where
  ne_empty : key ≠ ""
  ascii : key.toList.all (·.toNat < 128) = true

/-- `z`, and `x` so many times behind it. -/
def chain (z x : String) : ℕ → String
  | 0 => z
  | k + 1 => chain z x k ++ "-" ++ x

/-- Either `z` is `x`, and `w` is it twice; or `x` is `y-z`, and `w` is `y-z-z-y`. -/
def Echo (z x w : String) : Prop :=
  z = x ∧ w = x ++ "-" ++ x ∨
    ∃ y, x = y ++ "-" ++ z ∧ w = y ++ "-" ++ (z ++ "-" ++ (z ++ "-" ++ y))

/-- The relay of a lab takes the container of `node` in another lab for one of its own. The name
    of one of the labs goes on from that of the other with `w`, an echo of `z` and `x`, and the
    device is `z` with any number of `x` behind it; or this with one `x` in front, if it is the
    name of the relay's lab that is longer. -/
def Mistaken (labName other node : String) : Prop :=
  ∃ z x k w, Echo z x w ∧ (other = labName ++ "-" ++ w ∧ node = chain z x k ∨
    labName = other ++ "-" ++ w ∧ node = x ++ "-" ++ chain z x k ∧ chain z x k ≠ "")

/-! ## What is authorized -/

section Authorized

variable {config : Config} {container : String}

theorem matchesLabContainer_iff : matchesLabContainer config container = true ↔
    config.allowedPrefix ≠ "" ∧ ∃ m, m ≠ [] ∧
      container.toList = config.allowedPrefix.toList ++ (m ++ '-' :: m) := by
  rw [matchesLabContainer]
  by_cases hstart : config.allowedPrefix = "" ∨
      Text.startsWith container config.allowedPrefix = false
  · rw [if_pos hstart]
    refine ⟨fun h => absurd h (by decide), fun ⟨hne, m, _, hm⟩ => ?_⟩
    rcases hstart with hempty | hstart
    · exact absurd hempty hne
    · rw [Text.startsWith, hm, ← Bool.not_eq_true, List.isPrefixOf_iff_prefix] at hstart
      exact absurd (List.prefix_append _ _) hstart
  rw [if_neg hstart]
  rw [not_or, Bool.not_eq_false, Text.startsWith, List.isPrefixOf_iff_prefix] at hstart
  obtain ⟨hne, suffix, hsuffix⟩ := hstart
  simp only [← hsuffix, List.drop_left, List.append_cancel_left_eq, List.any_eq_true,
    List.mem_zipIdx_iff_getElem?, Prod.exists, Bool.and_eq_true, decide_eq_true_eq]
  constructor
  · rintro ⟨char, index, hget, ⟨⟨rfl, hpos⟩, -⟩, hsame⟩
    -- The text is what is before this hyphen, the hyphen, and what is behind it.
    obtain ⟨hlt, hchar⟩ := List.getElem?_eq_some_iff.1 hget
    refine ⟨hne, suffix.take index, ?_, ?_⟩
    · rw [← List.length_pos_iff, List.length_take]
      omega
    · conv_lhs => rw [← List.take_append_drop index suffix, List.drop_eq_getElem_cons hlt, hchar]
      rw [hsame]
  · rintro ⟨-, m, hm, rfl⟩
    have hpos := List.length_pos_iff.2 hm
    refine ⟨'-', m.length, by simp, ⟨⟨rfl, hpos⟩, ?_⟩, ?_⟩
    · rw [List.length_append, List.length_cons]
      omega
    · rw [List.take_left, ← List.singleton_append, ← List.append_assoc]
      exact (List.drop_left' (by simp)).symm

theorem admits_iff : Admits config container ↔
    ∃ key, authorized config key container = .ok true := by
  constructor
  · rintro ⟨running, parts, h⟩
    match parts with
    | [] | [_] | [_, _] => exact absurd h (by simp [handle, Response.container?])
    | action :: key :: asked :: args =>
      rw [handle] at h
      refine ⟨key, ?_⟩
      rcases hauth : authorized config key asked with text | _ | _ <;> rw [hauth] at h
      · exact absurd h (by simp [Response.container?])
      · exact absurd h (by simp [Response.container?])
      · -- Whatever is served is about the container that was asked for.
        dsimp only at h
        split_ifs at h
        · exact absurd h (by simp [Response.container?])
        · obtain rfl := Option.some.inj h
          exact hauth
        · obtain rfl := Option.some.inj h
          exact hauth
        · exact absurd h (by simp [Response.container?])
  · rintro ⟨key, h⟩
    exact ⟨fun _ => true, ["CONNECT", key, container], by simp [handle, h, Response.container?]⟩

theorem exists_authorized_iff (hkey : IsKey config.apiKey) :
    (∃ key, authorized config key container = .ok true) ↔
      container ∈ config.allowed ∨ matchesLabContainer config container = true := by
  have hdigest : compareDigest config.apiKey config.apiKey = .ok true := by
    have hascii := hkey.ascii
    rw [compareDigest, if_pos (by rw [List.all_append, hascii]; rfl), decide_eq_true rfl]
  constructor
  · rintro ⟨key, h⟩
    rw [authorized, if_neg hkey.ne_empty] at h
    obtain ⟨same, -, hboth⟩ := ExceptRules.map_eq_ok.1 h
    rw [Bool.and_eq_true] at hboth
    simpa using hboth.2
  · intro h
    refine ⟨config.apiKey, ?_⟩
    rw [authorized, if_neg hkey.ne_empty, hdigest]
    simpa [Except.map] using h

end Authorized

/-! ## Containers of other labs -/

theorem toList_chain (z x : String) (k : ℕ) :
    (chain z x k).toList = Doubled.chain '-' z.toList x.toList k := by
  induction k with
  | zero => rfl
  | succ k ih => simp [chain, Doubled.chain, ih]

theorem toList_echo {z x w : String} :
    Echo z x w ↔ Doubled.Echo '-' z.toList x.toList w.toList := by
  constructor
  · rintro (⟨rfl, rfl⟩ | ⟨y, rfl, rfl⟩)
    · exact .inl ⟨rfl, by simp⟩
    · exact .inr ⟨y.toList, by simp, by simp⟩
  · rintro (⟨hz, hw⟩ | ⟨y, hx, hw⟩)
    · obtain rfl := String.toList_inj.1 hz
      refine .inl ⟨rfl, String.toList_inj.1 ?_⟩
      rw [hw]
      simp
    · refine .inr ⟨.ofList y, String.toList_inj.1 ?_, String.toList_inj.1 ?_⟩
      · rw [hx]
        simp
      · rw [hw]
        simp

/-- A word, then one twice, is one twice. -/
theorem twice_iff {w n m : String} :
    w ++ "-" ++ (n ++ "-" ++ n) = m ++ "-" ++ m ↔
      ∃ z x k, Echo z x w ∧ n = chain z x k ∧ m = x ++ "-" ++ n := by
  have hlists : w ++ "-" ++ (n ++ "-" ++ n) = m ++ "-" ++ m ↔
      w.toList ++ '-' :: (n.toList ++ '-' :: n.toList) = m.toList ++ '-' :: m.toList := by
    rw [← String.toList_inj]
    simp
  rw [hlists, Doubled.doubled_iff]
  constructor
  · rintro ⟨z, x, k, hecho, hn, hm⟩
    refine ⟨.ofList z, .ofList x, k, toList_echo.2 (by simpa using hecho), ?_, ?_⟩
    · rw [← String.toList_inj, toList_chain, hn]
      simp
    · rw [← String.toList_inj, hm]
      simp
  · rintro ⟨z, x, k, hecho, rfl, rfl⟩
    exact ⟨z.toList, x.toList, k, toList_echo.1 hecho, toList_chain z x k, by simp⟩

/-- Of two different words in front of a hyphen, one goes on from the other. -/
theorem append_dash_eq {a b s t : String} (hne : a ≠ b) (h : a ++ "-" ++ s = b ++ "-" ++ t) :
    (∃ w, b = a ++ "-" ++ w ∧ s = w ++ "-" ++ t) ∨ ∃ w, a = b ++ "-" ++ w ∧ t = w ++ "-" ++ s := by
  have hlists : a.toList ++ '-' :: s.toList = b.toList ++ '-' :: t.toList := by
    simpa using String.toList_inj.2 h
  -- What is between the two hyphens.
  have key {a b s t : String} {d : List Char} (hne : a ≠ b) (hb : b.toList = a.toList ++ d)
      (hs : '-' :: s.toList = d ++ '-' :: t.toList) :
      ∃ w, b = a ++ "-" ++ w ∧ s = w ++ "-" ++ t := by
    rcases d with _ | ⟨c, w⟩
    · exact absurd (String.toList_inj.1 (by simpa using hb.symm)) hne
    · obtain ⟨rfl, hw⟩ := List.cons_eq_cons.1 hs
      refine ⟨.ofList w, String.toList_inj.1 ?_, String.toList_inj.1 ?_⟩
      · rw [hb]
        simp
      · rw [hw]
        simp
  rcases List.append_eq_append_iff.1 hlists with ⟨d, hb, hs⟩ | ⟨d, ha, ht⟩
  · exact .inl (key hne hb hs)
  · exact .inr (key hne.symm ha ht)

theorem matches_iff_twice {labName other node : String} {config : Config}
    (hconfig : config.allowedPrefix = RuntimeRelay.allowedPrefix labName) :
    matchesLabContainer config (Naming.microVdContainerName other node) = true ↔
      ∃ m, m ≠ "" ∧ other ++ "-" ++ (node ++ "-" ++ node) = labName ++ "-" ++ (m ++ "-" ++ m) := by
  have hstart : RuntimeRelay.allowedPrefix labName ≠ "" := by
    rw [ne_eq, ← String.toList_eq_nil_iff, RuntimeRelay.allowedPrefix]
    simp
  have hname (m : List Char) : (Naming.microVdContainerName other node).toList =
      (RuntimeRelay.allowedPrefix labName).toList ++ (m ++ '-' :: m) ↔
        other ++ "-" ++ (node ++ "-" ++ node) =
          labName ++ "-" ++ (.ofList m ++ "-" ++ .ofList m) := by
    rw [← String.toList_inj]
    simp [Naming.microVdContainerName, Naming.microTopologyName, RuntimeRelay.allowedPrefix]
  rw [matchesLabContainer_iff, hconfig]
  constructor
  · rintro ⟨-, m, hm, h⟩
    exact ⟨.ofList m, fun h => hm (by simpa using String.toList_inj.2 h), (hname m).1 h⟩
  · rintro ⟨m, hm, h⟩
    refine ⟨hstart, m.toList, fun h => hm (String.toList_eq_nil_iff.1 h), (hname _).2 ?_⟩
    rwa [String.ofList_toList]

theorem matches_iff_mistaken {labName other node : String} {config : Config}
    (hconfig : config.allowedPrefix = RuntimeRelay.allowedPrefix labName) (hne : labName ≠ other) :
    matchesLabContainer config (Naming.microVdContainerName other node) = true ↔
      Mistaken labName other node := by
  rw [matches_iff_twice hconfig]
  constructor
  · rintro ⟨m, hm, h⟩
    rcases append_dash_eq hne h.symm with ⟨w, hother, h⟩ | ⟨w, hlab, h⟩
    · obtain ⟨z, x, k, hecho, hnode, -⟩ := twice_iff.1 h.symm
      exact ⟨z, x, k, w, hecho, .inl ⟨hother, hnode⟩⟩
    · obtain ⟨z, x, k, hecho, rfl, hnode⟩ := twice_iff.1 h.symm
      exact ⟨z, x, k, w, hecho, .inr ⟨hlab, hnode, hm⟩⟩
  · rintro ⟨z, x, k, w, hecho, ⟨rfl, rfl⟩ | ⟨rfl, rfl, hm⟩⟩
    · refine ⟨x ++ "-" ++ chain z x k, ?_, ?_⟩
      · rw [ne_eq, ← String.toList_eq_nil_iff]
        simp
      · rw [← twice_iff.2 ⟨z, x, k, hecho, rfl, rfl⟩]
        simp only [String.append_assoc]
    · refine ⟨chain z x k, hm, ?_⟩
      rw [← twice_iff.2 ⟨z, x, k, hecho, rfl, rfl⟩]
      simp only [String.append_assoc]

/-! ## The relay of a lab -/

section Deployed

variable {labName other node apiKey host : String} {plan : SchedulePlan}
  {env : RuntimeRelay.Environment}

/-- The containers that the environment lists are those of devices of the lab. -/
theorem exists_of_mem_allowed (hlab : IsName labName)
    (hvds : ∀ a, plan.assignments.get? host = some a → ∀ vd ∈ a.vdNames, IsName vd)
    (henv : RuntimeRelay.deployOne labName plan apiKey host = some env) {c : String}
    (hc : c ∈ (Config.ofEnvironment env).allowed) :
    ∃ vd, vd ≠ "" ∧ c = Naming.microVdContainerName labName vd := by
  have hcontainers : ∀ c ∈ RuntimeRelay.containersForHost labName plan host,
      ∃ vd, IsName vd ∧ c = Naming.microVdContainerName labName vd := by
    intro c hc
    rw [RuntimeRelay.containersForHost] at hc
    rcases hget : plan.assignments.get? host with _ | a
    · rw [hget] at hc
      exact absurd hc List.not_mem_nil
    · rw [hget] at hc
      obtain ⟨vd, hvd, rfl⟩ := List.mem_map.1 hc
      exact ⟨vd, hvds a hget vd hvd, rfl⟩
  -- No word of the list has a space in it, so that the list is read as it was written.
  have hwords : Text.words (Text.join " " (RuntimeRelay.containersForHost labName plan host)) =
      RuntimeRelay.containersForHost labName plan host := by
    refine Text.words_join (fun s hs => ?_) fun s hs ch hch => ?_
    · obtain ⟨vd, -, rfl⟩ := hcontainers s hs
      rw [ne_eq, ← String.toList_eq_nil_iff, Naming.microVdContainerName]
      simp
    · obtain ⟨vd, hvd, rfl⟩ := hcontainers s hs
      have hclab : "clab-".toList.any Text.isSpace = false := by decide
      have hdnlab : "dnlab-".toList.any Text.isSpace = false := by decide
      have hdash : "-".toList.any Text.isSpace = false := by decide
      have hname : (Naming.microVdContainerName labName vd).toList.any Text.isSpace = false := by
        simp only [Naming.microVdContainerName, Naming.microTopologyName, String.toList_append,
          List.any_append, hclab, hdnlab, hdash, hlab.noSpace, hvd.noSpace, Bool.or_false]
      exact Bool.not_eq_true _ ▸ List.any_eq_false.1 hname ch hch
  rw [RuntimeRelay.deployOne] at henv
  split_ifs at henv
  obtain rfl := Option.some.inj henv
  rw [Config.ofEnvironment, hwords] at hc
  obtain ⟨vd, hvd, rfl⟩ := hcontainers c (List.mem_of_mem_filter hc)
  exact ⟨vd, hvd.ne_empty, rfl⟩

theorem apiKey_of_deployOne (henv : RuntimeRelay.deployOne labName plan apiKey host = some env) :
    env.apiKey = apiKey ∧ env.allowedPrefix = RuntimeRelay.allowedPrefix labName := by
  rw [RuntimeRelay.deployOne] at henv
  split_ifs at henv
  obtain rfl := Option.some.inj henv
  exact ⟨rfl, rfl⟩

/-- The relay of a lab admits nobody to the container of a device of another lab, unless it is
    mistaken for one of its own. -/
theorem refuses_iff (hlab : IsName labName)
    (hvds : ∀ a, plan.assignments.get? host = some a → ∀ vd ∈ a.vdNames, IsName vd)
    (hkey : IsKey apiKey) (henv : RuntimeRelay.deployOne labName plan apiKey host = some env)
    (hne : labName ≠ other) :
    ¬Admits (Config.ofEnvironment env) (Naming.microVdContainerName other node) ↔
      ¬Mistaken labName other node := by
  obtain ⟨hapi, hstart⟩ := apiKey_of_deployOne henv
  have hmatches : matchesLabContainer (Config.ofEnvironment env)
      (Naming.microVdContainerName other node) = true ↔ Mistaken labName other node :=
    matches_iff_mistaken hstart hne
  -- A container that is listed is matched as well.
  have hlisted : Naming.microVdContainerName other node ∈ (Config.ofEnvironment env).allowed →
      matchesLabContainer (Config.ofEnvironment env)
        (Naming.microVdContainerName other node) = true := by
    intro hmem
    obtain ⟨vd, hvd, hname⟩ := exists_of_mem_allowed hlab hvds henv hmem
    refine (matches_iff_twice hstart).2 ⟨vd, hvd, ?_⟩
    simpa [Naming.microVdContainerName, Naming.microTopologyName, ← String.toList_inj] using hname
  rw [admits_iff, exists_authorized_iff (by rw [Config.ofEnvironment, hapi]; exact hkey),
    or_iff_right_of_imp hlisted, hmatches]

end Deployed

/-! ## A relay that is mistaken -/

/-- A lab with one device on one host. -/
def demoPlan : SchedulePlan where
  labName := "demo"
  assignments := .ofList [("w1", { hostName := "w1", hostIp := "10.0.0.1", vdNames := ["r1"] })]

theorem isKey_demo : IsKey "k" := ⟨by decide, by decide⟩

theorem refuses_iff_demo : ∃ env, RuntimeRelay.deployOne "demo" demoPlan "k" "w1" = some env ∧
    (¬Admits (Config.ofEnvironment env) (Naming.microVdContainerName "demo-other" "r1") ↔
      ¬Mistaken "demo" "demo-other" "r1") := by
  have hvds : ∀ a, demoPlan.assignments.get? "w1" = some a → ∀ vd ∈ a.vdNames, IsName vd := by
    rintro a ⟨⟩ vd hvd
    obtain rfl := List.mem_singleton.1 hvd
    exact ⟨by decide, by decide⟩
  exact ⟨_, rfl, refuses_iff ⟨by decide, by decide⟩ hvds isKey_demo rfl (by decide)⟩

/-- The relay of `demo` admits to the device `r1` of the lab `demo-r1-r1`. -/
theorem admits_echo :
    "demo" ≠ "demo-r1-r1" ∧ ∃ env, RuntimeRelay.deployOne "demo" demoPlan "k" "w1" = some env ∧
      Admits (Config.ofEnvironment env) (Naming.microVdContainerName "demo-r1-r1" "r1") := by
  refine ⟨by decide, _, rfl, admits_iff.2 ((exists_authorized_iff isKey_demo).2 (.inr ?_))⟩
  exact (matches_iff_twice rfl).2 ⟨"r1-r1", by decide, rfl⟩

end Dnlab.Relay
