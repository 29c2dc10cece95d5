import Dnlab.Services.Netsetup
import Dnlab.Utils.Naming.Parts

/-!
# Two labs on one host

A call for a lab only touches interfaces with the names of that lab
(`LabCall.names_subset`), so two labs leave each other alone as long as their
names are distinct. But the names are the lab's, cut to seven, eleven and twelve
characters, and the numbers are a hash, reduced to a small range: whether two
labs are kept apart depends on exactly these (`isolated_labs_iff`).
-/

namespace Dnlab.Netsetup

open Naming (kind kind_append)

/-- The interfaces of the management network of a lab. -/
def interfaces (lab : String) : List String :=
  [Naming.mgmtVxlanIface lab, Naming.mgmtBridgeName lab, Naming.vrfName lab]

/-- What an interface is, and what it is enslaved to. -/
def NetLink.shape (l : NetLink) : LinkKind × Option String := (l.kind, l.master)

/-- No interface of a lab is created, enslaved to another or deleted. -/
def Unchanged (lab : String) (h h' : Host) : Prop :=
  ∀ n ∈ interfaces lab, (h'.links.get? n).map NetLink.shape = (h.links.get? n).map NetLink.shape

/-- No interface of a lab is enslaved to one of the other. -/
structure Separate (a b : String) (h : Host) : Prop where
  left : ∀ n ∈ interfaces a, ∀ l, h.links.get? n = some l → ∀ m ∈ interfaces b, l.master ≠ some m
  right : ∀ n ∈ interfaces b, ∀ l, h.links.get? n = some l → ∀ m ∈ interfaces a, l.master ≠ some m

/-- Two labs are kept apart. -/
structure Isolated (a b : String) : Prop where
  /-- Whatever the order of the calls, and whatever comes of the commands, no command for one lab
      changes an interface of the other. -/
  commands : ∀ h steps h', Separate a b h → Run a b h steps h' → ∀ s ∈ steps,
    (s.lab = a → Unchanged b s.change.before s.change.after) ∧
      (s.lab = b → Unchanged a s.change.before s.change.after)
  tables : Ids.vrfTableId a ≠ Ids.vrfTableId b
  vnis : Ids.mgmtVxlanId a ≠ Ids.mgmtVxlanId b
  ports : Ids.runtimeRelayPort a ≠ Ids.runtimeRelayPort b

/-- What must tell two labs apart. -/
structure Distinguishable (a b : String) : Prop where
  start : Text.first 7 a ≠ Text.first 7 b
  network : Text.first 12 (Naming.sanitizeLabName a) ≠ Text.first 12 (Naming.sanitizeLabName b)
  tables : Ids.hash a % 900 ≠ Ids.hash b % 900
  ids : Ids.hash a % 1000 ≠ Ids.hash b % 1000

/-! ## Names -/

section Names

variable {a b lab : String}

theorem mgmtVxlanIface_inj :
    Naming.mgmtVxlanIface a = Naming.mgmtVxlanIface b ↔ Text.first 7 a = Text.first 7 b := by
  rw [Naming.mgmtVxlanIface, Naming.mgmtVxlanIface, String.append_left_inj, String.append_right_inj]

theorem mgmtBridgeName_inj : Naming.mgmtBridgeName a = Naming.mgmtBridgeName b ↔
    Text.first 12 (Naming.sanitizeLabName a) = Text.first 12 (Naming.sanitizeLabName b) := by
  rw [Naming.mgmtBridgeName, Naming.mgmtBridgeName, String.append_right_inj]
  rfl

theorem vrfName_eq (lab : String) : Naming.vrfName lab = "vrf-" ++ Text.first 11 lab := by
  rw [Naming.vrfName, Text.first_append (by decide), Text.first_first]
  rfl

/-- Labs with the same VRF name have the same VXLAN interface, which has less of the name. -/
theorem first_of_vrfName (h : Naming.vrfName a = Naming.vrfName b) :
    Text.first 7 a = Text.first 7 b := by
  rw [vrfName_eq, vrfName_eq, String.append_right_inj] at h
  have hfirst := congrArg (Text.first 7) h
  rwa [Text.first_first, Text.first_first] at hfirst

/-- Interfaces of two labs that can be told apart have different names. -/
theorem Distinguishable.disjoint (h : Distinguishable a b) : (interfaces a).Disjoint (interfaces b) := by
  have hvxlan : ∀ lab, kind (Naming.mgmtVxlanIface lab) = ['v', 'x'] := fun lab => by
    rw [Naming.mgmtVxlanIface, String.append_assoc, kind_append (by decide)]
    decide
  have hbridge : ∀ lab, kind (Naming.mgmtBridgeName lab) = ['b', 'r'] := fun lab => by
    rw [Naming.mgmtBridgeName, kind_append (by decide)]
    decide
  have hvrf : ∀ lab, kind (Naming.vrfName lab) = ['v', 'r'] := fun lab => by
    rw [vrfName_eq, kind_append (by decide)]
    decide
  have hkind : ∀ {x y : String}, kind x ≠ kind y → x ≠ y := fun hne heq => hne (heq ▸ rfl)
  intro n ha hb
  simp only [interfaces, List.mem_cons, List.not_mem_nil, or_false] at ha hb
  rcases ha with rfl | rfl | rfl <;> rcases hb with heq | heq | heq
  · exact h.start (mgmtVxlanIface_inj.1 heq)
  · exact hkind (by rw [hvxlan, hbridge]; decide) heq
  · exact hkind (by rw [hvxlan, hvrf]; decide) heq
  · exact hkind (by rw [hbridge, hvxlan]; decide) heq
  · exact h.network (mgmtBridgeName_inj.1 heq)
  · exact hkind (by rw [hbridge, hvrf]; decide) heq
  · exact hkind (by rw [hvrf, hvxlan]; decide) heq
  · exact hkind (by rw [hvrf, hbridge]; decide) heq
  · exact h.start (first_of_vrfName heq)

theorem Distinguishable.symm (h : Distinguishable a b) : Distinguishable b a :=
  ⟨h.start.symm, h.network.symm, h.tables.symm, h.ids.symm⟩

/-! ## What a command touches -/

/-- The interfaces that a command creates, enslaves or deletes, and those that it enslaves to. -/
def NetCmd.names : NetCmd → List String
  | linkAdd name _ => [name]
  | linkMaster name master => [name, master]
  | linkDelete name => [name]
  | _ => []

theorem names_of_setup {topo : DistributedTopology} {plan : SchedulePlan} {hostName : String}
    {allHostIps : Dict String String} {cmds : List NetCmd}
    (hbridge : topo.mgmt.bridge = Naming.mgmtBridgeName topo.name)
    (h : setupMgmtInfra topo plan hostName allHostIps = .ok cmds) :
    ∀ cmd ∈ cmds, cmd.names ⊆ interfaces topo.name := by
  rw [setupMgmtInfra] at h
  dsimp only at h
  split at h
  · cases h
  · cases h
  · obtain rfl := Except.ok.inj h
    intro cmd hcmd
    rw [hbridge] at hcmd
    simp only [installMgmtBridgeFirewallRules, List.map_cons, List.map_nil, List.mem_append,
      List.mem_cons, List.mem_map, List.not_mem_nil, or_false] at hcmd
    rcases hcmd with (hcmd | hcmd) | ⟨_, -, rfl⟩
    · rcases hcmd with rfl | rfl | rfl | rfl | rfl | rfl | rfl | rfl | rfl <;>
        simp [NetCmd.names, interfaces]
    · rcases hcmd with rfl | rfl <;> simp [NetCmd.names]
    · simp [NetCmd.names]

theorem names_of_teardown {cmd : NetCmd}
    (h : cmd ∈ teardownMgmtInfra lab (Naming.mgmtBridgeName lab)) :
    cmd.names ⊆ interfaces lab := by
  simp only [teardownMgmtInfra, removeMgmtBridgeFirewallRules, List.map_cons, List.map_nil,
    List.mem_append, List.mem_cons, List.not_mem_nil, or_false] at h
  rcases h with (rfl | rfl | rfl) | rfl | rfl | rfl <;> simp [NetCmd.names, interfaces]

/-- The commands of a call touch no interface but those of its lab. -/
theorem LabCall.names_subset (c : LabCall lab) {cmd : NetCmd} (hcmd : cmd ∈ c.commands) :
    cmd.names ⊆ interfaces lab := by
  revert hcmd
  rcases c with ⟨topo, plan, hostName, allHostIps, rfl, hbridge, -, -⟩ | _ <;> intro hcmd
  · have hmem : cmd ∈ (setupMgmtInfra topo plan hostName allHostIps).toOption.getD [] := hcmd
    cases h : setupMgmtInfra topo plan hostName allHostIps with
    | error e =>
      rw [h] at hmem
      cases hmem
    | ok cmds =>
      rw [h] at hmem
      exact names_of_setup hbridge h cmd hmem
  · exact names_of_teardown hcmd

end Names

/-! ## What a command changes -/

section Commands

variable {cmd : NetCmd} {h h' : Host} {n : String}

/-- An interface after a command: it is as before, or the command is about it or about what it is
    enslaved to. -/
theorem shape_of_effect (heffect : cmd.effect h = some h') (hn : n ∉ cmd.names)
    (hmaster : ∀ l, h.links.get? n = some l → ∀ m ∈ cmd.names, l.master ≠ some m) :
    (h'.links.get? n).map NetLink.shape = (h.links.get? n).map NetLink.shape := by
  cases cmd with
  | linkAdd name kind =>
    rw [NetCmd.effect] at heffect
    split_ifs at heffect
    obtain rfl := Option.some.inj heffect
    rw [Dict.get?_set_of_ne _ _ fun heq => hn (by rw [heq]; exact List.mem_cons_self)]
  | linkUp name =>
    rw [NetCmd.effect] at heffect
    split_ifs at heffect
    obtain rfl := Option.some.inj heffect
    rw [Dict.get?_modify]
    split_ifs
    · rw [Option.map_map]
      rfl
    · rfl
  | linkMaster name master =>
    rw [NetCmd.effect] at heffect
    split_ifs at heffect
    obtain rfl := Option.some.inj heffect
    rw [Dict.get?_modify, if_neg fun heq => hn (by rw [heq]; exact List.mem_cons_self)]
  | linkDelete name =>
    rw [NetCmd.effect] at heffect
    split_ifs at heffect
    obtain rfl := Option.some.inj heffect
    rw [Dict.get?_map, Dict.get?_erase,
      if_neg fun heq => hn (by rw [heq]; exact List.mem_cons_self)]
    cases hl : h.links.get? n with
    | none => rfl
    | some l => rw [Option.map_some, if_neg (hmaster l hl name List.mem_cons_self)]
  | _ =>
    obtain rfl := Option.some.inj heffect
    rfl

/-- What an interface is enslaved to after a command: what it was before, or what the command is
    about. -/
theorem master_of_effect {l' : NetLink} {m : String} (heffect : cmd.effect h = some h')
    (hl' : h'.links.get? n = some l') (hm : l'.master = some m) :
    (∃ l, h.links.get? n = some l ∧ l.master = some m) ∨ m ∈ cmd.names := by
  -- One case for each command that changes links.
  cases cmd with
  | linkAdd name kind =>
    rw [NetCmd.effect] at heffect
    split_ifs at heffect
    obtain rfl := Option.some.inj heffect
    rw [Dict.get?_set] at hl'
    split_ifs at hl'
    · obtain rfl := Option.some.inj hl'
      cases hm
    · exact .inl ⟨l', hl', hm⟩
  | linkUp name =>
    rw [NetCmd.effect] at heffect
    split_ifs at heffect
    obtain rfl := Option.some.inj heffect
    rw [Dict.get?_modify] at hl'
    split_ifs at hl'
    · obtain ⟨l, hl, rfl⟩ := Option.map_eq_some_iff.1 hl'
      exact .inl ⟨l, hl, hm⟩
    · exact .inl ⟨l', hl', hm⟩
  | linkMaster name master =>
    rw [NetCmd.effect] at heffect
    split_ifs at heffect
    obtain rfl := Option.some.inj heffect
    rw [Dict.get?_modify] at hl'
    split_ifs at hl'
    · obtain ⟨l, -, rfl⟩ := Option.map_eq_some_iff.1 hl'
      obtain rfl := Option.some.inj hm
      exact .inr (List.mem_cons_of_mem _ List.mem_cons_self)
    · exact .inl ⟨l', hl', hm⟩
  | linkDelete name =>
    rw [NetCmd.effect] at heffect
    split_ifs at heffect
    obtain rfl := Option.some.inj heffect
    rw [Dict.get?_map, Dict.get?_erase] at hl'
    obtain ⟨l, hl, rfl⟩ := Option.map_eq_some_iff.1 hl'
    split_ifs at hl
    refine .inl ⟨l, hl, ?_⟩
    split_ifs at hm
    exact hm
  | _ =>
    obtain rfl := Option.some.inj heffect
    exact .inl ⟨l', hl', hm⟩

end Commands

/-! ## Runs -/

section Runs

variable {a b lab : String} {h h' : Host} {cmd : NetCmd} {cmds : List NetCmd}
  {changes : List Change} {steps : List Step}

theorem Separate.symm (hsep : Separate a b h) : Separate b a h := ⟨hsep.right, hsep.left⟩

/-- A command for one lab leaves the interfaces of the other as they are, and the labs separate. -/
theorem Separate.outcome (hdist : Distinguishable a b) (hsep : Separate a b h)
    (hnames : cmd.names ⊆ interfaces a) (hcmd : cmd.Outcome h h') :
    Unchanged b h h' ∧ Separate a b h' := by
  rcases hcmd with rfl | heffect
  · exact ⟨fun _ _ => rfl, hsep⟩
  have hother : Unchanged b h h' := fun n hn =>
    shape_of_effect heffect (fun hmem => hdist.disjoint (hnames hmem) hn) fun l hl m hm =>
      hsep.right n hn l hl m (hnames hm)
  refine ⟨hother, fun n hn l' hl' m hm hmaster => ?_, fun n hn l' hl' m hm hmaster => ?_⟩
  · rcases master_of_effect heffect hl' hmaster with ⟨l, hl, hm'⟩ | hmem
    · exact hsep.left n hn l hl m hm hm'
    · exact hdist.disjoint (hnames hmem) hm
  · have hshape := hother n hn
    rw [hl'] at hshape
    obtain ⟨l, hl, heq⟩ := Option.map_eq_some_iff.1 hshape.symm
    have hm' : l.master = l'.master := congrArg Prod.snd heq
    exact hsep.right n hn l hl m hm (hm'.trans hmaster)

theorem Separate.executes (hdist : Distinguishable a b) (hsep : Separate a b h)
    (hnames : ∀ cmd ∈ cmds, cmd.names ⊆ interfaces a) (hexec : Executes cmds h changes h') :
    (∀ c ∈ changes, Unchanged b c.before c.after) ∧ Separate a b h' := by
  induction hexec with
  | stop => exact ⟨fun _ hc => (by cases hc), hsep⟩
  | run hcmd _ ih =>
    obtain ⟨hother, hsep'⟩ := hsep.outcome hdist (hnames _ List.mem_cons_self) hcmd
    obtain ⟨hrest, hsep''⟩ := ih hsep' fun c hc => hnames c (List.mem_cons_of_mem _ hc)
    refine ⟨fun c hc => ?_, hsep''⟩
    rcases List.mem_cons.1 hc with rfl | hc
    · exact hother
    · exact hrest c hc

/-- What is expected of a step. -/
def Respects (a b : String) (s : Step) : Prop :=
  (s.lab = a → Unchanged b s.change.before s.change.after) ∧
    (s.lab = b → Unchanged a s.change.before s.change.after)

/-- In a run of two labs that can be told apart, every step respects the other. -/
theorem Separate.run (hdist : Distinguishable a b) (hsep : Separate a b h)
    (hrun : Run a b h steps h') : (∀ s ∈ steps, Respects a b s) ∧ Separate a b h' := by
  have hne : a ≠ b := fun heq => hdist.start (heq ▸ rfl)
  induction hrun with
  | start => exact ⟨fun _ hs => (by cases hs), hsep⟩
  | call hrun hlab c hexec ih =>
    obtain ⟨hbefore, hsep'⟩ := ih
    rcases hlab with rfl | rfl
    · obtain ⟨hchanges, hsep''⟩ := hsep'.executes hdist (fun _ => c.names_subset) hexec
      refine ⟨fun s hs => ?_, hsep''⟩
      rcases List.mem_append.1 hs with hs | hs
      · exact hbefore s hs
      · obtain ⟨change, hchange, rfl⟩ := List.mem_map.1 hs
        exact ⟨fun _ => hchanges change hchange, fun heq => absurd heq hne⟩
    · obtain ⟨hchanges, hsep''⟩ := hsep'.symm.executes hdist.symm (fun _ => c.names_subset) hexec
      refine ⟨fun s hs => ?_, hsep''.symm⟩
      rcases List.mem_append.1 hs with hs | hs
      · exact hbefore s hs
      · obtain ⟨change, hchange, rfl⟩ := List.mem_map.1 hs
        exact ⟨fun heq => absurd heq.symm hne, fun _ => hchanges change hchange⟩

/-- A command of a list may succeed while the others fail. -/
theorem exists_executes (hmem : cmd ∈ cmds) (hcmd : cmd.Outcome h h') :
    ∃ changes h'', Executes cmds h changes h'' ∧ ⟨cmd, h, h'⟩ ∈ changes := by
  induction cmds with
  | nil => cases hmem
  | cons cmd' cmds ih =>
    rcases List.mem_cons.1 hmem with rfl | hmem
    · exact ⟨_, _, .run hcmd .stop, List.mem_cons_self⟩
    · obtain ⟨changes, h'', hexec, hchange⟩ := ih hmem
      exact ⟨_, _, .run (.inl rfl) hexec, List.mem_cons_of_mem _ hchange⟩

end Runs

/-! ## Labs that cannot be told apart -/

/-- A lab without devices on its master. -/
def bareTopo (lab : String) : DistributedTopology where
  name := lab
  master := { name := "master", host := "10.0.0.1", isMaster := true }
  workers := ∅
  underlayIface := "eth0"
  nodes := ∅
  links := []
  mgmt :=
    { network := Naming.mgmtNetworkName lab, bridge := Naming.mgmtBridgeName lab
      ipv4Subnet := "172.20.0.0/24", ipv4Gw := "172.20.0.1" }

/-- Its plan. -/
def barePlan (lab : String) : SchedulePlan where
  labName := lab
  assignments := ∅
  vrfTableId := Ids.vrfTableId lab
  mgmtVxlanId := Ids.mgmtVxlanId lab

/-- The setup of such a lab on its master. -/
def bareSetup (lab : String) : LabCall lab :=
  .setup (bareTopo lab) (barePlan lab) "master" (.ofList [("master", "10.0.0.1")]) rfl rfl rfl rfl

section Collisions

variable {a b : String}

/-- The interfaces that a setup creates. -/
theorem linkAdd_mem_bareSetup (lab : String) :
    .linkAdd (Naming.mgmtVxlanIface lab) (.vxlan (Ids.mgmtVxlanId lab) "eth0") ∈
        (bareSetup lab).commands ∧
      .linkAdd (Naming.mgmtBridgeName lab) .bridge ∈ (bareSetup lab).commands := by
  have hpre : (Text.split '/' "172.20.0.0/24")[1]? = some "24" := by decide
  have hip : (Dict.ofList [("master", "10.0.0.1")]).get? "master" = some "10.0.0.1" := by
    decide
  show _ ∈ (setupMgmtInfra (bareTopo lab) (barePlan lab) "master"
    (.ofList [("master", "10.0.0.1")])).toOption.getD [] ∧
    _ ∈ (setupMgmtInfra (bareTopo lab) (barePlan lab) "master"
      (.ofList [("master", "10.0.0.1")])).toOption.getD []
  rw [setupMgmtInfra]
  simp only [bareTopo, hpre, hip]
  exact ⟨by simp [Except.toOption, barePlan], by simp [Except.toOption]⟩

/-- On a host without interfaces, a lab creates each of its interfaces. -/
theorem exists_run_of_linkAdd {name : String} {kind : LinkKind}
    (hmem : .linkAdd name kind ∈ (bareSetup a).commands) : ∃ steps h',
      Run a b ⟨∅⟩ steps h' ∧
        ⟨a, .linkAdd name kind, ⟨∅⟩, ⟨(∅ : Dict String NetLink).set name { kind }⟩⟩ ∈ steps := by
  have hcmd : (NetCmd.linkAdd name kind).Outcome ⟨∅⟩ ⟨(∅ : Dict String NetLink).set name { kind }⟩ :=
    .inr rfl
  obtain ⟨changes, h'', hexec, hchange⟩ := exists_executes hmem hcmd
  exact ⟨_, _, .call .start (.inl rfl) (bareSetup a) hexec, List.mem_map_of_mem hchange⟩

/-- Isolated labs create no interface that has a name of the other. -/
theorem Isolated.notMem (hiso : Isolated a b) {name : String} {kind : LinkKind}
    (hmem : .linkAdd name kind ∈ (bareSetup a).commands) : name ∉ interfaces b := by
  intro hname
  obtain ⟨steps, h', hrun, hstep⟩ := exists_run_of_linkAdd (b := b) hmem
  have hsep : Separate a b ⟨∅⟩ := ⟨fun _ _ _ hl => (by cases hl), fun _ _ _ hl => (by cases hl)⟩
  have hsame := (hiso.commands _ _ _ hsep hrun _ hstep).1 rfl name hname
  dsimp only at hsame
  rw [Dict.get?_set_self] at hsame
  cases hsame

theorem Isolated.distinguishable (hiso : Isolated a b) : Distinguishable a b where
  start heq := by
    refine hiso.notMem (linkAdd_mem_bareSetup a).1 ?_
    rw [mgmtVxlanIface_inj.2 heq]
    exact List.mem_cons_self
  network heq := by
    refine hiso.notMem (linkAdd_mem_bareSetup a).2 ?_
    rw [mgmtBridgeName_inj.2 heq]
    exact List.mem_cons_of_mem _ List.mem_cons_self
  tables heq := hiso.tables (by rw [Ids.vrfTableId, heq, Ids.vrfTableId])
  ids heq := hiso.vnis (by rw [Ids.mgmtVxlanId, heq, Ids.mgmtVxlanId])

/-- Two labs are kept apart if and only if their names differ in the first seven characters, and in
    the first twelve that are left when they are sanitized, and their hashes modulo 900 and modulo
    1000. -/
theorem isolated_labs_iff (a b : String) : Isolated a b ↔ Distinguishable a b := by
  refine ⟨Isolated.distinguishable, fun hdist => ?_⟩
  refine ⟨fun h steps h' hsep hrun => (hsep.run hdist hrun).1, ?_, ?_, ?_⟩
  · exact fun heq => hdist.tables (Nat.add_left_cancel heq)
  · exact fun heq => hdist.ids (Nat.add_left_cancel heq)
  · exact fun heq => hdist.ids (Nat.add_left_cancel heq)

/-- Two labs whose names start alike share a VXLAN interface. -/
theorem not_isolated_network : ¬Isolated "network-a" "network-b" := fun h =>
  h.distinguishable.start (by decide)

end Collisions

end Dnlab.Netsetup
