import Dnlab.Controllers.Node.Frame
import Dnlab.Services.Scheduler.Assignment

/-!
# The scheduling books

The state says twice where the devices are: in the record of each device, and
in the lists of the hosts, next to the sum of what their devices need. The two
agree (`Booked`) as long as every operation changes both: `add` does, `remove`
takes a device off the list of its host and leaves the sum.
-/

namespace Dnlab.Node

open Ctl

/-- The list of a host, empty if it has no entry. -/
def vdOn (scheduling : Dict String HostScheduleState) (host : String) : List String :=
  ((scheduling.get? host).map (·.vd)).getD []

/-- Each host lists the devices deployed on it, once each, and the sum of what they need. -/
structure Booked (placed : Dict String VDResources) (st : DeploymentState) : Prop where
  nodup : ∀ host, (vdOn st.scheduling host).Nodup
  mem_iff : ∀ host n, n ∈ vdOn st.scheduling host ↔
    ∃ r, st.nodeRuntime.get? n = some r ∧ r.host = host
  used : ∀ host s, st.scheduling.get? host = some s → s.resourcesUsed = needed placed s.vd
  known : ∀ n ∈ st.nodeRuntime.keys, n ∈ placed.keys

section Needed

variable {placed : Dict String VDResources} {vds : List String}

/-- What is needed with and without a device. -/
theorem needed_filter {node : String} {r : VDResources} (hr : placed.get? node = some r)
    (hvds : vds.Nodup) (hn : node ∈ vds) : needed placed vds =
      ⟨(needed placed (vds.filter (· ≠ node))).cpu + r.cpu,
        (needed placed (vds.filter (· ≠ node))).ramMb + r.ramMb⟩ := by
  have hperm : vds.Perm (vds.filter (· ≠ node) ++ [node]) := by
    refine (List.perm_cons_erase hn).trans ?_
    rw [hvds.erase_eq_filter]
    refine (List.perm_append_singleton _ _).symm.trans (List.Perm.of_eq ?_)
    congr 1
    exact List.filter_congr fun n _ => Bool.eq_iff_iff.2 (by simp)
  rw [needed_perm hperm, needed_append hr]

end Needed

namespace Booked

variable {placed placed' : Dict String VDResources} {st st' : DeploymentState} {node host : String}

theorem mem_keys_of_mem (h : Booked placed st) {n : String} (hn : n ∈ vdOn st.scheduling host) :
    n ∈ st.nodeRuntime.keys := by
  obtain ⟨r, hr, -⟩ := (h.mem_iff host n).1 hn
  exact Dict.mem_keys_iff.2 ⟨r, hr⟩

/-- The books depend only on where the devices are and on the lists. -/
theorem congr (h : Booked placed st)
    (hhost : ∀ n, (st'.nodeRuntime.get? n).map (·.host) = (st.nodeRuntime.get? n).map (·.host))
    (hsched : st'.scheduling = st.scheduling)
    (hplaced : ∀ n ∈ st.nodeRuntime.keys, placed'.get? n = placed.get? n) : Booked placed' st' := by
  have hkeys : ∀ n, n ∈ st'.nodeRuntime.keys ↔ n ∈ st.nodeRuntime.keys := fun n => by
    rw [← Dict.contains_iff, ← Dict.contains_iff, Dict.contains, Dict.contains,
      ← Option.isSome_map (f := fun r : NodeRuntimeState => r.host), hhost, Option.isSome_map]
  refine ⟨fun host => hsched ▸ h.nodup host, fun host n => ?_, fun host s hs => ?_, fun n hn => ?_⟩
  · rw [hsched, h.mem_iff]
    have hiff : ∀ d : Dict String NodeRuntimeState, (∃ r, d.get? n = some r ∧ r.host = host) ↔
        (d.get? n).map (·.host) = some host := fun d => by rw [Option.map_eq_some_iff]
    rw [hiff, hiff, hhost]
  · rw [hsched] at hs
    rw [h.used host s hs]
    have hon : ∀ n ∈ s.vd, n ∈ vdOn st.scheduling host := fun n hn => by rwa [vdOn, hs]
    exact (needed_congr fun n hn => hplaced n (h.mem_keys_of_mem (hon n hn))).symm
  · have hn' := (hkeys n).1 hn
    rw [Dict.mem_keys_iff, hplaced n hn', ← Dict.mem_keys_iff]
    exact h.known n hn'

theorem of_alike (h : Booked placed st) (ha : Alike node st st') : Booked placed st' :=
  h.congr ha.host ha.scheduling fun _ _ => rfl

/-- No device is on two hosts. -/
theorem host_unique (h : Booked placed st) {n host' : String} (hn : n ∈ vdOn st.scheduling host)
    (hn' : n ∈ vdOn st.scheduling host') : host = host' := by
  obtain ⟨r, hr, rfl⟩ := (h.mem_iff host n).1 hn
  obtain ⟨r', hr', rfl⟩ := (h.mem_iff host' n).1 hn'
  rw [hr] at hr'
  rw [Option.some.inj hr']

end Booked

/-! ## Adding a device -/

section Add

variable {placed : Dict String VDResources} {topo : DistributedTopology} {st : DeploymentState}
  {node host : String} {requirement : VDResources} {underlay : Dict String String}

/-- The devices deployed on a host, in the order of their records. -/
def deployedOn (st : DeploymentState) (host : String) : List String :=
  (st.nodeRuntime.items.filter fun e => e.2.host = host).map Prod.fst

theorem mem_deployedOn {n : String} :
    n ∈ deployedOn st host ↔ ∃ r, st.nodeRuntime.get? n = some r ∧ r.host = host := by
  simp [deployedOn, Dict.get?_eq_some_iff]

theorem nodup_deployedOn : (deployedOn st host).Nodup :=
  st.nodeRuntime.nodup_keys.sublist (List.filter_sublist.map _)

theorem Booked.perm (h : Booked placed st) :
    (deployedOn st host).Perm (vdOn st.scheduling host) :=
  (List.perm_ext_iff_of_nodup nodup_deployedOn (h.nodup host)).2 fun n => by
    rw [mem_deployedOn, h.mem_iff]

/-- The recorded resources of a host are what its devices need. -/
theorem Booked.get?_runtimeAssignments (h : Booked placed st) {a : HostAssignment}
    (ha : (runtimeAssignments topo st).get? host = some a) :
    a.vdNames = deployedOn st host ∧
      (⟨a.cpuUsed, a.ramMbUsed⟩ : ResourcesUsed) = needed placed (deployedOn st host) := by
  rw [runtimeAssignments, Dict.get?_map, Option.map_eq_some_iff] at ha
  obtain ⟨a₀, ha₀, rfl⟩ := ha
  rw [assignmentsOf, Dict.get?_map, Option.map_eq_some_iff] at ha₀
  obtain ⟨infra, -, rfl⟩ := ha₀
  have hperm : (deployedOn st host).Perm (vdOn st.scheduling host) := h.perm
  cases hs : st.scheduling.get? host with
  | none =>
    rw [vdOn, hs] at hperm
    have hnil : deployedOn st host = [] := List.perm_nil.1 hperm
    exact ⟨rfl, by rw [hnil]; rfl⟩
  | some s =>
    rw [vdOn, hs] at hperm
    exact ⟨rfl, (h.used host s hs).trans (needed_perm hperm).symm⟩

/-- The assignments with a device on a host. -/
def assignmentsWith (topo : DistributedTopology) (st : DeploymentState) (node host : String)
    (requirement : VDResources) : Dict String HostAssignment :=
  (runtimeAssignments topo st).modify host fun a =>
    Scheduler.HostAssignment.add a node requirement.cpu requirement.ramMb

/-- The entry of a host for what it is assigned. -/
def entryOf (underlay : Dict String String) (host : String) (a : HostAssignment) :
    Option HostScheduleState :=
  if a.vdNames = [] then none
  else some
    { host := underlay.getD host a.hostIp
      topologyFile := ""
      vd := a.vdNames
      resourcesUsed := ⟨a.cpuUsed, a.ramMbUsed⟩ }

theorem get?_updatedScheduling {plan : SchedulePlan} (h : String) :
    (updatedScheduling st plan underlay).get? h =
      ((plan.assignments.get? h).map (entryOf underlay h)).getD (st.scheduling.get? h) := by
  rw [updatedScheduling]
  refine Dict.get?_foldl_items (entryOf underlay) (fun acc k a k' => ?_) st.scheduling h
  unfold entryOf
  dsimp only
  split
  · rw [Dict.get?_erase]
  · rw [Dict.get?_set]

theorem vd_entryOf (a : HostAssignment) :
    ((entryOf underlay host a).map (·.vd)).getD [] = a.vdNames := by
  unfold entryOf
  split
  · exact (‹a.vdNames = []›).symm
  · rfl

/-- The assignments of a host, with the device on it if it is the chosen one. -/
theorem Booked.get?_assignmentsWith (h : Booked placed st) (hnode : node ∉ st.nodeRuntime.keys)
    {h' : String} {a : HostAssignment}
    (ha : (assignmentsWith topo st node host requirement).get? h' = some a) :
    a.vdNames = deployedOn st h' ++ (if h' = host then [node] else []) ∧
      (⟨a.cpuUsed, a.ramMbUsed⟩ : ResourcesUsed) =
        needed (placed.set node requirement) a.vdNames := by
  have hold : needed (placed.set node requirement) (deployedOn st h') =
      needed placed (deployedOn st h') := needed_congr fun n hn => by
    refine Dict.get?_set_of_ne _ _ fun hn' => hnode ?_
    obtain ⟨r, hr, -⟩ := mem_deployedOn.1 hn
    exact hn' ▸ Dict.mem_keys_iff.2 ⟨r, hr⟩
  rw [assignmentsWith, Dict.get?_modify] at ha
  split at ha
  · rename_i heq
    obtain ⟨a₀, ha₀, rfl⟩ := Option.map_eq_some_iff.1 ha
    obtain ⟨hvd, hused⟩ := h.get?_runtimeAssignments ha₀
    rw [if_pos heq]
    refine ⟨congrArg (· ++ [node]) hvd, ?_⟩
    show (⟨a₀.cpuUsed + requirement.cpu, a₀.ramMbUsed + requirement.ramMb⟩ : ResourcesUsed) =
      needed _ (a₀.vdNames ++ [node])
    rw [hvd, needed_append (Dict.get?_set_self _ _ _), hold, ← hused]
  · rename_i hne
    obtain ⟨hvd, hused⟩ := h.get?_runtimeAssignments ha
    rw [if_neg hne, List.append_nil]
    exact ⟨hvd, by rw [hvd, hold, hused]⟩

/-- Adding a device keeps the books. -/
theorem Booked.register (h : Booked placed st) (hnode : node ∉ st.nodeRuntime.keys)
    (hhost : host ∈ topo.allHosts.keys) {runtime : NodeRuntimeState} (hr : runtime.host = host)
    {plan : SchedulePlan}
    (hplan : plan.assignments = assignmentsWith topo st node host requirement)
    {reservations : Dict String String} :
    Booked (placed.set node requirement)
      (withNode st node runtime reservations plan underlay) := by
  have hkeys : ∀ h', h' ∈ (assignmentsWith topo st node host requirement).keys ↔
      h' ∈ topo.allHosts.keys := fun h' => by
    rw [assignmentsWith, Dict.keys_modify, runtimeAssignments, Dict.keys_map, assignmentsOf,
      Dict.keys_map]
  -- A host is planned for, or it is another one and keeps its entry.
  have hget : ∀ h', (∃ a, (assignmentsWith topo st node host requirement).get? h' = some a ∧
      vdOn (updatedScheduling st plan underlay) h' = a.vdNames) ∨
      h' ≠ host ∧ (assignmentsWith topo st node host requirement).get? h' = none ∧
      vdOn (updatedScheduling st plan underlay) h' = vdOn st.scheduling h' := by
    intro h'
    cases ha : (assignmentsWith topo st node host requirement).get? h' with
    | none =>
      refine .inr ⟨?_, rfl, by rw [vdOn, get?_updatedScheduling, hplan, ha]; rfl⟩
      rintro rfl
      exact Dict.get?_eq_none_iff.1 ha ((hkeys h').2 hhost)
    | some a =>
      refine .inl ⟨a, rfl, ?_⟩
      rw [vdOn, get?_updatedScheduling, hplan, ha]
      exact vd_entryOf a
  -- The new device is deployed on its host, and nothing else changes.
  have hon : ∀ h' n, (∃ r, (st.nodeRuntime.set node runtime).get? n = some r ∧ r.host = h') ↔
      n ∈ deployedOn st h' ∨ n = node ∧ h' = host := by
    intro h' n
    rw [Dict.get?_set, mem_deployedOn]
    by_cases hn : n = node
    · subst hn
      simp [Dict.get?_eq_none_iff.2 hnode, hr, eq_comm]
    · simp [hn]
  constructor <;> simp only [withNode_scheduling, withNode_nodeRuntime]
  · intro h'
    rcases hget h' with ⟨a, ha, hvd⟩ | ⟨-, -, hvd⟩
    · -- The new device was not on the host before.
      rw [hvd, (h.get?_assignmentsWith hnode ha).1]
      split
      · refine List.nodup_append.2 ⟨nodup_deployedOn, List.nodup_singleton _, ?_⟩
        rintro n hn n' hn' rfl
        obtain ⟨r, hr', -⟩ := mem_deployedOn.1 hn
        exact hnode (List.mem_singleton.1 hn' ▸ Dict.mem_keys_iff.2 ⟨r, hr'⟩)
      · rw [List.append_nil]
        exact nodup_deployedOn
    · rw [hvd]
      exact h.nodup h'
  · intro h' n
    refine Iff.trans ?_ (hon h' n).symm
    rcases hget h' with ⟨a, ha, hvd⟩ | ⟨hne, -, hvd⟩
    · rw [hvd, (h.get?_assignmentsWith hnode ha).1, List.mem_append]
      by_cases hh : h' = host <;> simp [hh]
    · rw [hvd, h.mem_iff, ← mem_deployedOn]
      simp [hne]
  · -- The resources of a host are those of its devices, whether or not the new one is there.
    intro h' s hs
    rw [get?_updatedScheduling, hplan] at hs
    cases ha : (assignmentsWith topo st node host requirement).get? h' with
    | none =>
      rw [ha] at hs
      rw [Option.map_none, Option.getD_none] at hs
      rw [h.used h' s hs]
      refine (needed_congr fun n hn => Dict.get?_set_of_ne _ _ fun hn' => hnode ?_).symm
      have hon : n ∈ vdOn st.scheduling h' := by rwa [vdOn, hs]
      exact hn' ▸ h.mem_keys_of_mem hon
    | some a =>
      rw [ha] at hs
      rw [Option.map_some, Option.getD_some, entryOf] at hs
      split at hs
      · exact absurd hs (by simp)
      · rw [← Option.some.inj hs]
        exact (h.get?_assignmentsWith hnode ha).2
  · intro n hn
    rw [Dict.mem_keys_set] at hn ⊢
    exact hn.imp_right (h.known n)

end Add

/-! ## Removing a device -/

/-- Taking a device off the list of its host leaves the sum right: the list has no other device, or
    the device needs nothing. -/
def LeavesNothing (placed : Dict String VDResources) (st : DeploymentState) (node : String) : Prop :=
  ∀ r, st.nodeRuntime.get? node = some r →
    (∀ n r', st.nodeRuntime.get? n = some r' → r'.host = r.host → n = node) ∨
    ∀ q, placed.get? node = some q → q.cpu = 0 ∧ q.ramMb = 0

section Remove

variable {placed : Dict String VDResources} {st : DeploymentState} {node host : String}
  {r : NodeRuntimeState}

theorem get?_unschedule {scheduling : Dict String HostScheduleState} (h : String) :
    (unschedule scheduling node host).get? h =
      if h = host then (scheduling.get? host).bind fun s =>
        if s.vd.filter (· ≠ node) = [] then none else some { s with vd := s.vd.filter (· ≠ node) }
      else scheduling.get? h := by
  unfold unschedule
  cases hs : scheduling.get? host with
  | none =>
    by_cases heq : h = host
    · rw [if_pos heq, heq]
      exact hs
    · rw [if_neg heq]
  | some s =>
    dsimp only [Option.bind_some]
    split
    · rw [Dict.get?_erase]
    · rw [Dict.get?_set]

theorem vdOn_unschedule {scheduling : Dict String HostScheduleState} (h : String) :
    vdOn (unschedule scheduling node host) h =
      if h = host then (vdOn scheduling h).filter (· ≠ node) else vdOn scheduling h := by
  rw [vdOn, get?_unschedule]
  split
  · rename_i heq
    rw [heq, vdOn]
    cases scheduling.get? host with
    | none => rfl
    | some s =>
      rw [Option.bind_some]
      split
      · rename_i hnil
        exact hnil.symm
      · rfl
  · rfl

/-- Removing a device keeps the books just if the sum of its host stays right. -/
theorem Booked.forget_iff (h : Booked placed st) (hr : st.nodeRuntime.get? node = some r) :
    Booked placed (forget st node r.host) ↔ LeavesNothing placed st node := by
  obtain ⟨q, hq⟩ := Dict.mem_keys_iff.1 (h.known node (Dict.mem_keys_iff.2 ⟨r, hr⟩))
  have hmem : node ∈ vdOn st.scheduling r.host := (h.mem_iff _ _).2 ⟨r, hr, rfl⟩
  obtain ⟨s, hs⟩ : ∃ s, st.scheduling.get? r.host = some s := by
    by_contra hnone
    rw [vdOn, Option.eq_none_iff_forall_ne_some.2 fun s hs => hnone ⟨s, hs⟩] at hmem
    exact absurd hmem (by simp)
  have hvd : vdOn st.scheduling r.host = s.vd := by rw [vdOn, hs]; rfl
  rw [hvd] at hmem
  -- The host has no other device just if nothing is left of its list.
  have halone : s.vd.filter (· ≠ node) = [] ↔
      ∀ n r', st.nodeRuntime.get? n = some r' → r'.host = r.host → n = node := by
    rw [List.filter_eq_nil_iff]
    refine ⟨fun hall n r' hn hh => ?_, fun hall n hn => ?_⟩
    · have := hall n (hvd ▸ (h.mem_iff _ _).2 ⟨r', hn, hh⟩)
      simpa using this
    · obtain ⟨r', hr', hh⟩ := (h.mem_iff r.host n).1 (hvd.symm ▸ hn)
      simpa using hall n r' hr' hh
  have hsum := needed_filter hq (hvd ▸ h.nodup r.host) hmem
  rw [← h.used _ _ hs] at hsum
  have hfree : LeavesNothing placed st node ↔ s.vd.filter (· ≠ node) = [] ∨
      s.resourcesUsed = needed placed (s.vd.filter (· ≠ node)) := by
    have hzero : (∀ q', placed.get? node = some q' → q'.cpu = 0 ∧ q'.ramMb = 0) ↔
        s.resourcesUsed = needed placed (s.vd.filter (· ≠ node)) := by
      rw [hsum]
      refine ⟨fun hz => ?_, fun heq q' hq' => ?_⟩
      · obtain ⟨hc, hm⟩ := hz q hq
        rw [hc, hm]
        rfl
      · rw [hq] at hq'
        obtain rfl := Option.some.inj hq'
        obtain ⟨hc, hm⟩ := ResourcesUsed.mk.inj heq
        exact ⟨Nat.add_eq_left.1 hc, Nat.add_eq_left.1 hm⟩
    rw [halone, ← hzero]
    refine ⟨fun hl => hl r hr, fun hl r' hr' => ?_⟩
    rw [hr] at hr'
    exact Option.some.inj hr' ▸ hl
  have hmemKeys : ∀ n, n ∈ (forget st node r.host).nodeRuntime.keys →
      n ∈ st.nodeRuntime.keys := fun n hn => (Dict.mem_keys_erase.1 hn).2
  rw [hfree]
  refine ⟨fun hb => ?_, fun hb => ⟨fun h' => ?_, fun h' n => ?_, fun h' s' hs' => ?_,
    fun n hn => h.known n (hmemKeys n hn)⟩⟩
  · by_cases hnil : s.vd.filter (· ≠ node) = []
    · exact .inl hnil
    · refine .inr (hb.used r.host { s with vd := s.vd.filter (· ≠ node) } ?_)
      rw [forget, get?_unschedule, if_pos rfl, hs, Option.bind_some, if_neg hnil]
  · rw [forget, vdOn_unschedule]
    split
    · exact (h.nodup h').filter _
    · exact h.nodup h'
  · rw [forget, vdOn_unschedule, Dict.get?_erase]
    by_cases hn : n = node
    · subst hn
      have hne : h' ≠ r.host → n ∉ vdOn st.scheduling h' := fun hne hin => by
        obtain ⟨r', hr', rfl⟩ := (h.mem_iff _ _).1 hin
        rw [hr] at hr'
        exact hne (congrArg NodeRuntimeState.host (Option.some.inj hr')).symm
      by_cases hh : h' = r.host <;> simp [hh, hne]
    · rw [if_neg hn, ← h.mem_iff]
      split <;> simp [hn]
  · rw [forget, get?_unschedule] at hs'
    split at hs'
    · rw [hs, Option.bind_some] at hs'
      split at hs'
      · exact absurd hs' (by simp)
      · rename_i hnil
        rw [← Option.some.inj hs']
        exact hb.resolve_left hnil
    · exact h.used h' s' hs'

end Remove

/-! ## The operations -/

section Operations

variable {ρ : Type} {S : Services ρ} {node : String}

/-- The books in memory and those that are saved. -/
def BooksKept (w : World ρ) : Prop := Booked w.placed w.state ∧ Booked w.placed w.saved

theorem Steady.booksKept {w w' : World ρ} (h : Steady node w w') (hw : BooksKept w) :
    BooksKept w' := by
  rw [BooksKept, h.placed]
  refine ⟨hw.1.of_alike h.state, ?_⟩
  rcases h.saved with hs | hs
  · rw [hs]
    exact hw.2
  · exact hw.1.of_alike hs

/-- The world of an `add` that has not registered its device. -/
structure Unregistered (before : DeploymentState) (hosts : Dict String InfraHost) (node : String)
    (w : World ρ) : Prop where
  notMem : node ∉ before.nodeRuntime.keys
  old : Booked w.placed before
  saved : Booked w.placed w.saved
  runtime : w.state.nodeRuntime = before.nodeRuntime
  scheduling : w.state.scheduling = before.scheduling
  hosts : w.topo.allHosts = hosts

/-- The world of an `add` that has registered its device. -/
structure Registered (before : DeploymentState) (node : String) (w : World ρ) : Prop where
  old : Booked w.placed before
  state : Booked w.placed w.state
  saved : Booked w.placed w.saved
  others : w.state.nodeRuntime.erase node = before.nodeRuntime

section Add

variable {before : DeploymentState} {hosts : Dict String InfraHost} {clients : Clients}

theorem Unregistered.booked {w : World ρ} (h : Unregistered before hosts node w) :
    Booked w.placed w.state :=
  h.old.congr (fun n => by rw [h.runtime]) h.scheduling fun _ _ => rfl

theorem Steady.unregistered {w w' : World ρ} (h : Steady node w w')
    (hw : Unregistered before hosts node w) : Unregistered before hosts node w' where
  notMem := hw.notMem
  old := h.placed ▸ hw.old
  saved := (h.booksKept ⟨hw.booked, hw.saved⟩).2
  runtime := by
    have hnot : node ∉ w.state.nodeRuntime.keys := hw.runtime ▸ hw.notMem
    have hnot' : node ∉ w'.state.nodeRuntime.keys := h.state.keys ▸ hnot
    rw [← Dict.erase_of_notMem hnot', h.state.others, Dict.erase_of_notMem hnot, hw.runtime]
  scheduling := h.state.scheduling.trans hw.scheduling
  hosts := h.hosts.trans hw.hosts

theorem Steady.registered {w w' : World ρ} (h : Steady node w w')
    (hw : Registered before node w) : Registered before node w' where
  old := h.placed ▸ hw.old
  state := (h.booksKept ⟨hw.state, hw.saved⟩).1
  saved := (h.booksKept ⟨hw.state, hw.saved⟩).2
  others := h.state.others.trans hw.others

/-- What an `add` that has not registered its device may do to the state. -/
theorem Unregistered.set {w : World ρ} (h : Unregistered before hosts node w)
    {st : DeploymentState} (hr : st.nodeRuntime = w.state.nodeRuntime)
    (hs : st.scheduling = w.state.scheduling) :
    Unregistered before hosts node { w with state := st } :=
  ⟨h.notMem, h.old, h.saved, hr.trans h.runtime, hs.trans h.scheduling, h.hosts⟩

theorem keeps_ensureMgmtAnchor {host : String} {plan : SchedulePlan} :
    Prog.Keeps (Unregistered before hosts node) (ensureMgmtAnchor S clients host plan) := by
  have hrun : ∀ cmd : Cmd, Prog.Keeps (Unregistered before hosts node)
      (remotely (clients.run S.backend host cmd true)) := fun cmd =>
    steady_remotely.keeps fun _ _ => Steady.unregistered
  refine .bind .get fun w => .ite (fun _ => .pure _) fun _ => .ite (fun _ => .raise _) fun _ => ?_
  refine .bind (hrun _) fun _ => .bind (hrun _) fun _ => .bind (.modify fun w hw => ?_) fun _ => ?_
  · exact hw.set rfl rfl
  · refine .bind (.modify fun w hw => ?_) fun _ => .pure _
    exact ⟨hw.notMem, hw.old, hw.booked, hw.runtime, hw.scheduling, hw.hosts⟩

theorem keeps_allocateNodeWebui :
    Prog.Keeps (Unregistered before hosts node) (allocateNodeWebui S node) := by
  refine .bind .get fun w => .bind ?_ fun _ => .when fun _ => .modify fun w hw => ?_
  · exact (steady_of_routine routine_allocatePorts).keeps fun _ _ => Steady.unregistered
  · exact hw.set rfl rfl

/-- A plan for the device on a host. -/
def IsPlanFor (topo : DistributedTopology) (before : DeploymentState) (node host : String)
    (requirement : VDResources) (plan : SchedulePlan) : Prop :=
  host ∈ topo.allHosts.keys ∧
    plan.assignments = assignmentsWith topo before node host requirement

theorem planWithAddedNode_spec {topo : DistributedTopology} {host : String}
    {requirement : VDResources} :
    Prog.Triple (Unregistered before topo.allHosts node)
      (planWithAddedNode node host requirement : Ctl ρ SchedulePlan)
      (fun plan w => Unregistered before topo.allHosts node w ∧
        IsPlanFor topo before node host requirement plan)
      fun _ => Unregistered before topo.allHosts node := by
  intro w hw
  rw [planWithAddedNode]
  have hsame : runtimeAssignments w.topo w.state = runtimeAssignments topo before := by
    simp only [runtimeAssignments, assignmentsOf, hw.hosts, hw.runtime, hw.scheduling]
  simp only [Prog.run_bind, Prog.run_get, hsame]
  cases hget : (runtimeAssignments topo before).get? host with
  | none => exact hw
  | some a =>
    have hmem : host ∈ topo.allHosts.keys := by
      have := Dict.mem_keys_iff.2 ⟨a, hget⟩
      rwa [runtimeAssignments, Dict.keys_map, assignmentsOf, Dict.keys_map] at this
    dsimp only
    rw [run_placeLinks]
    cases h : Scheduler.classifyLinks w.topo (assignedPlan w.topo
        (assignmentsWith topo before node host requirement)) true with
    | error e =>
      rw [assignmentsWith] at h
      rw [h]
      exact hw
    | ok r =>
      obtain ⟨_, _, _, -, -, ht, hp⟩ := Scheduler.classifyLinks_eq_ok h
      rw [assignmentsWith] at h
      rw [h]
      refine ⟨⟨hw.notMem, hw.old, hw.saved, hw.runtime, hw.scheduling, ?_⟩, hmem, ?_⟩
      · show r.1.allHosts = _
        rw [ht]
        exact hw.hosts
      · show r.2.assignments = _
        rw [hp]
        rfl

theorem planPlace_spec {topo : DistributedTopology} {host : String} {requirement : VDResources} :
    Prog.Triple (Unregistered before topo.allHosts node)
      (planPlace S clients node host requirement)
      (fun plan w => Unregistered before topo.allHosts node w ∧
        IsPlanFor topo before node host requirement plan)
      fun _ => Unregistered before topo.allHosts node := by
  have hsteady : ∀ {α : Type} {p : Ctl ρ α}, Prog.Within (Steady node) p →
      Prog.Triple (Unregistered before topo.allHosts node) p
        (fun _ => Unregistered before topo.allHosts node)
        fun _ => Unregistered before topo.allHosts node := fun h =>
    .of_keeps (h.keeps fun _ _ => Steady.unregistered)
  refine .bind (hsteady (steady_of_routine routine_checkCancelled)) fun _ => ?_
  refine .bind (hsteady (steady_of_routine Calm.topo')) fun _ => ?_
  refine .bind (hsteady (.ofExcept _)) fun _ => .bind (hsteady steady_remotely) fun _ => ?_
  refine .bind (.modify fun w hw => ?_) fun _ => planWithAddedNode_spec
  exact ⟨hw.notMem, hw.old, hw.saved, hw.runtime, hw.scheduling, hw.hosts⟩

/-- Registering a device keeps the books. -/
theorem registerNode_spec {topo : DistributedTopology} {host : String} {requirement : VDResources}
    {plan : SchedulePlan} {runtime : NodeRuntimeState} {reservations underlay : Dict String String}
    {E : Err → World ρ → Prop}
    (hplan : IsPlanFor topo before node host requirement plan) (hr : runtime.host = host) :
    Prog.Triple (Unregistered before topo.allHosts node)
      (registerNode node runtime reservations plan underlay requirement)
      (fun _ => Registered before node) E := by
  intro w hw
  have hnot : node ∉ w.state.nodeRuntime.keys := hw.runtime ▸ hw.notMem
  have hassign : assignmentsWith topo before node host requirement =
      assignmentsWith topo w.state node host requirement := by
    simp only [assignmentsWith, runtimeAssignments, hw.runtime, hw.scheduling]
  have hbooked : Booked (w.placed.set node requirement)
      (withNode w.state node runtime reservations plan underlay) :=
    hw.booked.register hnot hplan.1 hr (hplan.2.trans hassign)
  have hstart : Alike node (withNode w.state node runtime reservations plan underlay) _ :=
    .modifyRuntime (f := fun r => { r with state := .starting }) fun _ => rfl
  have hstate := hbooked.of_alike hstart
  refine ⟨hw.old.congr (fun _ => rfl) rfl fun n hn => ?_, hstate, hstate, ?_⟩
  · exact Dict.get?_set_of_ne _ _ fun h => hw.notMem (h ▸ hn)
  · exact hstart.others.trans ((Dict.erase_set_of_notMem _ hnot).trans hw.runtime)

/-- Before its device is registered. -/
def BeforeAdd (before : DeploymentState) (hosts : Dict String InfraHost) (node : String)
    (t : World ρ × AddLocals) : Prop :=
  Unregistered before hosts node t.1 ∧ t.2.registered = false

/-- After its device is registered. -/
def AfterAdd (before : DeploymentState) (node : String) (t : World ρ × AddLocals) : Prop :=
  Registered before node t.1 ∧ t.2.registered = true

/-- Where an `add` may break off. -/
def DuringAdd (before : DeploymentState) (hosts : Dict String InfraHost) (node : String) (_ : Err)
    (t : World ρ × AddLocals) : Prop :=
  BeforeAdd before hosts node t ∨ AfterAdd before node t

/-- The steps of an `add` before its device is registered. -/
theorem beforeAdd_lift {α : Type} {p : Ctl ρ α}
    (h : Prog.Keeps (Unregistered before hosts node) p) :
    Prog.Triple (BeforeAdd before hosts node) p.lift (fun _ => BeforeAdd before hosts node)
      (DuringAdd before hosts node) :=
  (Prog.Triple.lift (.of_keeps h) fun l : AddLocals => l.registered = false).weaken (fun _ => id)
    (fun _ _ => id) fun _ _ => .inl

/-- The steps of an `add` after its device is registered. -/
theorem afterAdd_lift {α : Type} {p : Ctl ρ α} (h : Prog.Within (Steady node) p) :
    Prog.Triple (AfterAdd before node) p.lift (fun _ => AfterAdd before node)
      (DuringAdd before hosts node) :=
  (Prog.Triple.lift (.of_keeps (h.keeps fun _ _ => Steady.registered)) fun l : AddLocals =>
    l.registered = true).weaken (fun _ => id) (fun _ _ => id) fun _ _ => .inr

/-- The body of `add` keeps the books, wherever it breaks off. -/
theorem addSteps_spec {topo : DistributedTopology} {reservations : Dict String String} :
    Prog.Triple (BeforeAdd before topo.allHosts node) (addSteps S clients node reservations)
      (fun _ => AfterAdd before node) (DuringAdd before topo.allHosts node) := by
  have hset : ∀ {f : AddLocals → AddLocals}, (∀ l, (f l).registered = l.registered) →
      Prog.Triple (BeforeAdd before topo.allHosts node) (.setLocals f : AddProg ρ Unit)
        (fun _ => BeforeAdd before topo.allHosts node) (DuringAdd before topo.allHosts node) :=
    fun hf => .modify fun t ht => ⟨ht.1, (hf _).trans ht.2⟩
  have hpure : ∀ {α : Type} (x : Except Err α), Prog.Triple
      (BeforeAdd before topo.allHosts node) (.ofExcept x : AddProg ρ α)
        (fun a t => BeforeAdd before topo.allHosts node t ∧ x = .ok a)
        (DuringAdd before topo.allHosts node) := fun x =>
    (Prog.Triple.ofExcept x).weaken (fun _ => id) (fun _ _ => id) fun _ _ => .inl
  refine .bind (beforeAdd_lift ((steady_of_routine routine_choosePlace).keeps fun _ _ =>
    Steady.unregistered)) fun ⟨host, requirement, underlay⟩ => ?_
  refine .bind (hset fun _ => rfl) fun _ => ?_
  have hplace : Prog.Triple (BeforeAdd before topo.allHosts node)
      (planPlace S clients node host requirement).lift
      (fun plan t => BeforeAdd before topo.allHosts node t ∧
        IsPlanFor topo before node host requirement plan) (DuringAdd before topo.allHosts node) :=
    (Prog.Triple.lift planPlace_spec fun l : AddLocals => l.registered = false).weaken (fun _ => id)
      (fun _ _ h => ⟨⟨h.1.1, h.2⟩, h.1.2⟩) fun _ _ => .inl
  refine .bind hplace fun plan => .of_and fun hplan => ?_
  refine .bind (beforeAdd_lift keeps_ensureMgmtAnchor) fun _ => .bind (hset fun _ => rfl) fun _ => ?_
  refine .bind (beforeAdd_lift keeps_allocateNodeWebui) fun _ => ?_
  refine .bind (beforeAdd_lift .get) fun w => .bind (hpure _) fun files => .of_and fun _ => ?_
  refine .bind (hset fun _ => rfl) fun _ => .bind (hpure _) fun content => .of_and fun _ => ?_
  refine .bind (hpure _) fun runtime => .of_and fun hr => ?_
  have hregister : Prog.Triple (BeforeAdd before topo.allHosts node)
      (registerNode node runtime reservations plan underlay requirement : Ctl ρ Unit).lift
      (fun _ t => Registered before node t.1) (DuringAdd before topo.allHosts node) :=
    (Prog.Triple.lift (registerNode_spec (E := fun _ _ => False) hplan (newRuntime_eq_ok hr).2)
      fun l : AddLocals => l.registered = false).weaken (fun _ => id) (fun _ _ h => h.1)
      fun _ _ h => h.1.elim
  -- From here on a failure has to take the registration back.
  refine .bind hregister fun _ =>
    .bind (Q := fun _ => AfterAdd before node) (.modify fun t ht => ⟨ht, rfl⟩) fun _ => ?_
  refine .bind (afterAdd_lift (steady_of_works works_deployNode)) fun _ => ?_
  refine .bind (afterAdd_lift (steady_of_routine routine_rebuildLinks)) fun links => ?_
  refine .bind (afterAdd_lift steady_setLinks) fun _ => ?_
  exact .bind (Q := fun _ => AfterAdd before node) (.modify fun t ht => ht) fun _ =>
    afterAdd_lift steady_activateNode

theorem Registered.booksKept {w : World ρ} (h : Registered before node w) : BooksKept w :=
  ⟨h.state, h.saved⟩

theorem Unregistered.booksKept {w : World ρ} (h : Unregistered before hosts node w) :
    BooksKept w :=
  ⟨h.booked, h.saved⟩

/-- A program that leaves the devices where they are keeps the books. -/
theorem keeps_of_steady (node : String) {α : Type} {p : Ctl ρ α} (h : Prog.Within (Steady node) p) :
    Prog.Keeps BooksKept p :=
  h.keeps fun _ _ => Steady.booksKept

theorem keeps_dropAnchor {host : String} : Prog.Keeps BooksKept (dropAnchor S clients host) := by
  refine .bind (keeps_of_steady "" (steady_of_routine Calm.state')) fun _ => ?_
  refine .bind (.modify fun w hw => ⟨?_, hw.2⟩) fun _ => ?_
  · exact hw.1.congr (fun _ => rfl) rfl fun _ _ => rfl
  · split
    · exact .pure _
    · refine .bind (keeps_of_steady "" (steady_of_works works_runNoCheck)) fun _ => .pure _

/-- The world of a rollback: the device is off the records, the lists are still to be restored. -/
structure TakenBack (before : DeploymentState) (w : World ρ) : Prop where
  old : Booked w.placed before
  saved : Booked w.placed w.saved
  runtime : w.state.nodeRuntime = before.nodeRuntime

/-- A rollback keeps the books, even where it breaks off. -/
theorem rollbackAdd_spec {l : AddLocals} {e : Err} :
    Prog.Triple (fun w => DuringAdd before hosts node e (w, l))
      (rollbackAdd S clients node before l e) (fun _ => BooksKept) fun _ => BooksKept := by
  have hkeep : ∀ {α : Type} {p : Ctl ρ α}, Prog.Within (Steady node) p →
      Prog.Triple BooksKept p (fun _ => BooksKept) fun _ => BooksKept := fun h =>
    .of_keeps (keeps_of_steady node h)
  have hunregister : Prog.Triple (fun w => DuringAdd before hosts node e (w, l))
      ((unregisterNode S clients node).when l.registered) (fun _ => TakenBack before)
      fun _ => BooksKept := by
    cases hreg : l.registered with
    | false =>
      refine .pure fun w hw => ?_
      rcases hw with hw | hw
      · exact ⟨hw.1.old, hw.1.saved, hw.1.runtime⟩
      · exact absurd (hreg.symm.trans hw.2) (by decide)
    | true =>
      refine .bind (Q := fun _ => Registered before node) ?_ fun _ => .modify fun w hw => ?_
      · refine Prog.Triple.weaken (.of_keeps (P := Registered before node)
          (steady_onLinks.keeps fun _ _ => Steady.registered)) (fun w hw => ?_)
          (fun _ _ => id) fun _ _ => Registered.booksKept
        rcases hw with hw | hw
        · exact absurd (hreg.symm.trans hw.2) (by decide)
        · exact hw.1
      · exact ⟨hw.old, hw.saved, hw.others⟩
  refine .bind hunregister fun _ => .bind (Q := fun _ => BooksKept) (.modify fun w hw => ?_)
    fun _ => ?_
  · refine ⟨hw.old.congr (fun n => ?_) rfl fun _ _ => rfl, hw.saved⟩
    exact congrArg (fun d : Dict String NodeRuntimeState => (d.get? n).map (·.host)) hw.runtime
  · refine .bind (hkeep (steady_of_routine routine_syncVxlanState)) fun _ => ?_
    refine .bind (hkeep (.when fun _ => steady_of_works works_dropContainer)) fun _ => ?_
    refine .bind (.of_keeps (Prog.Keeps.when fun _ => keeps_dropAnchor)) fun _ => ?_
    refine .bind (hkeep (.quietly (steady_of_routine routine_refreshSharedServices))) fun _ => ?_
    exact .bind (hkeep (steady_of_routine Calm.save)) fun _ => hkeep (.raise _)

theorem handleAdd_spec {l : AddLocals} {e : Err} :
    Prog.Triple (fun w => DuringAdd before hosts node e (w, l))
      (handleAdd S clients node before e l) (fun _ => BooksKept) fun _ => BooksKept := by
  have hbooks : ∀ w : World ρ, DuringAdd before hosts node e (w, l) → BooksKept w := fun w hw =>
    hw.elim (fun h => h.1.booksKept) fun h => h.1.booksKept
  have hcancel : Prog.Triple (fun w => DuringAdd before hosts node e (w, l))
      (cancelStartedNode S clients node) (fun _ => BooksKept) fun _ => BooksKept :=
    (Prog.Triple.of_keeps (keeps_of_steady node steady_cancelStartedNode)).weaken hbooks (fun _ _ => id)
      fun _ _ => id
  unfold handleAdd
  split
  · unfold Prog.when
    split
    · exact hcancel
    · exact .pure hbooks
  · refine .bind (Q := fun _ w => DuringAdd before hosts node e (w, l)) ?_ fun c => ?_
    · refine Prog.Triple.weaken (.of_keeps (P := fun w => DuringAdd before hosts node e (w, l))
        ((steady_of_routine routine_cancelled : Prog.Within (Steady node) _).keeps ?_)) (fun _ => id)
        (fun _ _ => id) fun _ => hbooks
      intro w w' hs hw
      exact hw.imp (fun h => ⟨hs.unregistered h.1, h.2⟩) fun h => ⟨hs.registered h.1, h.2⟩
    · split
      · exact hcancel
      · exact rollbackAdd_spec

/-- Adding a device that is not deployed keeps the books, however it ends. -/
theorem addNew_booksKept {w : World ρ} (hw : BooksKept w) (hnode : node ∉ w.state.nodeRuntime.keys) :
    BooksKept ((addNew S node).run w).2 := by
  have hstart : Unregistered w.state w.topo.allHosts node w :=
    ⟨hnode, hw.1, hw.2, rfl, rfl, rfl⟩
  have hkeep : ∀ {α : Type} {p : Ctl ρ α}, Prog.Keeps (Unregistered w.state w.topo.allHosts node) p →
      Prog.Triple (Unregistered w.state w.topo.allHosts node) p
        (fun _ => Unregistered w.state w.topo.allHosts node) fun _ => BooksKept := fun h =>
    (Prog.Triple.of_keeps h).weaken (fun _ => id) (fun _ _ => id) fun _ _ => Unregistered.booksKept
  rw [addNew, Prog.run_bind_ok (Prog.run_get w)]
  refine Prog.Triple.run_both (P := Unregistered w.state w.topo.allHosts node) ?_ hstart
  refine .bind (hkeep (.ofExcept _)) fun ⟨addresses, reservations⟩ => ?_
  refine .bind (Q := fun _ => Unregistered w.state w.topo.allHosts node)
    (.modify fun w' h => ⟨h.notMem, h.old, h.saved, h.runtime, h.scheduling, h.hosts⟩) fun _ => ?_
  refine .bind (hkeep ((steady_of_routine routine_createClients).keeps fun _ _ =>
    Steady.unregistered)) fun clients => ?_
  refine .withLocals (DuringAdd w.state w.topo.allHosts node) ?_ fun e l => handleAdd_spec
  exact addSteps_spec.weaken (fun t h => ⟨h.1, by rw [h.2]⟩) (fun _ _ h => h.1.booksKept)
    fun _ _ => id

theorem keeps_add : Prog.Keeps BooksKept (add S node) := by
  refine .bind (keeps_of_steady node (steady_of_routine routine_checkCancelled)) fun _ => ?_
  refine .bind (keeps_of_steady node (steady_of_routine routine_ensureDeployed)) fun _ => ?_
  refine .bind (keeps_of_steady node (steady_of_routine routine_ensureHotAddSupported))
    fun _ => .get_bind fun w hw => ?_
  split
  · refine Prog.Keeps.bind ?_ (fun _ => keeps_of_steady node steady_startRuntime) w hw
    exact keeps_of_steady node (steady_of_routine routine_checkCancelled)
  · rename_i hnode
    split
    · exact addNew_booksKept hw fun h => hnode (Dict.contains_iff.2 h)
    · exact hw

end Add

theorem keeps_start : Prog.Keeps BooksKept (start S node) := by
  refine .bind (keeps_of_steady node (steady_of_routine routine_checkCancelled)) fun _ => ?_
  refine .bind (keeps_of_steady node (steady_of_routine Calm.state')) fun st => ?_
  split
  · exact keeps_of_steady node steady_startRuntime
  · exact keeps_add

/-- The world of a `remove` before it forgets its device, which was deployed on `host`. -/
structure Removable (node host : String) (w : World ρ) : Prop where
  books : BooksKept w
  host : (w.state.nodeRuntime.get? node).map (·.host) = some host
  leaves : LeavesNothing w.placed w.state node

theorem Steady.removable {host : String} {w w' : World ρ} (h : Steady node w w')
    (hw : Removable node host w) : Removable node host w' := by
  refine ⟨h.booksKept hw.books, (h.state.host node).trans hw.host, fun r hr => ?_⟩
  have hback : ∀ n r', w'.state.nodeRuntime.get? n = some r' →
      ∃ r₀, w.state.nodeRuntime.get? n = some r₀ ∧ r₀.host = r'.host := fun n r' hr' => by
    have := h.state.host n
    rw [hr', Option.map_some] at this
    exact Option.map_eq_some_iff.1 this.symm
  obtain ⟨r₀, hr₀, hh⟩ := hback node r hr
  rw [h.placed]
  refine (hw.leaves r₀ hr₀).imp_left fun halone n r' hr' hh' => ?_
  obtain ⟨r₁, hr₁, hh₁⟩ := hback n r' hr'
  exact halone n r₁ hr₁ (hh₁.trans (hh'.trans hh.symm))

theorem remove_booksKept {w : World ρ} (hw : BooksKept w)
    (hleaves : LeavesNothing w.placed w.state node) : BooksKept ((remove S node).run w).2 := by
  have hkeep : ∀ {α : Type} {p : Ctl ρ α}, Prog.Within (Steady node) p →
      Prog.Triple BooksKept p (fun _ => BooksKept) fun _ => BooksKept := fun h =>
    .of_keeps (keeps_of_steady node h)
  -- An unknown device ends the operation at once.
  cases hr : w.state.nodeRuntime.get? node with
  | none =>
    have hrun : (remove S node).run w =
        (.error (lifecycleError ("Unknown runtime VD '" ++ node ++ "'")), w) := by
      refine Prog.run_bind_error ?_
      rw [runtimeOf, Prog.run_bind_ok (show state.run w = (.ok w.state, w) from rfl), hr]
      rfl
    rw [hrun]
    exact hw
  | some runtime =>
    have hstart : Removable node runtime.host w := ⟨hw, by rw [hr]; rfl, hleaves⟩
    have hruntime : (runtimeOf node : Ctl ρ NodeRuntimeState).run w = (.ok runtime, w) := by
      rw [runtimeOf, Prog.run_bind_ok (show state.run w = (.ok w.state, w) from rfl), hr]
      rfl
    -- Until the books are changed, the device can still be taken off them.
    have hstep : ∀ {α : Type} {p : Ctl ρ α}, Prog.Within (Steady node) p →
        Prog.Triple (Removable node runtime.host) p (fun _ => Removable node runtime.host)
          fun _ => BooksKept := fun h =>
      (Prog.Triple.of_keeps (h.keeps fun _ _ => Steady.removable)).weaken (fun _ => id)
        (fun _ _ => id) fun _ _ => Removable.books
    rw [remove, Prog.run_bind_ok hruntime]
    refine Prog.Triple.run_both (P := Removable node runtime.host) ?_ hstart
    refine .bind (hstep (steady_of_routine routine_ensureDeployed)) fun _ => ?_
    refine .bind (hstep (steady_of_routine routine_ensurePerVdRuntime)) fun _ => ?_
    refine .bind (hstep (.when fun _ => steady_stop)) fun _ => ?_
    refine .bind (hstep (steady_of_routine routine_createClients)) fun clients => ?_
    refine .bind (hstep (steady_of_routine routine_connect)) fun _ => ?_
    refine .bind (Q := fun _ => BooksKept) (.modify fun w' h => ⟨?_, h.books.2⟩) fun _ => ?_
    · -- The device is taken off the books.
      obtain ⟨r, hr', hh⟩ := Option.map_eq_some_iff.1 h.host
      exact hh ▸ (h.books.1.forget_iff hr').2 h.leaves
    · refine .bind (hkeep (steady_of_routine routine_syncVxlanState)) fun _ => ?_
      refine .bind (hkeep (steady_of_routine Calm.state')) fun _ => ?_
      refine .bind (.of_keeps (Prog.Keeps.when fun _ => keeps_dropAnchor)) fun _ => ?_
      refine .bind (hkeep (steady_of_routine routine_refreshSharedServices)) fun _ => ?_
      exact hkeep (steady_of_routine Calm.save)

/-- A step keeps the books if a device that it removes leaves the sum of its host right. -/
def BooksCondition (_ : DistributedTopology) (op : Op) (lab : Lab ρ) : Prop :=
  ∀ node, op = .remove node → LeavesNothing lab.placed lab.saved node

/-- What an operation makes of the books. -/
theorem perform_booked {topo : DistributedTopology} {op : Op} {lab : Lab ρ}
    (hP : BooksCondition topo op lab) (h : Booked lab.placed lab.saved) :
    Booked (lab.perform S topo op).2.placed (lab.perform S topo op).2.saved := by
  have hopen : BooksKept (openLab topo lab.saved lab.remote lab.placed) := ⟨h, h⟩
  have hkeep : Prog.Keeps BooksKept (op.prog S) →
      Booked (lab.perform S topo op).2.placed (lab.perform S topo op).2.saved := fun hk =>
    (hk _ hopen).2
  cases op with
  | start node => exact hkeep keeps_start
  | stop node force => exact hkeep (keeps_of_steady node steady_stop)
  | restart node =>
    exact hkeep (.bind (keeps_of_steady node steady_stop) fun _ => keeps_start)
  | add node => exact hkeep keeps_add
  | remove node => exact (remove_booksKept hopen (hP node rfl)).2
  | reconcile node => exact hkeep (keeps_of_steady "" steady_reconcile)
  | reconcileLink nodeA ifaceA nodeB ifaceB realNet =>
    exact hkeep (keeps_of_steady "" steady_reconcileLink)

end Operations

end Dnlab.Node
