import Dnlab.Models.Topology

/-!
# Scheduling plans

After `models/schedule.py`: what a plan says about the hosts (`assignments`)
and about the links, which are local to a host or cross hosts.
-/

namespace Dnlab

/-- The resources a virtual device needs. -/
structure VDResources where
  name : String
  image : String
  cpu : ℕ
  ramMb : ℕ
  deriving DecidableEq

/-- The weight a device is sorted by. -/
def VDResources.weight (r : VDResources) : ℕ := r.cpu * r.ramMb

/-- The resources available on a host. -/
structure HostResources where
  name : String
  host : String
  cpuAvailable : ℕ
  ramMbAvailable : ℕ
  isMaster : Bool := false
  deriving DecidableEq

/-- The devices assigned to a host. -/
structure HostAssignment where
  hostName : String
  hostIp : String
  vdNames : List String := []
  cpuUsed : ℕ := 0
  ramMbUsed : ℕ := 0
  deriving DecidableEq

/-- A link between two hosts, carried by a VXLAN tunnel. -/
structure CrossHostLink where
  vxlanId : ℕ
  sourceNode : String
  sourceIface : String
  targetNode : String
  targetIface : String
  sourceHost : String
  targetHost : String
  sourceHostIface : String := ""
  targetHostIface : String := ""
  deriving DecidableEq

/-- A complete scheduling plan. -/
structure SchedulePlan where
  labName : String
  assignments : Dict String HostAssignment
  crossHostLinks : List CrossHostLink := []
  localLinks : List Link := []
  vrfTableId : ℕ := 0
  mgmtVxlanId : ℕ := 0
  deriving DecidableEq

namespace SchedulePlan

/-- The first host a device is assigned to. -/
def hostForVd (plan : SchedulePlan) (vdName : String) : Option String :=
  plan.assignments.items.findSome? fun (hostName, assignment) =>
    if vdName ∈ assignment.vdNames then some hostName else none

theorem hostForVd_eq_some {plan : SchedulePlan} {vd host : String}
    (h : plan.hostForVd vd = some host) :
    ∃ a, plan.assignments.get? host = some a ∧ vd ∈ a.vdNames := by
  obtain ⟨⟨host', a⟩, ha, h'⟩ := List.exists_of_findSome?_eq_some h
  dsimp only at h'
  split at h' <;> simp only [Option.some.injEq, reduceCtorEq] at h'
  exact ⟨a, Dict.get?_eq_some_iff.2 (h' ▸ ha), ‹_›⟩

theorem hostForVd_eq_none {plan : SchedulePlan} {vd : String} :
    plan.hostForVd vd = none ↔ ∀ host a, plan.assignments.get? host = some a → vd ∉ a.vdNames := by
  simp [hostForVd, List.findSome?_eq_none_iff, Dict.get?_eq_some_iff]

end SchedulePlan

end Dnlab
