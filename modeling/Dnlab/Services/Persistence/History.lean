import Dnlab.Services.Persistence
import Dnlab.Services.Scheduler.Assignment

/-!
# The placement history

Where persistent devices last ran, after `services/persistence.py`: what is saved
of a plan, and the preferences that a deployment takes from it. A deployment
keeps a device on the host that its history names, when it fits there; a device
that a plan leaves out is forgotten.
-/

namespace Dnlab.Persistence

variable {topo : DistributedTopology} {history : Dict String String} {plan : SchedulePlan}
  {vdName host : String} {node : VDNode}

/-- `load_placement_preferences`, of a history that was read. -/
def loadPlacementPreferences (topo : DistributedTopology) (history : Dict String String) :
    Dict String String :=
  .ofList (topo.nodes.items.filterMap fun (vdName, node) =>
    (oldHostOf history vdName node).map (vdName, ·))

/-- The placements that `save_placement_history` writes. -/
def placementsOf (topo : DistributedTopology) (plan : SchedulePlan) : Dict String String :=
  .ofList ((persistentVds topo).filterMap fun (vdName, node) =>
    (newHostOf plan vdName).map (persistKey vdName node, ·))

/-- A deployment prefers the host that the history names. -/
theorem get?_loadPlacementPreferences (hnode : topo.nodes.get? vdName = some node)
    (hlast : oldHostOf history vdName node = some host) :
    (loadPlacementPreferences topo history).get? vdName = some host := by
  have hsub : ((topo.nodes.items.filterMap fun (vdName, node) =>
      (oldHostOf history vdName node).map (vdName, ·)).map Prod.fst).Sublist topo.nodes.keys := by
    rw [Dict.keys]
    generalize topo.nodes.items = l
    induction l with
    | nil => exact .slnil
    | cons e l ih =>
      rw [List.filterMap_cons]
      dsimp only
      rcases oldHostOf history e.1 e.2 with _ | h
      · exact ih.cons _
      · exact ih.cons_cons _
  refine (Dict.get?_ofList_of_nodup (topo.nodes.nodup_keys.sublist hsub)).2 ?_
  refine List.mem_filterMap.2 ⟨(vdName, node), Dict.get?_eq_some_iff.1 hnode, ?_⟩
  dsimp only
  rw [hlast]
  rfl

/-- A deployment puts a device on the host that the history names, whenever it fits there. -/
theorem bestHost_of_history {hosts : Dict String HostResources} {p : Scheduler.Placement}
    {vd : VDResources} (hnode : topo.nodes.get? vd.name = some node)
    (hlast : oldHostOf history vd.name node = some host) (hknown : host ∈ hosts.keys)
    (hfit : Scheduler.canFit p vd host = true) :
    Scheduler.bestHost hosts (loadPlacementPreferences topo history) p vd = some host :=
  Scheduler.bestHost_of_sticks ⟨get?_loadPlacementPreferences hnode hlast, hknown, hfit⟩

end Dnlab.Persistence
