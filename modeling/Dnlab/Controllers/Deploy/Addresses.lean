import Dnlab.Controllers.Node.Addresses
import Dnlab.Controllers.Deploy.Bookkeeping

/-!
# Live addresses over the life of a lab

A deployment records every device with the address that it is assigned, and
those differ. Later an `add` assigns addresses to the whole topology again, as
that has been edited, and records only that of its own device: the others keep
the one that they booted with. So the addresses stay apart as long as nothing
that is live is given away (`distinct_of_life`).
-/

namespace Dnlab.Deploy

open Ctl
open Node (Recorded DistinctIps)

/-! ## Before the devices are deployed -/

/-- A step of a deployment that saves nothing, records no device and leaves the addresses of the
    topology alone. -/
structure Idle {ρ : Type} (w w' : World ρ) : Prop where
  saved : w'.saved = w.saved
  records : w'.state.nodeRuntime = w.state.nodeRuntime
  addresses : (w'.topo.nodes.map fun _ vd => vd.mgmtIpv4) =
    w.topo.nodes.map fun _ vd => vd.mgmtIpv4

section Idle

variable {ρ α : Type} {S : DeployServices ρ} {clients : Clients} {plan : SchedulePlan}
  {underlay : Dict String String} {host : String}

instance : Std.Refl (@Idle ρ) where
  refl _ := ⟨rfl, rfl, rfl⟩

instance : IsTrans (World ρ) Idle where
  trans _ _ _ h h' :=
    ⟨h'.saved.trans h.saved, h'.records.trans h.records, h'.addresses.trans h.addresses⟩

theorem idle_remotely {p : Prog (Remote ρ) Err α} : Prog.Within Idle (Ctl.remotely p) :=
  fun _ => ⟨rfl, rfl, rfl⟩

theorem idle_topo : Prog.Within Idle (Ctl.topo : Ctl ρ DistributedTopology) :=
  .bind .get fun _ => .pure _

theorem idle_modifyState {f : DeploymentState → DeploymentState}
    (hf : ∀ st, (f st).nodeRuntime = st.nodeRuntime) :
    Prog.Within Idle (Ctl.modifyState f : Ctl ρ Unit) :=
  fun w => ⟨rfl, hf w.state, rfl⟩

theorem idle_extractResources : Prog.Within Idle (extractResources S) := by
  refine .bind idle_topo fun t => .bind (.mapEach fun e _ => ?_) fun _ => .pure _
  exact .bind idle_remotely fun r => .pure _

theorem idle_createClients : Prog.Within Idle (Node.createClients : Ctl ρ Clients) :=
  .bind idle_topo fun _ => .pure _

theorem idle_connect : Prog.Within Idle (Node.connect S.toServices clients) :=
  .forEach fun _ _ => .bind idle_remotely fun _ => .pure _

theorem idle_completePhase {phase : String} :
    Prog.Within Idle (completePhase phase : Ctl ρ Unit) :=
  idle_modifyState fun _ => rfl

/-- The environment of a device is no part of its address. -/
theorem idle_inspectImage {name : String} {vd : VDNode} :
    Prog.Within Idle (inspectImage S clients plan name vd) := by
  refine .when fun _ => .bind (.ite (fun _ => .pure _) fun _ => idle_remotely) fun env w => ?_
  exact ⟨rfl, rfl, Dict.map_modify (d := w.topo.nodes) (k := name)
    (f := fun vd => { vd with env := env }) fun _ => rfl⟩

theorem idle_resolveUnderlayIps : Prog.Within Idle (resolveUnderlayIps S clients) := by
  refine .bind idle_topo fun t => .bind (.mapEach fun host _ => ?_) fun _ => .pure _
  exact .bind idle_remotely fun r => .ite (fun _ => .raise _) fun _ => .pure _

theorem idle_raiseMgmtFailure {results : List (String × Except Err Unit)} :
    Prog.Within Idle (raiseMgmtFailure results : Ctl ρ Unit) := by
  refine .forEach fun ⟨host, r⟩ _ => ?_
  rcases r with e | _
  · exact .raise _
  · exact .pure _

theorem idle_deployMgmt : Prog.Within Idle (deployMgmt S clients plan underlay) := by
  refine .bind idle_topo fun t => .bind (within_inParallel fun host => idle_remotely) fun results =>
    .bind idle_raiseMgmtFailure fun _ => .bind (.when fun _ => idle_remotely) fun _ => ?_
  exact .bind (idle_modifyState fun _ => rfl) fun _ => idle_completePhase

theorem idle_allocatePorts {cfg : WebUIPortsCfg} {hints : Dict ℕ ℕ} {used : List ℕ}
    {wishlist : List WebUISpec} :
    Prog.Within Idle (Node.allocatePorts S.toServices cfg hints used wishlist) := by
  induction wishlist generalizing used with
  | nil => exact .pure _
  | cons spec specs ih =>
    exact .ite (fun _ => ih) fun _ => .bind idle_remotely fun port => .bind ih fun _ => .pure _

theorem idle_allocateAll {cfg : WebUIPortsCfg} {previous : Dict String (List WebUIAllocation)}
    {used : List ℕ} {wishlists : List (String × List WebUISpec)} :
    Prog.Within Idle (allocateAll S cfg previous used wishlists) := by
  induction wishlists generalizing used with
  | nil => exact .pure _
  | cons _ _ ih => exact .bind idle_allocatePorts fun _ => .bind ih fun _ => .pure _

theorem idle_allocateWebuiPorts {previous : Option DeploymentState} :
    Prog.Within Idle (allocateWebuiPorts S previous) := by
  refine .bind idle_topo fun t => .when fun _ => .bind idle_allocateAll fun _ => ?_
  exact .bind (idle_modifyState fun _ => rfl) fun _ => idle_completePhase

theorem idle_deployRealnets : Prog.Within Idle (deployRealnets S underlay) := by
  refine .bind idle_topo fun t => .when fun _ => .bind idle_remotely fun _ => ?_
  exact .bind (idle_modifyState fun _ => rfl) fun _ => idle_completePhase

theorem idle_deployMgmtAnchors : Prog.Within Idle (deployMgmtAnchors S clients plan) := by
  refine .when fun _ => .bind idle_completePhase fun _ => .forEach fun host _ => ?_
  refine .bind idle_topo fun t => .bind idle_remotely fun _ => .bind (.rescue ?_ fun _ => .raise _)
    fun _ => idle_modifyState fun _ => rfl
  exact .bind idle_remotely fun _ => .pure _

theorem idle_makeDirs {vdNames : List String} :
    Prog.Within Idle (makeDirs S clients host vdNames) :=
  .bind idle_topo fun _ => .bind (.ofExcept _) fun _ => .when fun _ =>
    .bind idle_remotely fun _ => .pure _

theorem idle_uploadIn {path content : String} :
    Prog.Within Idle (Node.uploadIn S.toServices clients host path content) :=
  .bind idle_remotely fun _ => .bind idle_remotely fun _ => .pure _

end Idle

/-! ## The records of a deployment -/

section Phases

variable {ρ : Type} {S : DeployServices ρ} {clients : Clients} {plan : SchedulePlan}
  {underlay : Dict String String} {saved : DeploymentState} {A : String → String → Prop}

/-- The world of a deployment: nothing is saved, and `A` holds of what is recorded. -/
structure Noted (A : String → String → Prop) (saved : DeploymentState) (w : World ρ) : Prop where
  saved : w.saved = saved
  records : Recorded A w.state

/-- Nothing is saved, and `A` holds of the addresses of the topology. -/
structure Addressed (A : String → String → Prop) (saved : DeploymentState) (w : World ρ) :
    Prop where
  saved : w.saved = saved
  topo : ∀ n vd, w.topo.nodes.get? n = some vd → A n vd.mgmtIpv4

/-- `A` holds of the addresses of the topology and of what is recorded. -/
structure Assigned (A : String → String → Prop) (saved : DeploymentState) (w : World ρ) : Prop
    extends Addressed A saved w where
  records : Recorded A w.state

theorem Idle.addressed {w w' : World ρ} (h : Idle w w') (hw : Addressed A saved w) :
    Addressed A saved w' := by
  refine ⟨h.saved.trans hw.saved, fun n vd hvd => ?_⟩
  have hget := congrArg (Dict.get? · n) h.addresses
  simp only [Dict.get?_map, hvd, Option.map_some] at hget
  obtain ⟨vd₀, hvd₀, heq⟩ := Option.map_eq_some_iff.1 hget.symm
  exact heq ▸ hw.topo n vd₀ hvd₀

theorem Idle.assigned {w w' : World ρ} (h : Idle w w') (hw : Assigned A saved w) :
    Assigned A saved w' :=
  ⟨h.addressed hw.toAddressed, hw.records.congr h.records⟩

theorem Phase.noted {Q : Event → Prop} {w w' : World ρ} (h : Phase Q w w')
    (hw : Noted A saved w) : Noted A saved w' :=
  ⟨h.saved.trans hw.saved, hw.records.of_places h.places⟩

theorem assigned_of_idle {α : Type} {p : Ctl ρ α} (h : Prog.Within Idle p) :
    Prog.Triple (Assigned A saved) p (fun _ => Assigned A saved) fun _ => Assigned A saved :=
  .of_keeps (h.keeps fun _ _ => Idle.assigned)

/-- A device is recorded with the address that the topology has for it. -/
theorem deployVd_address {host name : String} {content : ClabDict} :
    Prog.Triple (Assigned A saved) (deployVd S clients host name content)
      (fun (r : NodeRuntimeState) w => Assigned A saved w ∧ A r.node r.mgmtIpv4)
      fun _ => Assigned A saved := by
  have htopo : Prog.Triple (Assigned A saved) (Ctl.topo : Ctl ρ DistributedTopology)
      (fun t w => Assigned A saved w ∧ ∀ n vd, t.nodes.get? n = some vd → A n vd.mgmtIpv4)
      fun _ => Assigned A saved := fun w hw => ⟨hw, hw.topo⟩
  refine .bind htopo fun t => .of_and fun ht => .bind (assigned_of_idle idle_remotely) fun _ => ?_
  refine .bind (assigned_of_idle (.rescue (.bind idle_remotely fun _ => .pure _) fun _ => .raise _))
    fun _ => (Prog.Triple.ofExcept _).weaken (fun _ => id) (fun r w hw => ⟨hw.1, ?_⟩) fun _ _ => id
  obtain ⟨vd, hvd, haddr⟩ := Node.mgmtIpv4_of_newRuntime hw.2
  rw [(Node.newRuntime_eq_ok hw.2).1, haddr]
  exact ht name vd hvd

theorem recordHosts_address {results : List (String × Except Err (List NodeRuntimeState))}
    (h : ∀ e ∈ results, ∀ runtimes, e.2 = .ok runtimes → ∀ r ∈ runtimes, A r.node r.mgmtIpv4) :
    Prog.Keeps (Assigned A saved) (recordHosts results : Ctl ρ Unit) := by
  refine .forEach fun ⟨host, r⟩ he => ?_
  rcases r with e | runtimes
  · exact .raise _
  · refine .modify fun w hw => ⟨⟨hw.saved, hw.topo⟩, hw.records.update fun e he' => ?_⟩
    obtain ⟨r, hr, rfl⟩ := List.mem_map.1 he'
    exact h _ he runtimes rfl r hr

theorem deployClab_address : Prog.Triple (Assigned A saved) (deployClab S clients plan underlay)
    (fun _ => Assigned A saved) fun _ => Assigned A saved := by
  refine .bind (Q := fun _ => Assigned A saved) (.get fun _ => id) fun w₀ => ?_
  refine .bind (.of_keeps (Prog.Keeps.ofExcept _)) fun files => ?_
  refine .bind (assigned_of_idle (.forEach fun ⟨host, a⟩ _ => idle_makeDirs)) fun _ => ?_
  refine .bind (assigned_of_idle (.forEach fun ⟨host, a⟩ _ => .forEach fun ⟨path, content⟩ _ =>
    idle_uploadIn)) fun _ => ?_
  have hhost : ∀ host, Prog.Triple (Assigned A saved) (deployHost S clients files host)
      (fun runtimes w => Assigned A saved w ∧ List.Forall₂
        (fun _ (r : NodeRuntimeState) => A r.node r.mgmtIpv4) (files.getD host ∅).items runtimes)
      fun _ => Assigned A saved := fun host =>
    .mapEach fun ⟨name, content⟩ _ => deployVd_address
  refine .bind (inParallel_spec hhost) fun results => .of_and fun ⟨order, _, hall⟩ => ?_
  refine .bind (.of_keeps (recordHosts_address fun e he runtimes hok r hr => ?_)) fun _ => ?_
  · obtain ⟨host, -, -, hhosts⟩ := ExceptRules.forall₂_exists hall he
    obtain ⟨_, -, haddr⟩ := ExceptRules.forall₂_exists (hhosts runtimes hok) hr
    exact haddr
  · refine .bind (.of_keeps (Prog.Keeps.ofExcept _)) fun entries => ?_
    exact .bind (assigned_of_idle (idle_modifyState fun _ => rfl)) fun _ =>
      assigned_of_idle idle_completePhase

theorem noted_of_minor {α : Type} {p : Ctl ρ α} (h : Minor p) : Prog.Keeps (Noted A saved) p :=
  h.keeps fun _ _ => Phase.noted

theorem noted_deployRuntimeLinks :
    Prog.Keeps (Noted A saved) (deployRuntimeLinks S clients plan underlay) := by
  have hcreate : ∀ {links : List RuntimeLinkState},
      Prog.Keeps (Noted A saved) (createLinks S clients underlay links) := fun {links} => by
    refine .bind (noted_of_minor Phase.state) fun st => .bind (fun w hw => ⟨hw.saved, hw.records⟩)
      fun ⟨links', err⟩ => ?_
    rcases err with _ | e
    · exact .pure links'
    · exact .raise e
  refine .bind (noted_of_minor Phase.topo) fun t => .bind (.ofExcept _) fun links =>
    .when fun _ => .bind hcreate fun links' => .bind (.modify fun w hw => ?_) fun _ =>
      noted_of_minor minor_completePhase
  exact ⟨hw.saved, hw.records⟩

/-- What a deployment leaves on disk: what was there, or what it has recorded. -/
def Filed (A : String → String → Prop) (saved : DeploymentState) (w : World ρ) : Prop :=
  w.saved = saved ∨ Recorded A w.saved

/-- The phases save what they have recorded, if they succeed. -/
theorem deployPhases_address {previous : Option DeploymentState}
    {resources : Dict String VDResources} :
    Prog.Triple (Assigned A saved) (deployPhases S clients plan previous resources)
      (fun _ w => Recorded A w.saved) fun _ => Filed A saved := by
  have hidle : ∀ {α : Type} {p : Ctl ρ α}, Prog.Within Idle p → Prog.Triple (Assigned A saved) p
      (fun _ => Assigned A saved) fun _ => Filed A saved := fun h =>
    (assigned_of_idle h).weaken (fun _ => id) (fun _ _ => id) fun _ _ hw => .inl hw.saved
  have hnoted : ∀ {α : Type} {p : Ctl ρ α}, Prog.Keeps (Noted A saved) p → Prog.Triple
      (Noted A saved) p (fun _ => Noted A saved) fun _ => Filed A saved := fun h =>
    (Prog.Triple.of_keeps h).weaken (fun _ => id) (fun _ _ => id) fun _ _ hw => .inl hw.saved
  have hminor : ∀ {α : Type} {p : Ctl ρ α}, Minor p → Prog.Triple (Noted A saved) p
      (fun _ => Noted A saved) fun _ => Filed A saved := fun h => hnoted (noted_of_minor h)
  -- Until the devices are deployed, no step touches the records.
  refine .bind (hidle idle_connect) fun _ => .bind (hidle idle_topo) fun t => ?_
  refine .bind (hidle (.forEach fun ⟨name, vd⟩ _ => idle_inspectImage)) fun _ => ?_
  refine .bind (hidle idle_resolveUnderlayIps) fun underlay => .bind (hidle idle_deployMgmt) fun _ => ?_
  refine .bind (hidle idle_allocateWebuiPorts) fun _ => .bind (hidle idle_deployRealnets) fun _ => ?_
  refine .bind (hidle idle_topo) fun t => .bind (hidle idle_remotely) fun _ => ?_
  refine .bind (hidle idle_completePhase) fun _ => .bind (hidle idle_deployMgmtAnchors) fun _ => ?_
  refine .bind (Q := fun _ => Noted A saved) (deployClab_address.weaken (fun _ => id)
    (fun _ _ hw => ⟨hw.saved, hw.records⟩) fun _ _ hw => .inl hw.saved) fun _ => ?_
  refine .bind (hminor minor_healthCheckVds) fun _ => .bind (hnoted noted_deployRuntimeLinks)
    fun _ => ?_
  refine .bind (hminor minor_deployRuntimeRelays) fun _ => .bind (hminor minor_deployDns) fun _ => ?_
  refine .bind (hminor minor_deployJumphost) fun _ => .bind (hminor minor_setVdDefaultRoutes)
    fun _ => .bind (hminor minor_verify) fun _ => ?_
  refine .bind (Q := fun _ w => Recorded A w.saved) (.modify fun w hw => hw.records) fun _ => ?_
  exact (Prog.Triple.of_keeps fun w hw => hw).weaken (fun _ => id) (fun _ _ => id) fun _ _ => .inr

/-- The addresses that a plan assigns differ. -/
theorem makePlan_address (hS : S.assignStickyMgmtIpv4 = Config.assignStickyMgmtIpv4)
    {previous : Option DeploymentState} :
    Prog.Triple (fun w => w.saved = saved) (makePlan S previous)
      (fun _ w => ∃ addresses : Dict String String,
        (∀ n n' t, addresses.get? n = some t → addresses.get? n' = some t → n = n') ∧
          Addressed (fun n t => addresses.get? n = some t) saved w)
      fun _ w => w.saved = saved := by
  refine .bind (Q := fun t w => w.saved = saved ∧ w.topo = t) (fun w hw => ⟨hw, rfl⟩) fun t => ?_
  refine .bind ((Prog.Triple.ofExcept _).weaken (fun _ => id) (fun _ _ => id) fun _ _ hw => hw.1)
    fun assigned => .of_and fun hassign => ?_
  obtain ⟨addresses, reservations⟩ := assigned
  rw [hS] at hassign
  have hidle : ∀ {α : Type} {p : Ctl ρ α}, Prog.Within Idle p →
      Prog.Triple (Addressed (fun n t => addresses.get? n = some t) saved) p
        (fun _ => Addressed (fun n t => addresses.get? n = some t) saved)
        fun _ w => w.saved = saved := fun h =>
    (Prog.Triple.of_keeps (h.keeps fun _ _ => Idle.addressed)).weaken (fun _ => id)
      (fun _ _ => id) fun _ _ hw => hw.saved
  refine .bind (Q := fun _ => Addressed (fun n t => addresses.get? n = some t) saved)
    (.modify fun w hw => ⟨hw.1, fun n vd hvd => ?_⟩) fun _ => ?_
  · -- Every device of the topology has been assigned an address.
    rw [hw.2, Dict.get?_map] at hvd
    obtain ⟨vd₀, hvd₀, rfl⟩ := Option.map_eq_some_iff.1 hvd
    have hmem : n ∈ addresses.keys :=
      (Config.keys_of_assign hassign).symm ▸ Dict.mem_keys_iff.2 ⟨vd₀, hvd₀⟩
    obtain ⟨ip, hip⟩ := Dict.mem_keys_iff.1 hmem
    rw [Dict.getD, hip, Option.getD_some]
  · refine .bind (hidle idle_extractResources) fun resources => ?_
    refine .bind (hidle idle_createClients) fun clients => .bind (hidle idle_connect) fun _ => ?_
    have htopo : Prog.Triple (Addressed (fun n t => addresses.get? n = some t) saved)
        (Ctl.topo : Ctl ρ DistributedTopology)
        (fun t w => Addressed (fun n t => addresses.get? n = some t) saved w ∧
          ∀ n vd, t.nodes.get? n = some vd → addresses.get? n = some vd.mgmtIpv4)
        fun _ w => w.saved = saved := fun w hw => ⟨hw, hw.topo⟩
    refine .bind htopo fun t => .of_and fun ht => .bind (hidle idle_remotely) fun _ => ?_
    refine .bind (hidle idle_remotely) fun hosts => .bind (hidle idle_remotely) fun prefs => ?_
    refine .bind ((Prog.Triple.ofExcept _).weaken (fun _ => id) (fun _ _ => id) fun _ _ hw =>
      hw.saved) fun scheduled => .of_and fun hplan => ?_
    obtain ⟨t', plan⟩ := scheduled
    obtain ⟨_, _, -, -, rfl, -⟩ := Scheduler.computeSchedule_eq_ok hplan
    refine .bind (Q := fun _ => Addressed (fun n t => addresses.get? n = some t) saved)
      (.modify fun w hw => ⟨hw.saved, ht⟩) fun _ => .pure fun w hw => ⟨addresses, ?_, hw⟩
    exact fun n n' t => Config.distinct_of_assign hassign

/-- A deployment saves addresses that differ, or nothing. -/
theorem run_address (hS : S.assignStickyMgmtIpv4 = Config.assignStickyMgmtIpv4)
    (topologyFile : String) (previous : Option DeploymentState) :
    Prog.Triple (fun w => w.saved = saved) (run S topologyFile previous)
      (fun _ w => DistinctIps w.saved) fun _ w => w.saved = saved ∨ DistinctIps w.saved := by
  refine .bind ((makePlan_address hS).weaken (fun _ => id) (fun _ _ => id) fun _ _ => .inl)
    fun ⟨plan, resources, reservations⟩ => .of_exists fun addresses => ?_
  refine .weaken (.of_and fun hinj => ?_) (fun w hw => ⟨hw.2, hw.1⟩) (fun _ _ => id) fun _ _ => id
  have hdistinct : ∀ {st : DeploymentState},
      Recorded (fun n t => addresses.get? n = some t) st → DistinctIps st := fun h =>
    h.distinctIps hinj
  have hidle : ∀ {α : Type} {p : Ctl ρ α}, Prog.Within Idle p →
      Prog.Triple (Addressed (fun n t => addresses.get? n = some t) saved) p
        (fun _ => Addressed (fun n t => addresses.get? n = some t) saved)
        fun _ w => w.saved = saved ∨ DistinctIps w.saved := fun h =>
    (Prog.Triple.of_keeps (h.keeps fun _ _ => Idle.addressed)).weaken (fun _ => id)
      (fun _ _ => id) fun _ _ hw => .inl hw.saved
  refine .bind (hidle idle_topo) fun t => .bind (hidle idle_remotely) fun deployedAt => ?_
  refine .bind (Q := fun _ => Assigned (fun n t => addresses.get? n = some t) saved)
    (.modify fun w hw => ⟨⟨hw.saved, hw.topo⟩, fun n r hr => ?_⟩) fun _ => ?_
  · cases hr
  · refine .bind ((assigned_of_idle idle_createClients).weaken (fun _ => id) (fun _ _ => id)
      fun _ _ hw => .inl hw.saved) fun clients => ?_
    refine .rescue (deployPhases_address.weaken (fun _ => id) (fun _ _ => hdistinct)
      fun _ _ => id) fun e => ?_
    have hrollback : Prog.Keeps (Filed (fun n t => addresses.get? n = some t) saved)
        (rollback S clients) := unsaved_rollback.keeps fun w w' h hw => by rwa [Filed, h.saved]
    refine .bind ((Prog.Triple.of_keeps hrollback).weaken (fun _ => id) (fun _ _ => id)
      fun _ w hw => hw.imp_right hdistinct) fun _ => .raise fun w hw => hw.imp_right hdistinct

end Phases

/-! ## Lives -/

section Lives

variable {ρ : Type} {S : DeployServices ρ} {topo : DistributedTopology} {topologyFile : String}
  {previous : Option DeploymentState} {lab : Node.Lab ρ}

/-- The addresses differ after a deployment that succeeds, whatever was saved before. -/
theorem deploy_distinct (hS : S.assignStickyMgmtIpv4 = Config.assignStickyMgmtIpv4)
    (h : (deploy S topo topologyFile previous lab).1 = .ok ()) :
    DistinctIps (deploy S topo topologyFile previous lab).2.saved := by
  have hspec := run_address hS topologyFile previous (openDeploy topo lab) rfl
  rw [deploy] at h ⊢
  rcases hr : (run S topologyFile previous).run (openDeploy topo lab) with ⟨e | _, w⟩ <;>
    rw [hr] at hspec h
  · cases h
  · exact hspec

/-- A deployment that fails leaves addresses that differ, or nothing new. -/
theorem deploy_keeps_distinct (hS : S.assignStickyMgmtIpv4 = Config.assignStickyMgmtIpv4)
    (h : DistinctIps lab.saved) : DistinctIps (deploy S topo topologyFile previous lab).2.saved := by
  have hspec := run_address hS topologyFile previous (openDeploy topo lab) rfl
  rw [deploy]
  rcases hr : (run S topologyFile previous).run (openDeploy topo lab) with ⟨e | _, w⟩ <;>
    rw [hr] at hspec
  · rcases hspec with hw | hw
    · show DistinctIps w.saved
      rw [hw]
      exact h
    · exact hw
  · exact hspec

/-- Services that assign addresses as `Config` does. -/
def withConfig (S : DeployServices ρ) : DeployServices ρ :=
  { S with assignStickyMgmtIpv4 := Config.assignStickyMgmtIpv4 }

/-- In the life of a lab in which no device is added while another is recorded with the address that
    is due to it, the addresses that are recorded differ at every moment. -/
theorem distinct_of_life (S : DeployServices ρ) (topo : DistributedTopology) (topologyFile : String)
    (previous : Option DeploymentState) (before lab : Node.Lab ρ)
    (hdeploy : (deploy (withConfig S) topo topologyFile previous before).1 = .ok ())
    (hlife : Life (withConfig S) Node.AddressCondition
      (deploy (withConfig S) topo topologyFile previous before).2 lab) : DistinctIps lab.saved :=
  Life.invariant (withConfig S) (I := fun lab => DistinctIps lab.saved)
    (fun _ _ _ _ hP h => Node.perform_distinct rfl hP h) (fun _ _ _ _ h =>
      deploy_keeps_distinct rfl h) hlife (deploy_distinct rfl hdeploy)

/-! ### A third device on the host -/

/-- The lab of two devices, which have 172.20.0.2 and 172.20.0.3. -/
def officeLab : Node.Lab Unit :=
  (deploy (withConfig quietServices) officeTopo "office.yml" none noLab).2

theorem deploy_officeLab :
    (deploy (withConfig quietServices) officeTopo "office.yml" none noLab).1 = .ok () := by
  have hok : (deploy (withConfig quietServices) officeTopo "office.yml" none noLab).1.isOk = true :=
    by decide +kernel
  cases h : (deploy (withConfig quietServices) officeTopo "office.yml" none noLab).1 with
  | ok _ => rfl
  | error e =>
    rw [h] at hok
    cases hok

/-- A device that claims an address. -/
def claimant (t : String) : VDNode where
  name := "r3"
  kind := "linux"
  image := "alpine:3"
  mgmtIpv4 := t
  mgmtIpv4Explicit := true

/-- The topology with a third device that claims an address. -/
def officeWith (t : String) : DistributedTopology :=
  { officeTopo with nodes := officeTopo.nodes.set "r3" (claimant t) }

theorem labName_officeWith (t : String) : (officeWith t).name = officeLab.saved.labName := by
  show officeTopo.name = officeLab.saved.labName
  decide +kernel

/-- The address that is due to the device is the one that it claims. -/
theorem isDue_officeWith {t t' : String} {reservations : Dict String String}
    (h : Node.IsDue (officeWith t) reservations "r3" t') : t' = t := by
  obtain ⟨net, r, ip, -, -, hdue, rfl⟩ := h
  have hget : (officeWith t).nodes.get? "r3" = some (claimant t) := Dict.get?_set_self _ _ _
  rcases hdue with ⟨node, hnode, -, hip⟩ | ⟨himp, -⟩
  · obtain rfl := Option.some.inj (hget.symm.trans hnode)
    exact (Ip.text_of_parse hip).2
  · have hx := Config.isExplicit_iff.2 ⟨_, hget, rfl⟩
    rw [himp] at hx
    cases hx

theorem distinct_of_life_office : ∃ lab,
    Life (withConfig quietServices) Node.AddressCondition officeLab lab ∧ DistinctIps lab.saved := by
  have hcondition : Node.AddressCondition (officeWith "172.20.0.50") (.add "r3") officeLab := by
    intro node hop _ t hdue n r hr
    have hnode : node = "r3" := by rcases hop with h | h <;> cases h; rfl
    rw [hnode] at hdue
    rw [isDue_officeWith hdue]
    have hall : (officeLab.saved.nodeRuntime.items.all fun e => e.2.mgmtIpv4 ≠ "172.20.0.50") =
        true := by decide +kernel
    exact of_decide_eq_true (List.all_eq_true.1 hall (n, r) (Dict.get?_eq_some_iff.1 hr))
  have hlife : Life (withConfig quietServices) Node.AddressCondition officeLab
      (officeLab.perform (withConfig quietServices).toServices (officeWith "172.20.0.50")
        (.add "r3")).2 :=
    .single (.inl ⟨officeWith "172.20.0.50", .add "r3", labName_officeWith _, hcondition, rfl⟩)
  exact ⟨_, hlife, distinct_of_life quietServices officeTopo "office.yml" none noLab _
    deploy_officeLab hlife⟩

/-- A device that claims the address of one that runs gets it. -/
theorem not_distinct_office : ∃ lab,
    Life (withConfig quietServices) (fun _ _ _ => True) officeLab lab ∧ ¬DistinctIps lab.saved := by
  refine ⟨_, .single (.inl ⟨officeWith "172.20.0.2", .add "r3", labName_officeWith _, trivial,
    rfl⟩), fun h => ?_⟩
  have hips : ["r1", "r3"].map (fun n => (((officeLab.perform
      (withConfig quietServices).toServices (officeWith "172.20.0.2")
        (.add "r3")).2.saved.nodeRuntime.get? n).map (·.mgmtIpv4))) =
      [some "172.20.0.2", some "172.20.0.2"] := by decide +kernel
  obtain ⟨h₁, h₃⟩ := List.cons_eq_cons.1 hips
  obtain ⟨r₁, hr₁, heq₁⟩ := Option.map_eq_some_iff.1 h₁
  obtain ⟨r₃, hr₃, heq₃⟩ := Option.map_eq_some_iff.1 (List.cons_eq_cons.1 h₃).1
  exact absurd (h "r1" "r3" r₁ r₃ hr₁ hr₃ (heq₁.trans heq₃.symm)) (by decide)

end Lives

end Dnlab.Deploy
