import Dnlab.Controllers.Deploy
import Dnlab.Controllers.Node.Frame

/-!
# What the phases of a deployment leave alone

Most phases save nothing, move no device and change no link (`Phase`): the
exceptions are the deployment of the devices, the creation of the links, and
the end.
-/

namespace Dnlab.Deploy

open Ctl
open Node (place IsRoutine)

/-- A step of a deployment that records neither where a device is nor a link, and saves nothing;
    `Q` holds of what it logs. -/
structure Phase {ρ : Type} (Q : Event → Prop) (w w' : World ρ) : Prop where
  saved : w'.saved = w.saved
  placed : w'.placed = w.placed
  labName : w'.state.labName = w.state.labName
  scheduling : w'.state.scheduling = w.state.scheduling
  links : w'.state.runtimeLinks = w.state.runtimeLinks
  places : (w'.state.nodeRuntime.map fun _ => place) = w.state.nodeRuntime.map fun _ => place
  log : ∃ new, w'.remote.log = new ++ w.remote.log ∧ ∀ e ∈ new, Q e

section Phase

variable {ρ α : Type} {Q : Event → Prop}

instance : Std.Refl (@Phase ρ Q) where
  refl _ := ⟨rfl, rfl, rfl, rfl, rfl, rfl, [], rfl, by simp⟩

instance : IsTrans (World ρ) (Phase Q) where
  trans w w' w'' h h' := by
    obtain ⟨new, hlog, hnew⟩ := h.log
    obtain ⟨new', hlog', hnew'⟩ := h'.log
    refine ⟨h'.saved.trans h.saved, h'.placed.trans h.placed, h'.labName.trans h.labName,
      h'.scheduling.trans h.scheduling, h'.links.trans h.links, h'.places.trans h.places,
      new' ++ new, by rw [hlog', hlog, List.append_assoc], fun e he => ?_⟩
    rcases List.mem_append.1 he with he | he
    · exact hnew' e he
    · exact hnew e he

theorem Phase.keys {w w' : World ρ} (h : Phase Q w w') :
    w'.state.nodeRuntime.keys = w.state.nodeRuntime.keys := by
  have := congrArg Dict.keys h.places
  simpa using this

/-- A device is recorded on the same host. -/
theorem Phase.host {w w' : World ρ} (h : Phase Q w w') (n : String) :
    (w'.state.nodeRuntime.get? n).map (·.host) = (w.state.nodeRuntime.get? n).map (·.host) := by
  have hplace : (w'.state.nodeRuntime.get? n).map place = (w.state.nodeRuntime.get? n).map place := by
    have := congrArg (·.get? n) h.places
    simpa only [Dict.get?_map] using this
  have := congrArg (Option.map NodeRuntimeState.host) hplace
  simpa only [Option.map_map, Function.comp_def, place] using this

theorem Phase.remotely {p : Prog (Remote ρ) Err α} (hp : Adds Q p) :
    Prog.Within (Phase Q) (Ctl.remotely p) :=
  fun w => ⟨rfl, rfl, rfl, rfl, rfl, rfl, hp w.remote⟩

theorem Phase.outside (f : ρ → Except Err α × ρ) : Prog.Within (Phase Q) (Ctl.outside f) :=
  Phase.remotely (Adds.of_log_eq fun _ => rfl)

theorem Phase.topo : Prog.Within (Phase Q) (Ctl.topo : Ctl ρ DistributedTopology) :=
  .bind .get fun _ => .pure _

theorem Phase.state : Prog.Within (Phase Q) (Ctl.state : Ctl ρ DeploymentState) :=
  .bind .get fun _ => .pure _

theorem Phase.modifyTopo {f : DistributedTopology → DistributedTopology} :
    Prog.Within (Phase Q) (Ctl.modifyTopo f : Ctl ρ Unit) :=
  fun _ => ⟨rfl, rfl, rfl, rfl, rfl, rfl, [], rfl, by simp⟩

/-- Recording what is not about the devices and links. -/
theorem Phase.modifyState {f : DeploymentState → DeploymentState}
    (hname : ∀ st, (f st).labName = st.labName) (hsched : ∀ st, (f st).scheduling = st.scheduling)
    (hlinks : ∀ st, (f st).runtimeLinks = st.runtimeLinks)
    (hnodes : ∀ st, (f st).nodeRuntime = st.nodeRuntime) :
    Prog.Within (Phase Q) (Ctl.modifyState f : Ctl ρ Unit) :=
  fun w => ⟨rfl, rfl, hname _, hsched _, hlinks _, congrArg (fun d : Dict String _ =>
    d.map fun _ => place) (hnodes w.state), [], rfl, by simp⟩

/-- A step of a device in a deployment: one that an operation on the device also makes, and that
    saves nothing. -/
theorem Phase.of_calm {node : String} {p : Ctl ρ α} (h : Prog.Within (Node.Calm Q node) p)
    (hsaved : ∀ w, (p.run w).2.saved = w.saved) : Prog.Within (Phase Q) p := fun w =>
  ⟨hsaved w, (h w).placed, (h w).state.labName, (h w).state.scheduling, (h w).links,
    (h w).state.places, (h w).log⟩

end Phase

section Steps

variable {ρ : Type} {S : DeployServices ρ} {clients : Clients} {plan : SchedulePlan}
  {underlay : Dict String String} {host : String}

/-- A step that deploys no device. -/
abbrev Minor {α : Type} (p : Ctl ρ α) : Prop := Prog.Within (Phase IsRoutine) p

theorem minor_runNoCheck {cmd : Cmd} (h : cmd.isDeployment = false) :
    Minor (remotely (clients.runNoCheck S.backend host cmd)) :=
  Phase.remotely (.clientsRunNoCheck fun ok => ⟨_, _, ok, rfl, h⟩)

theorem minor_run {cmd : Cmd} {check : Bool} (h : cmd.isDeployment = false) :
    Minor (remotely (clients.run S.backend host cmd check)) :=
  Phase.remotely (.run fun ok => ⟨_, _, ok, rfl, h⟩)

theorem minor_createClients : Minor (Node.createClients : Ctl ρ Clients) :=
  .bind Phase.topo fun _ => .pure _

theorem minor_connect : Minor (Node.connect S.toServices clients) :=
  .forEach fun _ _ => .bind (minor_runNoCheck rfl) fun _ => .pure _

theorem minor_completePhase {phase : String} : Minor (completePhase phase : Ctl ρ Unit) :=
  Phase.modifyState (fun _ => rfl) (fun _ => rfl) (fun _ => rfl) fun _ => rfl

theorem within_inParallel {α : Type} {R : World ρ → World ρ → Prop} [Std.Refl R]
    [IsTrans (World ρ) R] {hosts : List String} {work : String → Ctl ρ α}
    (h : ∀ host, Prog.Within R (work host)) : Prog.Within R (inParallel S hosts work) :=
  .bind .get fun _ => .mapEach fun host _ => .bind (.attempt (h host)) fun _ => .pure _

theorem minor_inspectImageOnHost {vd : VDNode} :
    Minor (remotely (WarmLinks.inspectImageOnHost S.backend S.parseLabels clients host vd)) := by
  refine Phase.remotely (.bind (.clientsRunNoCheck fun ok => ⟨_, _, ok, rfl, rfl⟩) fun r => ?_)
  exact .ite (fun _ => .pure _) fun _ => .pure _

theorem minor_inspectImage {name : String} {vd : VDNode} :
    Minor (inspectImage S clients plan name vd) := by
  refine .when fun _ => .bind ?_ fun env => Phase.modifyTopo
  exact .ite (fun _ => .pure _) fun _ => minor_inspectImageOnHost

theorem minor_resolveUnderlayIps : Minor (resolveUnderlayIps S clients) := by
  refine .bind Phase.topo fun t => .bind (.mapEach fun host _ => ?_) fun _ => .pure _
  exact .bind (minor_runNoCheck rfl) fun r => .ite (fun _ => .raise _) fun _ => .pure _

theorem minor_raiseMgmtFailure {results : List (String × Except Err Unit)} :
    Minor (raiseMgmtFailure results : Ctl ρ Unit) := by
  refine .forEach fun ⟨host, r⟩ _ => ?_
  rcases r with e | _
  · exact .raise _
  · exact .pure _

theorem minor_deployMgmt : Minor (deployMgmt S clients plan underlay) := by
  refine .bind Phase.topo fun t => .bind (within_inParallel fun host => Phase.outside _)
    fun results => .bind minor_raiseMgmtFailure fun _ => ?_
  refine .bind (.when fun _ => Phase.outside _) fun _ => .bind ?_ fun _ => minor_completePhase
  exact Phase.modifyState (fun _ => rfl) (fun _ => rfl) (fun _ => rfl) fun _ => rfl

theorem minor_allocatePorts {cfg : WebUIPortsCfg} {hints : Dict ℕ ℕ} {used : List ℕ}
    {wishlist : List WebUISpec} :
    Minor (Node.allocatePorts S.toServices cfg hints used wishlist) := by
  induction wishlist generalizing used with
  | nil => exact .pure _
  | cons spec specs ih =>
    refine .ite (fun _ => ih) fun _ => .bind (Phase.outside _) fun port => ?_
    exact .bind ih fun _ => .pure _

theorem minor_allocateAll {cfg : WebUIPortsCfg} {previous : Dict String (List WebUIAllocation)}
    {used : List ℕ} {wishlists : List (String × List WebUISpec)} :
    Minor (allocateAll S cfg previous used wishlists) := by
  induction wishlists generalizing used with
  | nil => exact .pure _
  | cons _ _ ih => exact .bind minor_allocatePorts fun _ => .bind ih fun _ => .pure _

theorem minor_allocateWebuiPorts {previous : Option DeploymentState} :
    Minor (allocateWebuiPorts S previous) := by
  refine .bind Phase.topo fun t => .when fun _ => .bind minor_allocateAll fun _ => .bind ?_
    fun _ => minor_completePhase
  exact Phase.modifyState (fun _ => rfl) (fun _ => rfl) (fun _ => rfl) fun _ => rfl

theorem minor_deployRealnets : Minor (deployRealnets S underlay) := by
  refine .bind Phase.topo fun t => .when fun _ => .bind (Phase.outside _) fun _ => .bind ?_
    fun _ => minor_completePhase
  exact Phase.modifyState (fun _ => rfl) (fun _ => rfl) (fun _ => rfl) fun _ => rfl

theorem minor_deployMgmtAnchor : Minor (deployMgmtAnchor S clients host) := by
  refine .bind Phase.topo fun t => .bind (minor_run rfl) fun _ => .bind (.rescue ?_ fun _ =>
    .raise _) fun _ => Phase.modifyState (fun _ => rfl) (fun _ => rfl) (fun _ => rfl) fun _ => rfl
  exact .bind (minor_run rfl) fun _ => .pure _

theorem minor_deployMgmtAnchors : Minor (deployMgmtAnchors S clients plan) :=
  .when fun _ => .bind minor_completePhase fun _ => .forEach fun _ _ => minor_deployMgmtAnchor

theorem minor_makeDirs {vdNames : List String} : Minor (makeDirs S clients host vdNames) :=
  .bind Phase.topo fun _ => .bind (.ofExcept _) fun _ => .when fun _ =>
    .bind (minor_run rfl) fun _ => .pure _

theorem minor_uploadIn {path content : String} :
    Minor (Node.uploadIn S.toServices clients host path content) :=
  .bind (minor_run rfl) fun _ => .bind (minor_run rfl) fun _ => .pure _

theorem minor_queryContainerStatuses {containers : List String} :
    Minor (queryContainerStatuses S clients host containers) :=
  .bind (minor_runNoCheck rfl) fun _ => .pure _

theorem minor_raiseHealthFailure {failed : List (String × String)} :
    Minor (raiseHealthFailure S clients host failed) :=
  .bind Phase.topo fun _ => .bind (.mapEach fun _ _ => .bind (minor_runNoCheck rfl) fun _ =>
    .pure _) fun _ => .raise _

/-- A device that runs is where it was. -/
theorem minor_markRunning {name startedAt : String} :
    Minor (modifyRuntime name fun r => { r with state := .running, startedAt := startedAt } :
      Ctl ρ Unit) :=
  have hcalm : Node.Routine name (modifyRuntime name fun r =>
      { r with state := .running, startedAt := startedAt } : Ctl ρ Unit) :=
    Node.Calm.modifyRuntime fun _ => rfl
  Phase.of_calm hcalm fun _ => rfl

theorem minor_pollHost {vdNames : List String} : Minor (pollHost S clients host vdNames) := by
  refine .bind Phase.topo fun t => .bind minor_queryContainerStatuses fun statuses => ?_
  refine .bind (.when fun _ => minor_raiseHealthFailure) fun _ => .bind (.when fun _ => ?_)
    fun _ => .pure _
  refine .bind (Phase.remotely (.of_log_eq fun _ => rfl)) fun _ => .forEach fun _ _ => ?_
  exact minor_markRunning

theorem minor_pollRounds {n : ℕ} {unsettled : List String} :
    Minor (pollRounds S clients plan n unsettled) := by
  induction n generalizing unsettled with
  | zero =>
    refine .bind (.mapEach fun _ _ => .bind Phase.topo fun t => ?_) fun _ => .raise _
    exact .bind minor_queryContainerStatuses fun _ => .pure _
  | succ n ih =>
    refine .bind (.mapEach fun _ _ => .bind minor_pollHost fun _ => .pure _) fun polled => ?_
    exact .ite (fun _ => .pure _) fun _ => ih

theorem minor_healthCheckVds : Minor (healthCheckVds S clients plan) :=
  .bind (Phase.remotely (.of_log_eq fun _ => rfl)) fun _ => .when fun _ => minor_pollRounds

theorem minor_deployRuntimeRelays : Minor (deployRuntimeRelays S plan underlay) := by
  refine .bind Phase.topo fun t => .bind (Phase.outside _) fun _ => .bind (Phase.outside _)
    fun _ => .bind ?_ fun _ => minor_completePhase
  exact Phase.modifyState (fun _ => rfl) (fun _ => rfl) (fun _ => rfl) fun _ => rfl

theorem minor_deployDns : Minor (deployDns S) := by
  refine .bind .get fun _ => .bind (Phase.outside _) fun _ => .bind ?_ fun _ => minor_completePhase
  exact Phase.modifyState (fun _ => rfl) (fun _ => rfl) (fun _ => rfl) fun _ => rfl

theorem minor_deployJumphost : Minor (deployJumphost S plan) := by
  have hset : ∀ j : JumphostState,
      Minor (modifyState fun st => { st with jumphost := some j } : Ctl ρ Unit) := fun _ =>
    Phase.modifyState (fun _ => rfl) (fun _ => rfl) (fun _ => rfl) fun _ => rfl
  refine .bind .get fun _ => .bind (.ofExcept _) fun _ => .bind (Phase.outside _) fun _ => ?_
  refine .bind (hset _) fun _ => .bind minor_completePhase fun _ => .bind (Phase.outside _) fun _ =>
    ?_
  exact .bind (hset _) fun _ => Phase.outside _

theorem minor_setVdDefaultRoutes : Minor (setVdDefaultRoutes S clients) :=
  .bind .get fun _ => .when fun _ => .forEach fun _ _ => .bind (minor_runNoCheck rfl) fun _ =>
    .pure _

theorem minor_verify : Minor (verify S plan) :=
  .bind (.when fun _ => Phase.outside _) fun _ => minor_completePhase

end Steps

/-! ## Taking back -/

/-- A step that saves nothing. -/
structure Unsaved {ρ : Type} (w w' : World ρ) : Prop where
  saved : w'.saved = w.saved
  placed : w'.placed = w.placed

section Unsaved

variable {ρ α : Type} {S : DeployServices ρ} {clients : Clients}

instance : Std.Refl (@Unsaved ρ) where
  refl _ := ⟨rfl, rfl⟩

instance : IsTrans (World ρ) Unsaved where
  trans _ _ _ h h' := ⟨h'.saved.trans h.saved, h'.placed.trans h.placed⟩

theorem unsaved_remotely {p : Prog (Remote ρ) Err α} : Prog.Within Unsaved (Ctl.remotely p) :=
  fun _ => ⟨rfl, rfl⟩

theorem unsaved_destroyFile {host file : String} :
    Prog.Within Unsaved (destroyFile S clients host file) :=
  .when fun _ => .bind unsaved_remotely fun _ => .pure _

theorem unsaved_deleteLink {link : RuntimeLinkState} :
    Prog.Within Unsaved (deleteLink S clients link) := by
  refine .bind unsaved_remotely fun ⟨_, err⟩ => ?_
  rcases err with _ | e
  · exact .pure _
  · exact .raise e

theorem unsaved_rollbackMgmt : Prog.Within Unsaved (rollbackMgmt S clients) := by
  refine .bind (.bind .get fun _ => .pure _) fun t => .bind (.forEach fun _ _ => ?_) fun _ => ?_
  · exact .bind unsaved_remotely fun _ => .pure _
  · exact .forEach fun _ _ => unsaved_remotely

/-- Taking the phases back saves nothing. -/
theorem unsaved_rollback : Prog.Within Unsaved (rollback S clients) := by
  refine .bind (.bind .get fun _ => .pure _) fun st => .forEach fun phase _ => .quietly ?_
  refine .bind .get fun w => .ite (fun _ => unsaved_remotely) fun _ => ?_
  refine .ite (fun _ => unsaved_remotely) fun _ => .ite (fun _ => unsaved_remotely) fun _ => ?_
  refine .ite (fun _ => .forEach fun _ _ => unsaved_deleteLink) fun _ =>
    .ite (fun _ => unsaved_remotely) fun _ => ?_
  refine .ite (fun _ => .forEach fun _ _ => unsaved_destroyFile) fun _ => ?_
  exact .ite (fun _ => .forEach fun _ _ => unsaved_destroyFile) fun _ =>
    .ite (fun _ => unsaved_rollbackMgmt) fun _ => .pure _

end Unsaved

end Dnlab.Deploy
