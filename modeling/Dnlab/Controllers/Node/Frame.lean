import Dnlab.Controllers.Node
import Dnlab.Services.Remote.Log
import Dnlab.Services.Scheduler.Links

/-!
# What the steps of an operation leave alone

Most of what an operation does only runs commands, changes the condition of one
device and saves the state (`Calm`). Only a few steps change where devices are
(`Alike`) or which links there are.
-/

namespace Dnlab.Node

open Ctl

/-- The record of a device without its condition. -/
def place (r : NodeRuntimeState) : NodeRuntimeState :=
  { r with state := .running, startedAt := "", lastError := "" }

/-- Two states that differ in the condition of a device, in the links and in the shared services
    only. -/
structure Alike (node : String) (st st' : DeploymentState) : Prop where
  labName : st'.labName = st.labName
  dnlabDeployed : st'.dnlabDeployed = st.dnlabDeployed
  runtimeMode : st'.runtimeMode = st.runtimeMode
  scheduling : st'.scheduling = st.scheduling
  mgmtAnchors : st'.mgmtAnchors = st.mgmtAnchors
  webuiAllocations : st'.webuiAllocations = st.webuiAllocations
  mgmtIpReservations : st'.mgmtIpReservations = st.mgmtIpReservations
  others : st'.nodeRuntime.erase node = st.nodeRuntime.erase node
  places : (st'.nodeRuntime.map fun _ => place) = st.nodeRuntime.map fun _ => place

namespace Alike

variable {node : String} {st st' st'' : DeploymentState}

theorem refl (st : DeploymentState) : Alike node st st :=
  ⟨rfl, rfl, rfl, rfl, rfl, rfl, rfl, rfl, rfl⟩

theorem trans (h : Alike node st st') (h' : Alike node st' st'') : Alike node st st'' where
  labName := h'.labName.trans h.labName
  dnlabDeployed := h'.dnlabDeployed.trans h.dnlabDeployed
  runtimeMode := h'.runtimeMode.trans h.runtimeMode
  scheduling := h'.scheduling.trans h.scheduling
  mgmtAnchors := h'.mgmtAnchors.trans h.mgmtAnchors
  webuiAllocations := h'.webuiAllocations.trans h.webuiAllocations
  mgmtIpReservations := h'.mgmtIpReservations.trans h.mgmtIpReservations
  others := h'.others.trans h.others
  places := h'.places.trans h.places

theorem keys (h : Alike node st st') : st'.nodeRuntime.keys = st.nodeRuntime.keys := by
  have := congrArg Dict.keys h.places
  simpa using this

/-- The same devices are deployed in the same places. -/
theorem get? (h : Alike node st st') (n : String) :
    (st'.nodeRuntime.get? n).map place = (st.nodeRuntime.get? n).map place := by
  have := congrArg (·.get? n) h.places
  simpa only [Dict.get?_map] using this

/-- A device is deployed on the same host. -/
theorem host (h : Alike node st st') (n : String) :
    (st'.nodeRuntime.get? n).map (·.host) = (st.nodeRuntime.get? n).map (·.host) := by
  have := congrArg (Option.map NodeRuntimeState.host) (h.get? n)
  simpa only [Option.map_map, Function.comp_def, place] using this

/-- The record of another device is the same. -/
theorem get?_of_ne (h : Alike node st st') {n : String} (hn : n ≠ node) :
    st'.nodeRuntime.get? n = st.nodeRuntime.get? n := by
  rw [← Dict.get?_erase_of_ne _ hn, h.others, Dict.get?_erase_of_ne _ hn]

/-- Changing the condition of a device. -/
theorem modifyRuntime {f : NodeRuntimeState → NodeRuntimeState} (hf : ∀ r, place (f r) = place r) :
    Alike node st { st with nodeRuntime := st.nodeRuntime.modify node f } where
  labName := rfl
  dnlabDeployed := rfl
  runtimeMode := rfl
  scheduling := rfl
  mgmtAnchors := rfl
  webuiAllocations := rfl
  mgmtIpReservations := rfl
  others := Dict.erase_modify _ _ _
  places := by
    ext1
    simp only [Dict.modify, Dict.map, List.map_map]
    refine List.map_congr_left fun e _ => ?_
    by_cases h : e.1 = node <;> simp [h, hf]

end Alike

/-- A step that runs commands, changes the condition of a device and saves the state; `Q` holds of
    what it records. -/
structure Calm {ρ : Type} (Q : Event → Prop) (node : String) (w w' : World ρ) : Prop where
  topo : w'.topo = w.topo
  state : Alike node w.state w'.state
  links : w'.state.runtimeLinks = w.state.runtimeLinks
  saved : w'.saved = w.saved ∨
    Alike node w.state w'.saved ∧ w'.saved.runtimeLinks = w.state.runtimeLinks
  placed : w'.placed = w.placed
  log : ∃ new, w'.remote.log = new ++ w.remote.log ∧ ∀ e ∈ new, Q e

section Calm

variable {ρ α : Type} {Q : Event → Prop} {node : String}

instance : Std.Refl (@Calm ρ Q node) where
  refl w := ⟨rfl, .refl _, rfl, .inl rfl, rfl, [], rfl, by simp⟩

instance : IsTrans (World ρ) (Calm Q node) where
  trans w w' w'' h h' := by
    obtain ⟨new, hlog, hnew⟩ := h.log
    obtain ⟨new', hlog', hnew'⟩ := h'.log
    refine ⟨h'.topo.trans h.topo, h.state.trans h'.state, h'.links.trans h.links, ?_,
      h'.placed.trans h.placed, new' ++ new, by rw [hlog', hlog, List.append_assoc], ?_⟩
    · rcases h'.saved with hs | ⟨hs, hl⟩
      · rw [hs]
        exact h.saved
      · exact .inr ⟨h.state.trans hs, hl.trans h.links⟩
    · intro e he
      rcases List.mem_append.1 he with he | he
      · exact hnew' e he
      · exact hnew e he

/-- Running a program of the hosts. -/
theorem Calm.remotely {p : Prog (Remote ρ) Err α} (hp : Adds Q p) :
    Prog.Within (Calm Q node) (Ctl.remotely p) :=
  fun w => ⟨rfl, .refl _, rfl, .inl rfl, rfl, hp w.remote⟩

theorem Calm.outside (f : ρ → Except Err α × ρ) : Prog.Within (Calm Q node) (Ctl.outside f) :=
  Calm.remotely (Adds.of_log_eq fun _ => rfl)

theorem Calm.topo' : Prog.Within (Calm Q node) (Ctl.topo : Ctl ρ DistributedTopology) :=
  .bind .get fun _ => .pure _

theorem Calm.state' : Prog.Within (Calm Q node) (Ctl.state : Ctl ρ DeploymentState) :=
  .bind .get fun _ => .pure _

theorem Calm.save : Prog.Within (Calm Q node) (Ctl.save : Ctl ρ Unit) :=
  fun w => ⟨rfl, .refl _, rfl, .inr ⟨.refl _, rfl⟩, rfl, [], rfl, by simp⟩

theorem Calm.modifyState {f : DeploymentState → DeploymentState}
    (hf : ∀ st, Alike node st (f st) ∧ (f st).runtimeLinks = st.runtimeLinks) :
    Prog.Within (Calm Q node) (Ctl.modifyState f : Ctl ρ Unit) :=
  fun w => ⟨rfl, (hf _).1, (hf _).2, .inl rfl, rfl, [], rfl, by simp⟩

theorem Calm.modifyRuntime {f : NodeRuntimeState → NodeRuntimeState}
    (hf : ∀ r, place (f r) = place r) :
    Prog.Within (Calm Q node) (Ctl.modifyRuntime node f : Ctl ρ Unit) :=
  Calm.modifyState fun _ => ⟨.modifyRuntime hf, rfl⟩

theorem Calm.mono {Q' : Event → Prop} {w w' : World ρ} (hQ : ∀ e, Q e → Q' e)
    (h : Calm Q node w w') : Calm Q' node w w' := by
  obtain ⟨new, hlog, hnew⟩ := h.log
  exact ⟨h.topo, h.state, h.links, h.saved, h.placed, new, hlog, fun e he => hQ e (hnew e he)⟩

end Calm

/-- Commands that deploy nothing. -/
def IsRoutine (e : Event) : Prop := ∃ host cmd ok, e = .ran host cmd ok ∧ cmd.isDeployment = false

/-- Commands. -/
def IsRun (e : Event) : Prop := ∃ host cmd ok, e = .ran host cmd ok

theorem isRun_of_isRoutine {e : Event} (h : IsRoutine e) : IsRun e := by
  obtain ⟨host, cmd, ok, he, -⟩ := h
  exact ⟨host, cmd, ok, he⟩

/-! ## Steps that run commands -/

section Steps

variable {ρ : Type} {S : Services ρ} {clients : Clients} {node host container path : String}

/-- A step that deploys nothing. -/
abbrev Routine {α : Type} (node : String) (p : Ctl ρ α) : Prop := Prog.Within (Calm IsRoutine node) p

/-- A step that may deploy. -/
abbrev Works {α : Type} (node : String) (p : Ctl ρ α) : Prop := Prog.Within (Calm IsRun node) p

theorem works_of_routine {α : Type} {p : Ctl ρ α} (h : Routine node p) : Works node p :=
  h.mono fun _ _ => Calm.mono fun _ => isRun_of_isRoutine

theorem routine_runNoCheck {cmd : Cmd} (h : cmd.isDeployment = false) :
    Routine node (remotely (clients.runNoCheck S.backend host cmd)) :=
  Calm.remotely (.clientsRunNoCheck fun ok => ⟨_, _, ok, rfl, h⟩)

theorem routine_run {cmd : Cmd} {check : Bool} (h : cmd.isDeployment = false) :
    Routine node (remotely (clients.run S.backend host cmd check)) :=
  Calm.remotely (.run fun ok => ⟨_, _, ok, rfl, h⟩)

theorem works_runNoCheck {cmd : Cmd} :
    Works node (remotely (clients.runNoCheck S.backend host cmd)) :=
  Calm.remotely (.clientsRunNoCheck fun ok => ⟨_, _, ok, rfl⟩)

theorem works_run {cmd : Cmd} {check : Bool} :
    Works node (remotely (clients.run S.backend host cmd check)) :=
  Calm.remotely (.run fun ok => ⟨_, _, ok, rfl⟩)

theorem routine_cancelled : Routine node (cancelled S) :=
  Calm.remotely (.of_log_eq fun _ => rfl)

theorem routine_checkCancelled : Routine node (checkCancelled S) :=
  .bind routine_cancelled fun _ => .ite (fun _ => .raise _) fun _ => .pure _

theorem routine_setPhase {phase : NodePhase} :
    Routine node (setPhase node phase : Ctl ρ Unit) :=
  .bind (Calm.modifyRuntime fun _ => rfl) fun _ => Calm.save

theorem routine_createClients : Routine node (createClients : Ctl ρ Clients) :=
  .bind Calm.topo' fun _ => .pure _

theorem routine_connect : Routine node (connect S clients) :=
  .forEach fun _ _ => .bind (routine_runNoCheck rfl) fun _ => .pure _

theorem routine_runtimeOf {n : String} : Routine node (runtimeOf n : Ctl ρ NodeRuntimeState) := by
  refine .bind Calm.state' fun st => ?_
  split
  · exact .pure _
  · exact .raise _

theorem routine_ensureDeployed : Routine node (ensureDeployed : Ctl ρ Unit) :=
  .bind .get fun _ => .ite (fun _ => .pure _) fun _ => .raise _

theorem routine_ensureHotAddSupported : Routine node (ensureHotAddSupported : Ctl ρ Unit) :=
  .bind Calm.state' fun _ => .ite (fun _ => .pure _) fun _ => .raise _

theorem routine_ensurePerVdRuntime {runtime : NodeRuntimeState} :
    Routine node (ensurePerVdRuntime runtime : Ctl ρ Unit) :=
  .bind Calm.topo' fun _ => .ite (fun _ => .pure _) fun _ => .raise _

theorem routine_setDefaultRoute : Routine node (setDefaultRoute S clients host container) :=
  .bind Calm.topo' fun _ => .when fun _ => .bind (routine_runNoCheck rfl) fun _ => .pure _

theorem routine_pollContainer {n : ℕ} :
    Routine node (pollContainer S clients host container n) := by
  induction n with
  | zero => exact .raise _
  | succ n ih =>
    refine .bind routine_checkCancelled fun _ => .bind (routine_runNoCheck rfl) fun r => ?_
    refine .ite (fun _ => .pure _) fun _ => .ite (fun _ => .raise _) fun _ => ?_
    exact .bind routine_checkCancelled fun _ => ih

theorem routine_waitContainerRunning :
    Routine node (waitContainerRunning S clients host container) :=
  .bind (Calm.remotely .patience) fun _ => routine_pollContainer

theorem works_destroyClab : Works node (destroyClab S clients host path) :=
  .bind works_run fun _ => .pure _

theorem routine_syncVxlanState : Routine node (syncVxlanState : Ctl ρ Unit) :=
  Calm.modifyState fun _ => ⟨⟨rfl, rfl, rfl, rfl, rfl, rfl, rfl, rfl, rfl⟩, rfl⟩

theorem routine_recordFailure {e : Err} : Routine node (recordFailure node e : Ctl ρ Unit) :=
  .bind (Calm.modifyRuntime fun _ => rfl) fun _ => .bind Calm.save fun _ => .raise _

/-! ## The validation of links -/

theorem routine_hostHasEndpoint {s : RuntimeLinks.Side} :
    Routine node (hostHasEndpoint S clients s) :=
  .ite (fun _ => .pure _) fun _ => .bind (routine_runNoCheck rfl) fun _ => .pure _

theorem routine_validateSide {s : RuntimeLinks.Side} :
    Routine node (validateSide S clients s) := by
  unfold validateSide
  split
  · exact .pure _
  · refine .bind Calm.state' fun st => ?_
    split
    · exact .raise _
    · exact .bind routine_hostHasEndpoint fun _ => .ite (fun _ => .pure _) fun _ => .ofExcept _

theorem routine_markLinkValidation {link : RuntimeLinkState} :
    Routine node (markLinkValidation S clients link) := by
  have hval : Routine node (validateNewHotLink S clients link) :=
    .bind routine_validateSide fun _ => routine_validateSide
  refine .bind hval.attempt fun r => ?_
  split
  · exact .ite (fun _ => .pure _) fun _ => .pure _
  · exact .ite (fun _ => .pure _) fun _ => .raise _

/-! ## Shared services -/

theorem routine_refreshDns : Routine node (refreshDns S) := by
  refine .bind .get fun w => ?_
  split
  · exact .pure _
  · exact .bind (Calm.outside _) fun _ =>
      Calm.modifyState fun _ => ⟨⟨rfl, rfl, rfl, rfl, rfl, rfl, rfl, rfl, rfl⟩, rfl⟩

theorem routine_relayKey : Routine node (relayKey S) := by
  refine .bind Calm.state' fun st => ?_
  split
  · exact .pure _
  · exact Calm.outside _

theorem routine_reconcileSharedServices {plan : SchedulePlan} {underlay : Dict String String} :
    Routine node (reconcileSharedServices S plan underlay) := by
  refine .bind routine_relayKey fun _ => .bind .get fun _ => .bind (Calm.outside _) fun _ => ?_
  refine .bind (Calm.modifyState fun _ =>
    ⟨⟨rfl, rfl, rfl, rfl, rfl, rfl, rfl, rfl, rfl⟩, rfl⟩) fun _ => ?_
  exact .bind routine_refreshDns fun _ => .bind .get fun _ => .when fun _ => Calm.outside _

theorem routine_refreshSharedServices : Routine node (refreshSharedServices S) :=
  .bind .get fun _ => routine_reconcileSharedServices

/-! ## The start of a device -/

theorem works_bootRuntime {runtime : NodeRuntimeState} :
    Works node (bootRuntime S clients node runtime) := by
  refine .bind (works_of_routine routine_connect) fun _ => ?_
  refine .bind (works_of_routine routine_checkCancelled) fun _ => ?_
  refine .bind (works_of_routine routine_setPhase) fun _ => .bind works_run fun _ => ?_
  refine .bind (works_of_routine routine_checkCancelled) fun _ => ?_
  refine .bind (works_of_routine routine_waitContainerRunning) fun _ => ?_
  refine .bind (works_of_routine routine_checkCancelled) fun _ => ?_
  refine .bind (works_of_routine routine_setDefaultRoute) fun _ => ?_
  refine .bind (works_of_routine routine_setPhase) fun _ => ?_
  exact .bind (Calm.remotely (.of_log_eq fun _ => rfl)) fun _ => Calm.modifyRuntime fun _ => rfl

/-! ## The place of a new device -/

theorem routine_resolveUnderlayIps : Routine node (resolveUnderlayIps S clients) := by
  refine .bind Calm.topo' fun t => .bind (.mapEach fun _ _ => ?_) fun _ => .pure _
  exact .bind (routine_runNoCheck rfl) fun r => .ite (fun _ => .raise _) fun _ => .pure _

theorem routine_choosePlace {n : String} : Routine node (choosePlace S clients n) := by
  refine .bind routine_connect fun _ => .bind routine_checkCancelled fun _ => ?_
  have hgather : Adds IsRoutine (Scheduler.gatherHostResources S.backend clients) := by
    refine .bind (.mapEach fun _ _ => .rescue ?_ fun _ => .raise _) fun _ => .pure _
    refine .bind (.run fun ok => ⟨_, _, ok, rfl, rfl⟩) fun _ => ?_
    refine .bind (.run fun ok => ⟨_, _, ok, rfl, rfl⟩) fun _ => ?_
    exact .bind (.ofExcept _) fun _ => .bind (.ofExcept _) fun _ => .pure _
  have hselect : Routine node (selectAddHost S clients n) := by
    refine .bind Calm.topo' fun _ => .bind (.ofExcept _) fun _ => .bind (Calm.outside _) fun _ => ?_
    refine .bind (Calm.remotely hgather) fun _ => .bind (.mapEach fun _ _ => ?_) fun _ => ?_
    · refine .bind (routine_runNoCheck rfl) fun _ => .bind Calm.state' fun _ => ?_
      exact .ite (fun _ => .pure _) fun _ => .ite (fun _ => .pure _) fun _ => .pure _
    · split
      · exact .pure _
      · exact .raise _
  exact .bind routine_resolveUnderlayIps fun _ => .bind hselect fun _ => .pure _

/-- A new record is that of its device, on the host it is deployed on. -/
theorem newRuntime_eq_ok {topo : DistributedTopology} {host path : String}
    {runtime : NodeRuntimeState} (h : newRuntime topo node host path = .ok runtime) :
    runtime.node = node ∧ runtime.host = host := by
  simp only [newRuntime, ExceptRules.bind_eq_ok, ExceptRules.pure_eq_ok] at h
  obtain ⟨_, -, _, -, rfl⟩ := h
  exact ⟨rfl, rfl⟩

theorem routine_allocatePorts {cfg : WebUIPortsCfg} {previous : Dict ℕ ℕ} {existing : List ℕ}
    {specs : List WebUISpec} : Routine node (allocatePorts S cfg previous existing specs) := by
  induction specs generalizing existing with
  | nil => exact .pure _
  | cons spec specs ih =>
    refine .ite (fun _ => ih) fun _ => .bind (Calm.outside _) fun _ => ?_
    exact .bind ih fun _ => .pure _

theorem routine_uploadIn {content : String} :
    Routine node (uploadIn S clients host path content) :=
  .bind (routine_run rfl) fun _ => .bind (routine_run rfl) fun _ => .pure _

theorem routine_uploadAssets {n : String} : Routine node (uploadAssets S clients host n) := by
  refine .bind Calm.topo' fun _ => .bind (.ofExcept _) fun _ => .bind (.when fun _ => ?_) fun _ => ?_
  · exact .bind (routine_run rfl) fun _ => .pure _
  · refine .bind (.forEach fun _ _ => routine_uploadIn) fun _ => ?_
    exact .forEach fun _ _ => routine_uploadIn

theorem works_deployNode {content : ClabDict} :
    Works node (deployNode S clients host node path content) := by
  refine .bind (works_of_routine routine_checkCancelled) fun _ => ?_
  refine .bind (works_of_routine routine_uploadAssets) fun _ => .bind works_run fun _ => ?_
  refine .bind (works_of_routine routine_checkCancelled) fun _ => .bind works_run fun _ => ?_
  refine .bind (works_of_routine routine_checkCancelled) fun _ => .bind Calm.topo' fun _ => ?_
  refine .bind (works_of_routine routine_waitContainerRunning) fun _ => ?_
  refine .bind (works_of_routine routine_checkCancelled) fun _ => ?_
  refine .bind (works_of_routine routine_setDefaultRoute) fun _ => ?_
  refine .bind (Calm.remotely (.of_log_eq fun _ => rfl)) fun _ => ?_
  exact .bind (Calm.modifyRuntime fun _ => rfl) fun _ => works_of_routine routine_setPhase

theorem works_dropContainer {l : AddLocals} : Works node (dropContainer S clients l) :=
  .bind works_runNoCheck fun _ => .pure _

end Steps

/-! ## Steps that change links -/

/-- A step that leaves the devices where they are. -/
structure Steady {ρ : Type} (node : String) (w w' : World ρ) : Prop where
  hosts : w'.topo.allHosts = w.topo.allHosts
  state : Alike node w.state w'.state
  saved : w'.saved = w.saved ∨ Alike node w.state w'.saved
  placed : w'.placed = w.placed

section Steady

variable {ρ α : Type} {S : Services ρ} {clients : Clients} {node : String}

instance : Std.Refl (@Steady ρ node) where
  refl _ := ⟨rfl, .refl _, .inl rfl, rfl⟩

instance : IsTrans (World ρ) (Steady node) where
  trans w w' w'' h h' := by
    refine ⟨h'.hosts.trans h.hosts, h.state.trans h'.state, ?_, h'.placed.trans h.placed⟩
    rcases h'.saved with hs | hs
    · rw [hs]
      exact h.saved
    · exact .inr (h.state.trans hs)

theorem Calm.steady {Q : Event → Prop} {w w' : World ρ} (h : Calm Q node w w') :
    Steady node w w' :=
  ⟨by rw [h.topo], h.state, h.saved.imp_right And.left, h.placed⟩

theorem steady_of_routine {p : Ctl ρ α} (h : Routine node p) : Prog.Within (Steady node) p :=
  h.mono fun _ _ => Calm.steady

theorem steady_of_works {p : Ctl ρ α} (h : Works node p) : Prog.Within (Steady node) p :=
  h.mono fun _ _ => Calm.steady

/-- Changing the links alone. -/
theorem steady_setLinks {f : DeploymentState → List RuntimeLinkState} :
    Prog.Within (Steady node) (modifyState fun st => { st with runtimeLinks := f st } : Ctl ρ Unit) :=
  fun _ => ⟨rfl, ⟨rfl, rfl, rfl, rfl, rfl, rfl, rfl, rfl, rfl⟩, .inl rfl, rfl⟩

theorem steady_remotely {p : Prog (Remote ρ) Err α} : Prog.Within (Steady node) (remotely p) :=
  fun _ => ⟨rfl, .refl _, .inl rfl, rfl⟩

theorem steady_onLinks
    {f : List RuntimeLinkState → Prog (Remote ρ) Err (List RuntimeLinkState × Option Err)} :
    Prog.Within (Steady node) (onLinks f) := by
  refine .bind (.bind .get fun _ => .pure _) fun _ => .bind steady_remotely fun r => ?_
  refine .bind steady_setLinks fun _ => ?_
  split
  · exact .raise _
  · exact .pure _

theorem run_placeLinks {assignments : Dict String HostAssignment} (w : World ρ) :
    (placeLinks assignments).run w =
      match Scheduler.classifyLinks w.topo (assignedPlan w.topo assignments) true with
      | .ok (t, plan) => (.ok plan, { w with topo := t })
      | .error e => (.error e, w) := by
  rw [placeLinks]
  simp only [Prog.run_bind, topo, Prog.run_get, Prog.run_pure]
  cases Scheduler.classifyLinks w.topo (assignedPlan w.topo assignments) true <;> rfl

theorem steady_placeLinks {assignments : Dict String HostAssignment} :
    Prog.Within (Steady node) (placeLinks assignments : Ctl ρ SchedulePlan) := by
  intro w
  rw [run_placeLinks]
  cases h : Scheduler.classifyLinks w.topo (assignedPlan w.topo assignments) true with
  | error e => exact Std.Refl.refl w
  | ok r =>
    obtain ⟨_, _, _, -, -, ht, -⟩ := Scheduler.classifyLinks_eq_ok h
    have hosts : r.1.allHosts = w.topo.allHosts := by
      rw [ht]
      rfl
    exact ⟨hosts, .refl _, .inl rfl, rfl⟩

theorem steady_refreshRuntimeLinks : Prog.Within (Steady node) (refreshRuntimeLinks S clients) := by
  refine .bind .get fun w => .bind steady_placeLinks fun _ => ?_
  refine .bind (steady_of_routine Calm.topo') fun _ => .bind (.ofExcept _) fun _ => ?_
  refine .bind (.forEach fun _ _ => steady_onLinks) fun _ => .bind (.mapEach fun _ _ => ?_) fun _ =>
    steady_setLinks
  exact .ite (fun _ => steady_of_routine routine_markLinkValidation) fun _ => .pure _

theorem steady_cancelStartedNode :
    Prog.Within (Steady node) (cancelStartedNode S clients node) := by
  refine .bind (steady_of_routine routine_setPhase) fun _ => ?_
  refine .bind (steady_of_routine routine_runtimeOf) fun _ => ?_
  refine .bind (.when fun _ => .quietly (steady_of_works works_destroyClab)) fun _ => ?_
  refine .bind (.quietly steady_onLinks) fun _ => ?_
  refine .bind (steady_of_routine (Calm.modifyRuntime fun _ => rfl)) fun _ => ?_
  refine .bind (.quietly steady_refreshRuntimeLinks) fun _ => .bind steady_setLinks fun _ => ?_
  refine .bind (steady_of_routine routine_syncVxlanState) fun _ => ?_
  refine .bind (.quietly (steady_of_routine routine_refreshSharedServices)) fun _ => ?_
  exact steady_of_routine Calm.save

theorem steady_startSteps {runtime : NodeRuntimeState} :
    Prog.Within (Steady node) (startSteps S clients node runtime) := by
  refine .bind (steady_of_works works_bootRuntime) fun _ => ?_
  refine .bind (steady_of_routine Calm.state') fun _ => .bind steady_refreshRuntimeLinks fun _ => ?_
  refine .bind (steady_of_routine routine_checkCancelled) fun _ => .bind .get fun _ => ?_
  refine .bind steady_onLinks fun _ => .bind (steady_of_routine routine_checkCancelled) fun _ => ?_
  refine .bind (steady_of_routine routine_syncVxlanState) fun _ => ?_
  exact steady_of_routine routine_setPhase

theorem steady_startRuntime : Prog.Within (Steady node) (startRuntime S node) := by
  refine .bind (steady_of_routine routine_runtimeOf) fun runtime => ?_
  refine .bind (steady_of_routine routine_ensureDeployed) fun _ => ?_
  refine .bind (steady_of_routine routine_ensurePerVdRuntime) fun _ => .when fun _ => ?_
  refine .bind (steady_of_routine routine_createClients) fun clients =>
    .rescue steady_startSteps fun e => .ite (fun _ => steady_cancelStartedNode) fun _ => ?_
  refine .bind (steady_of_routine routine_cancelled) fun _ => ?_
  exact .ite (fun _ => steady_cancelStartedNode) fun _ => steady_of_routine routine_recordFailure

theorem steady_stop {force : Bool} : Prog.Within (Steady node) (stop S node force) := by
  refine .bind .get fun w => ?_
  split
  · refine .bind (steady_of_routine routine_ensureDeployed) fun _ => ?_
    refine .bind (steady_of_routine routine_ensurePerVdRuntime) fun _ => .when fun _ => ?_
    refine .bind (steady_of_routine routine_createClients) fun clients => .rescue ?_ fun e =>
      steady_of_routine routine_recordFailure
    refine .bind (steady_of_routine routine_connect) fun _ => ?_
    refine .bind (steady_of_routine routine_setPhase) fun _ => .bind ?_ fun _ => ?_
    · refine .ite (fun _ => ?_) fun _ => ?_
      · exact .bind (steady_of_works works_destroyClab) fun _ => steady_onLinks
      · exact .bind steady_onLinks fun _ => steady_of_works works_destroyClab
    · refine .bind (steady_of_routine (Calm.modifyRuntime fun _ => rfl)) fun _ => ?_
      refine .bind steady_setLinks fun _ => ?_
      exact .bind (steady_of_routine routine_syncVxlanState) fun _ => steady_of_routine Calm.save
  · exact .ite (fun _ => .pure _) fun _ => .raise _

theorem steady_reconcile {n : Option String} :
    Prog.Within (Steady node) (reconcile S n) := by
  refine .bind (steady_of_routine routine_ensureDeployed) fun _ => ?_
  refine .bind (steady_of_routine routine_createClients) fun _ => ?_
  refine .bind (steady_of_routine routine_connect) fun _ => ?_
  refine .bind steady_refreshRuntimeLinks fun _ => .bind .get fun _ => .bind ?_ fun _ => ?_
  · unfold reconcileLinks
    split
    · refine .bind (steady_of_routine routine_runtimeOf) fun _ => ?_
      exact .bind (steady_of_routine routine_ensurePerVdRuntime) fun _ => steady_onLinks
    · exact steady_onLinks
  · refine .bind (steady_of_routine routine_syncVxlanState) fun _ => ?_
    refine .bind (steady_of_routine routine_refreshSharedServices) fun _ => ?_
    exact steady_of_routine Calm.save

theorem steady_reconcileLink {nodeA ifaceA nodeB ifaceB realNet : String} :
    Prog.Within (Steady node) (reconcileLink S nodeA ifaceA nodeB ifaceB realNet) := by
  refine .bind (steady_of_routine routine_ensureDeployed) fun _ => ?_
  refine .bind (steady_of_routine routine_createClients) fun _ => ?_
  refine .bind (steady_of_routine routine_connect) fun _ => ?_
  refine .bind steady_refreshRuntimeLinks fun _ => .bind .get fun _ => ?_
  refine .bind (.when fun _ => .raise _) fun _ => .bind steady_onLinks fun _ => ?_
  exact .bind (steady_of_routine routine_syncVxlanState) fun _ => steady_of_routine Calm.save

theorem routine_rebuildLinks {plan : SchedulePlan} :
    Routine node (rebuildLinks S clients node plan) := by
  refine .bind .get fun _ => .bind (.ofExcept _) fun _ => .mapEach fun _ _ => ?_
  exact .ite (fun _ => routine_markLinkValidation) fun _ => .pure _

theorem steady_activateNode {plan : SchedulePlan} {underlay : Dict String String} :
    Prog.Within (Steady node) (activateNode S clients node plan underlay) := by
  refine .bind (steady_of_routine routine_checkCancelled) fun _ => ?_
  refine .bind (steady_of_routine Calm.state') fun _ => .bind steady_onLinks fun _ => ?_
  refine .bind (steady_of_routine routine_checkCancelled) fun _ => ?_
  refine .bind (steady_of_routine routine_syncVxlanState) fun _ => ?_
  refine .bind (steady_of_routine routine_reconcileSharedServices) fun _ => ?_
  refine .bind (steady_of_routine routine_checkCancelled) fun _ => ?_
  exact steady_of_routine routine_setPhase

end Steady

end Dnlab.Node
