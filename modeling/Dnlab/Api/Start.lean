import Dnlab.Api
import Dnlab.Controllers.Node.Frame
import Dnlab.Services.Remote.Frame

/-!
# What a start makes of its cancel event

A look that finds the event set ends what the thread does with an exception
(`Listens`), and everything else in a start leaves the event alone (`Deaf`). The
handlers of the exception take the device and its links down
(`cancelStartedNode_atRest`), unless the device has not been registered. So when
the looks of a start have found the event set, the device is saved at rest
(`start_atRest`).
-/

namespace Dnlab.Api

open Ctl Node

/-- The device does not run, and none of its links is up. -/
def AtRest (node : String) (st : DeploymentState) : Prop :=
  (∀ r ∈ st.nodeRuntime.get? node, r.state ≠ .running) ∧
    ∀ l ∈ st.runtimeLinks, node ∈ RuntimeLinks.nodesInLink l → l.state ≠ .up

instance (node : String) (st : DeploymentState) : Decidable (AtRest node st) :=
  inferInstanceAs (Decidable (_ ∧ _))

/-- The looks to come find the event set. -/
def Unheard {ρ : Type} (w : World (Scripted ρ)) : Prop := true ∈ w.remote.env.looks

section Looks

variable {ρ α : Type} {S : Services ρ} {clients : Clients} {node host container path : String}

/-- A step that does not look at the event. -/
abbrev Deaf {α : Type} (p : Ctl (Scripted ρ) α) : Prop := Prog.Keeps Unheard p

/-- A step that looks at the event, and ends when it is set; `U` says that it will be found set. -/
abbrev Listens {σ α : Type} (U : σ → Prop) (p : Prog σ Err α) : Prop :=
  Prog.Triple U p (fun _ => U) fun e s => e.kind = .cancelled ∨ U s

theorem listens_of_keeps {σ : Type} {U : σ → Prop} {p : Prog σ Err α} (h : Prog.Keeps U p) :
    Listens U p :=
  (Prog.Triple.of_keeps h).weaken (fun _ => id) (fun _ _ => id) fun _ _ => .inr

theorem untouched : Untouched (backend S.backend)
    fun r : Remote (Scripted ρ) => true ∈ r.env.looks where
  runNoCheck _ _ _ hr := hr
  note _ _ hr := hr

theorem deaf_remotely {p : Prog (Remote (Scripted ρ)) Err α}
    (hp : Prog.Keeps (fun r => true ∈ r.env.looks) p) : Deaf (remotely p) :=
  fun w hw => hp w.remote hw

theorem deaf_outside (f : ρ → Except Err α × ρ) : Deaf (outside (onEnv f)) := fun _ hw => hw

theorem deaf_runNoCheck {cmd : Cmd} :
    Deaf (remotely (clients.runNoCheck (services S).backend host cmd)) :=
  deaf_remotely untouched.clientsRunNoCheck

theorem deaf_run {cmd : Cmd} {check : Bool} :
    Deaf (remotely (clients.run (services S).backend host cmd check)) :=
  deaf_remotely untouched.run

theorem deaf_topo : Deaf (topo : Ctl (Scripted ρ) DistributedTopology) := fun _ hw => hw

theorem deaf_state : Deaf (state : Ctl (Scripted ρ) DeploymentState) := fun _ hw => hw

theorem deaf_modifyState {f : DeploymentState → DeploymentState} :
    Deaf (modifyState f : Ctl (Scripted ρ) Unit) := fun _ hw => hw

theorem deaf_modifyTopo {f : DistributedTopology → DistributedTopology} :
    Deaf (modifyTopo f : Ctl (Scripted ρ) Unit) := fun _ hw => hw

theorem deaf_save : Deaf (save : Ctl (Scripted ρ) Unit) := fun _ hw => hw

theorem deaf_setPhase {phase : NodePhase} : Deaf (setPhase node phase : Ctl (Scripted ρ) Unit) :=
  .bind deaf_modifyState fun _ => deaf_save

theorem deaf_onLinks {f : List RuntimeLinkState →
      Prog (Remote (Scripted ρ)) Err (List RuntimeLinkState × Option Err)}
    (hf : ∀ links, Prog.Keeps (fun r => true ∈ r.env.looks) (f links)) : Deaf (onLinks f) := by
  refine .bind deaf_state fun st => .bind (deaf_remotely (hf _)) fun r => ?_
  refine .bind deaf_modifyState fun _ => ?_
  split
  · exact .raise _
  · exact .pure _

theorem deaf_connect : Deaf (connect (services S) clients) :=
  .forEach fun _ _ => .bind deaf_runNoCheck fun _ => .pure _

theorem deaf_setDefaultRoute : Deaf (setDefaultRoute (services S) clients host container) :=
  .bind deaf_topo fun _ => .when fun _ => .bind deaf_runNoCheck fun _ => .pure _

theorem deaf_runtimeOf : Deaf (runtimeOf node : Ctl (Scripted ρ) NodeRuntimeState) := by
  refine .bind deaf_state fun st => ?_
  split
  · exact .pure _
  · exact .raise _

theorem deaf_ensureDeployed : Deaf (ensureDeployed : Ctl (Scripted ρ) Unit) :=
  .bind .get fun _ => .ite (fun _ => .pure _) fun _ => .raise _

theorem deaf_ensurePerVdRuntime {runtime : NodeRuntimeState} :
    Deaf (ensurePerVdRuntime runtime : Ctl (Scripted ρ) Unit) :=
  .bind deaf_topo fun _ => .ite (fun _ => .pure _) fun _ => .raise _

theorem deaf_recordFailure {e : Err} : Deaf (recordFailure node e : Ctl (Scripted ρ) Unit) :=
  .bind deaf_modifyState fun _ => .bind deaf_save fun _ => .raise _

/-- A look finds the event set, or one to come does. -/
theorem cancelled_spec : Prog.Triple Unheard (cancelled (services S))
    (fun found w => found = true ∨ Unheard w) fun _ _ => False := by
  intro w hw
  have hrun : (cancelled (services S)).run w = (.ok (isSet w.remote.env).1,
    { w with remote := { w.remote with env := (isSet w.remote.env).2 } }) := rfl
  rw [hrun]
  rcases hl : w.remote.env.looks with _ | ⟨found, looks⟩
  · rw [Unheard, hl] at hw
    cases hw
  · rw [Unheard, hl] at hw
    simp only [isSet, hl, Unheard]
    rcases List.mem_cons.1 hw with rfl | hlater
    · exact .inl rfl
    · exact .inr hlater

/-- A look that finds the event set raises. -/
theorem listens_checkCancelled : Listens Unheard (checkCancelled (services S)) := by
  refine .bind (cancelled_spec.weaken (fun _ => id) (fun _ _ => id) fun _ _ h => h.elim)
    fun found => .ite (fun _ => .raise fun _ _ => .inl rfl) fun hfound => .pure fun w hw => ?_
  exact hw.resolve_left hfound

theorem listens_pollContainer {n : ℕ} :
    Listens Unheard (pollContainer (services S) clients host container n) := by
  induction n with
  | zero => exact .raise fun _ => .inr
  | succ n ih =>
    refine .bind listens_checkCancelled fun _ => .bind (listens_of_keeps deaf_runNoCheck) fun r => ?_
    refine .ite (fun _ => .pure fun _ => id) fun _ => .ite (fun _ => .raise fun _ => .inr) fun _ => ?_
    exact .bind listens_checkCancelled fun _ => ih

theorem listens_waitContainerRunning :
    Listens Unheard (waitContainerRunning (services S) clients host container) :=
  .bind (listens_of_keeps (deaf_remotely Untouched.patience)) fun _ => listens_pollContainer

/-! ## Links and shared services -/

theorem deaf_placeLinks {assignments : Dict String HostAssignment} :
    Deaf (placeLinks assignments : Ctl (Scripted ρ) SchedulePlan) :=
  .bind deaf_topo fun _ => .bind (.ofExcept _) fun _ => .bind deaf_modifyTopo fun _ => .pure _

theorem deaf_validateSide {s : RuntimeLinks.Side} : Deaf (validateSide (services S) clients s) := by
  rw [validateSide]
  split
  · exact .pure _
  · refine .bind deaf_state fun st => ?_
    split
    · exact .raise _
    · refine .bind (.ite (fun _ => .pure _) fun _ => ?_) fun _ =>
        .ite (fun _ => .pure _) fun _ => .ofExcept _
      exact .bind deaf_runNoCheck fun _ => .pure _

theorem deaf_markLinkValidation {link : RuntimeLinkState} :
    Deaf (markLinkValidation (services S) clients link) := by
  have hval : Deaf (validateNewHotLink (services S) clients link) :=
    .bind deaf_validateSide fun _ => deaf_validateSide
  refine .bind hval.attempt fun r => ?_
  split
  · exact .ite (fun _ => .pure _) fun _ => .pure _
  · exact .ite (fun _ => .pure _) fun _ => .raise _

theorem deaf_refreshRuntimeLinks : Deaf (refreshRuntimeLinks (services S) clients) := by
  refine .bind .get fun w => .bind deaf_placeLinks fun _ => .bind deaf_topo fun _ => ?_
  refine .bind (.ofExcept _) fun _ => .bind (.forEach fun _ _ => deaf_onLinks fun links => ?_)
    fun _ => .bind (.mapEach fun _ _ => ?_) fun _ => deaf_modifyState
  · exact .bind (RuntimeLinks.keeps_deleteLink untouched) fun _ => .pure _
  · exact .ite (fun _ => deaf_markLinkValidation) fun _ => .pure _

theorem deaf_deleteNodeLinks : Deaf (deleteNodeLinks (services S) clients node) :=
  deaf_onLinks fun _ => RuntimeLinks.keeps_deleteNodeLinks untouched

theorem deaf_reconcileNodeLinks {underlay : Dict String String} {running : List String} :
    Deaf (reconcileNodeLinks (services S) clients node underlay running) :=
  deaf_onLinks fun _ => RuntimeLinks.keeps_reconcileNodeLinks untouched

theorem deaf_reconcileSharedServices {plan : SchedulePlan} {underlay : Dict String String} :
    Deaf (reconcileSharedServices (services S) plan underlay) := by
  have hkey : Deaf (relayKey (services S)) := by
    refine .bind deaf_state fun st => ?_
    split
    · exact .pure _
    · exact deaf_outside _
  have hdns : Deaf (refreshDns (services S)) := by
    refine .bind .get fun w => ?_
    split
    · exact .pure _
    · exact .bind (deaf_outside _) fun _ => deaf_modifyState
  refine .bind hkey fun _ => .bind .get fun _ => .bind (deaf_outside _) fun _ => ?_
  refine .bind deaf_modifyState fun _ => .bind hdns fun _ => .bind .get fun _ => ?_
  exact .when fun _ => deaf_outside _

theorem deaf_refreshSharedServices : Deaf (refreshSharedServices (services S)) :=
  .bind .get fun _ => deaf_reconcileSharedServices

end Looks

/-! ## The device is taken down -/

section Cancel

variable {τ : Type} {T : Services τ} {clients : Clients} {node : String}

/-- The device is not recorded as running. -/
def NotRunning (node : String) (st : DeploymentState) : Prop :=
  ∀ r ∈ st.nodeRuntime.get? node, r.state ≠ .running

/-- A step that may change the condition of any one device changes that of no device. -/
theorem exists_other (node : String) : ∃ other : String, node ≠ other :=
  ⟨node ++ "'", fun h => by simpa using congrArg String.length h⟩

theorem NotRunning.of_get? {st st' : DeploymentState}
    (hget : st'.nodeRuntime.get? node = st.nodeRuntime.get? node) (h : NotRunning node st) :
    NotRunning node st' := by
  rw [NotRunning, hget]
  exact h

theorem atRest_of_calm {Q : Event → Prop} {other : String} {w w' : World τ} (hne : node ≠ other)
    (hc : Calm Q other w w') (h : AtRest node w.state) : AtRest node w'.state :=
  ⟨NotRunning.of_get? (hc.state.get?_of_ne hne) h.1, hc.links ▸ h.2⟩

/-- The links of a stopped device are not up. -/
theorem atRest_markStopped {st : DeploymentState} (h : NotRunning node st) :
    AtRest node { st with runtimeLinks := st.runtimeLinks.map (markStopped node true) } := by
  refine ⟨h, fun l hl hnode => ?_⟩
  obtain ⟨l₀, -, rfl⟩ := List.mem_map.1 hl
  by_cases hmem : node ∈ RuntimeLinks.nodesInLink l₀
  · rw [markStopped, if_pos hmem]
    exact fun h => by cases h
  · rw [markStopped, if_neg hmem] at hnode
    exact absurd hnode hmem

/-- However much of the cleanup fails, the device is saved at rest. -/
theorem cancelStartedNode_atRest :
    Prog.Triple (fun w => node ∈ w.state.nodeRuntime.keys) (cancelStartedNode T clients node)
      (fun _ w => AtRest node w.saved) fun _ _ => False := by
  obtain ⟨other, hne⟩ := exists_other node
  have hquiet : ∀ {p : Ctl τ Unit}, Prog.Within (Steady node) p →
      Prog.Triple (fun w => node ∈ w.state.nodeRuntime.keys) p.quietly
        (fun _ w => node ∈ w.state.nodeRuntime.keys) fun _ _ => False := fun hp =>
    .quietly (hp.keeps fun _ _ hs hw => hs.state.keys ▸ hw)
  have hmodify : ∀ {f : NodeRuntimeState → NodeRuntimeState},
      Prog.Triple (fun w => node ∈ w.state.nodeRuntime.keys) (modifyRuntime node f : Ctl τ Unit)
        (fun _ w => node ∈ w.state.nodeRuntime.keys) fun _ _ => False :=
    .modify fun w hw => (w.state.nodeRuntime.keys_modify node _).symm ▸ hw
  refine .bind (Q := fun _ w => node ∈ w.state.nodeRuntime.keys)
    (.bind hmodify fun _ => .modify fun _ hw => hw) fun _ => ?_
  refine .bind (Q := fun _ w => node ∈ w.state.nodeRuntime.keys) (fun w hw => ?_) fun runtime => ?_
  · obtain ⟨r, hr⟩ := Dict.mem_keys_iff.1 hw
    have hrun : (runtimeOf node).run w = (.ok r, w) := by
      rw [runtimeOf, Prog.run_bind_ok (show state.run w = (.ok w.state, w) from rfl), hr]
      rfl
    rw [hrun]
    exact hw
  · refine .bind (.when fun _ => hquiet (steady_of_works works_destroyClab)) fun _ => ?_
    refine .bind (hquiet steady_onLinks) fun _ => ?_
    -- From here on the device is stopped, and its record is not changed again.
    refine .bind (Q := fun _ w => NotRunning node w.state) (.modify fun w hw r hr => ?_) fun _ => ?_
    · have hget := (Dict.get?_modify w.state.nodeRuntime node node
        (fun r => { r with state := .stopped, lastError := "" })).symm.trans hr
      rw [if_pos rfl] at hget
      obtain ⟨r₀, -, rfl⟩ := Option.map_eq_some_iff.1 hget
      exact fun h => by cases h
    have hlinks : Prog.Within (Steady other) (refreshRuntimeLinks T clients) :=
      steady_refreshRuntimeLinks
    refine .bind (.quietly (hlinks.keeps fun _ _ hs hw =>
      NotRunning.of_get? (hs.state.get?_of_ne hne) hw)) fun _ => ?_
    refine .bind (Q := fun _ w => AtRest node w.state) (.modify fun w hw => atRest_markStopped hw)
      fun _ => ?_
    refine .bind (Q := fun _ w => AtRest node w.state) (.modify fun _ hw => hw) fun _ => ?_
    have hservices : Routine other (refreshSharedServices T) := routine_refreshSharedServices
    refine .bind (.quietly (hservices.keeps fun _ _ hc hw => atRest_of_calm hne hc hw)) fun _ => ?_
    exact .modify fun _ hw => hw

end Cancel

/-! ## A device that is deployed -/

section Start

variable {ρ α : Type} {S : Services ρ} {clients : Clients} {node : String}

/-- The device is deployed, and the event will be found set. -/
def Pursued (node : String) (w : World (Scripted ρ)) : Prop :=
  Unheard w ∧ node ∈ w.state.nodeRuntime.keys

/-- The device is saved at rest, unless the event is still to be found set. -/
def Heard (node : String) (w : World (Scripted ρ)) : Prop := Unheard w ∨ AtRest node w.saved

theorem pursued_step {p : Ctl (Scripted ρ) α} (hd : Deaf p) (hs : Prog.Within (Steady node) p) :
    Prog.Triple (Pursued node) p (fun _ => Pursued node) fun _ => Heard node :=
  (Prog.Triple.of_keeps fun w hw => ⟨hd w hw.1, (hs w).state.keys ▸ hw.2⟩).weaken (fun _ => id)
    (fun _ _ => id) fun _ _ hw => .inl hw.1

theorem listens_startSteps {runtime : NodeRuntimeState} :
    Listens Unheard (startSteps (services S) clients node runtime) := by
  have hboot : Listens Unheard (bootRuntime (services S) clients node runtime) := by
    refine .bind (listens_of_keeps deaf_connect) fun _ => .bind listens_checkCancelled fun _ => ?_
    refine .bind (listens_of_keeps deaf_setPhase) fun _ => .bind (listens_of_keeps deaf_run) fun _ => ?_
    refine .bind listens_checkCancelled fun _ => .bind listens_waitContainerRunning fun _ => ?_
    refine .bind listens_checkCancelled fun _ => .bind (listens_of_keeps deaf_setDefaultRoute) fun _ => ?_
    refine .bind (listens_of_keeps deaf_setPhase) fun _ => ?_
    refine .bind (listens_of_keeps (deaf_remotely Untouched.now)) fun _ => ?_
    exact listens_of_keeps deaf_modifyState
  refine .bind hboot fun _ => .bind (listens_of_keeps deaf_state) fun _ => ?_
  refine .bind (listens_of_keeps deaf_refreshRuntimeLinks) fun _ => ?_
  refine .bind listens_checkCancelled fun _ => .bind (listens_of_keeps .get) fun _ => ?_
  refine .bind (listens_of_keeps deaf_reconcileNodeLinks) fun _ => ?_
  refine .bind listens_checkCancelled fun _ => .bind (listens_of_keeps deaf_modifyState) fun _ => ?_
  exact listens_of_keeps deaf_setPhase

/-- The handlers of a start look once more, where its steps did not find the event set. -/
theorem handleStart_heard {e : Err} :
    Prog.Triple (fun w => (e.kind = .cancelled ∨ Unheard w) ∧ node ∈ w.state.nodeRuntime.keys)
      (handleStart (services S) clients node e) (fun _ => Heard node) fun _ => Heard node := by
  have hdown : Prog.Triple (fun w => node ∈ w.state.nodeRuntime.keys)
      (cancelStartedNode (services S) clients node) (fun _ => Heard node) fun _ => Heard node :=
    cancelStartedNode_atRest.weaken (fun _ => id) (fun _ _ => .inr) fun _ _ h => h.elim
  refine .ite (fun _ => hdown.weaken (fun _ => And.right) (fun _ _ => id) fun _ _ => id) fun hkind => ?_
  refine .bind (Q := fun found w =>
    (found = true ∨ Unheard w) ∧ node ∈ w.state.nodeRuntime.keys) ?_ fun found => ?_
  · have hkeys : Prog.Keeps (fun w : World (Scripted ρ) => node ∈ w.state.nodeRuntime.keys)
        (cancelled (services S)) := fun _ hw => hw
    refine (cancelled_spec.and (.of_keeps hkeys)).weaken (fun w hw => ?_) (fun _ _ => id)
      fun _ _ h => h.1.elim
    exact ⟨hw.1.resolve_left hkind, hw.2⟩
  · refine .ite (fun _ => hdown.weaken (fun _ => And.right) (fun _ _ => id) fun _ _ => id) fun hfound => ?_
    refine (Prog.Triple.of_keeps deaf_recordFailure).weaken (fun w hw => ?_) (fun _ _ => .inl)
      fun _ _ => .inl
    exact hw.1.resolve_left hfound

theorem startRuntime_heard : Prog.Triple (Pursued node) (startRuntime (services S) node)
    (fun _ => Heard node) fun _ => Heard node := by
  refine .bind (pursued_step deaf_runtimeOf (steady_of_routine routine_runtimeOf)) fun runtime => ?_
  refine .bind (pursued_step deaf_ensureDeployed (steady_of_routine routine_ensureDeployed))
    fun _ => ?_
  refine .bind (pursued_step deaf_ensurePerVdRuntime (steady_of_routine routine_ensurePerVdRuntime))
    fun _ => .ite (fun _ => ?_) fun _ => .pure fun _ hw => .inl hw.1
  refine .bind (pursued_step (.bind deaf_topo fun _ => .pure _)
    (steady_of_routine routine_createClients)) fun clients => ?_
  have hkeys : Prog.Keeps (fun w : World (Scripted ρ) => node ∈ w.state.nodeRuntime.keys)
      (startSteps (services S) clients node runtime) :=
    steady_startSteps.keeps fun _ _ hs hw => hs.state.keys ▸ hw
  refine .rescue ?_ fun e => handleStart_heard
  exact (listens_startSteps.and (.of_keeps hkeys)).weaken (fun _ => id) (fun _ _ hw => .inl hw.1)
    fun _ _ => id

end Start

end Dnlab.Api
