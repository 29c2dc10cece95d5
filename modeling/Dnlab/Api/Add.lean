import Dnlab.Api.Start

/-!
# A start that adds its device

A device that is not deployed yet is added. Until it is registered there is
nothing to take down, and what is saved is as it was (`Fresh`); from then on a
start that finds its event set takes the device down as any other does. Whatever
the handlers of `add` do, they leave the device at rest, or have still to find
the event set (`handleAdd_heard`).
-/

namespace Dnlab.Api

open Ctl Node

/-! ## Before the device is registered -/

section Fresh

variable {τ : Type} {T : Services τ} {clients : Clients} {node host : String}

/-- The device is not deployed, and none of its links is up. -/
structure Fresh (node : String) (w : World τ) : Prop where
  notMem : node ∉ w.state.nodeRuntime.keys
  state : AtRest node w.state
  saved : AtRest node w.saved

theorem atRest_of_notMem {st : DeploymentState} (h : node ∉ st.nodeRuntime.keys)
    (hl : ∀ l ∈ st.runtimeLinks, node ∈ RuntimeLinks.nodesInLink l → l.state ≠ .up) :
    AtRest node st :=
  ⟨fun r hr => absurd (Dict.mem_keys_iff.2 ⟨r, hr⟩) h, hl⟩

/-- The records and the links are as before. -/
theorem Fresh.set {w : World τ} (h : Fresh node w) {st : DeploymentState}
    (hr : st.nodeRuntime = w.state.nodeRuntime) (hl : st.runtimeLinks = w.state.runtimeLinks) :
    Fresh node { w with state := st } where
  notMem := hr ▸ h.notMem
  state := atRest_of_notMem (hr ▸ h.notMem) (hl ▸ h.state.2)
  saved := h.saved

theorem Calm.fresh {Q : Event → Prop} {w w' : World τ} (hc : Calm Q node w w')
    (h : Fresh node w) : Fresh node w' := by
  have hnot : ∀ {st : DeploymentState}, Alike node w.state st → node ∉ st.nodeRuntime.keys :=
    fun ha => ha.keys ▸ h.notMem
  refine ⟨hnot hc.state, atRest_of_notMem (hnot hc.state) (hc.links ▸ h.state.2), ?_⟩
  rcases hc.saved with hs | ⟨hs, hl⟩
  · exact hs ▸ h.saved
  · exact atRest_of_notMem (hnot hs) (hl ▸ h.state.2)

theorem fresh_of_routine {α : Type} {p : Ctl τ α} (h : Routine node p) :
    Prog.Keeps (Fresh node) p :=
  h.keeps fun _ _ => Calm.fresh

theorem fresh_remotely {α : Type} {p : Prog (Remote τ) Err α} :
    Prog.Keeps (Fresh node) (remotely p) :=
  fun _ h => ⟨h.notMem, h.state, h.saved⟩

theorem fresh_modifyTopo {f : DistributedTopology → DistributedTopology} :
    Prog.Keeps (Fresh node) (modifyTopo f : Ctl τ Unit) :=
  fun _ h => ⟨h.notMem, h.state, h.saved⟩

theorem fresh_modifyState {f : DeploymentState → DeploymentState}
    (hf : ∀ st, (f st).nodeRuntime = st.nodeRuntime ∧ (f st).runtimeLinks = st.runtimeLinks) :
    Prog.Keeps (Fresh node) (modifyState f : Ctl τ Unit) :=
  .modify fun _ h => h.set (hf _).1 (hf _).2

theorem fresh_planPlace {requirement : VDResources} :
    Prog.Keeps (Fresh node) (planPlace T clients node host requirement) := by
  refine .bind (fresh_of_routine routine_checkCancelled) fun _ => ?_
  refine .bind (fresh_of_routine Calm.topo') fun t => .bind (.ofExcept _) fun vd => ?_
  refine .bind fresh_remotely fun env => .bind fresh_modifyTopo fun _ => .bind .get fun w => ?_
  dsimp only
  split
  · exact .raise _
  · refine .bind (fresh_of_routine Calm.topo') fun _ => .bind (.ofExcept _) fun _ => ?_
    exact .bind fresh_modifyTopo fun _ => .pure _

theorem fresh_ensureMgmtAnchor {plan : SchedulePlan} :
    Prog.Keeps (Fresh node) (ensureMgmtAnchor T clients host plan) := by
  refine .bind .get fun w => .ite (fun _ => .pure _) fun _ => .ite (fun _ => .raise _) fun _ => ?_
  refine .bind fresh_remotely fun _ => .bind fresh_remotely fun _ => ?_
  refine .bind (fresh_modifyState fun _ => ⟨rfl, rfl⟩) fun _ => ?_
  exact .bind (fresh_of_routine Calm.save) fun _ => .pure _

theorem fresh_allocateNodeWebui : Prog.Keeps (Fresh node) (allocateNodeWebui T node) := by
  refine .bind .get fun w => .bind (fresh_of_routine routine_allocatePorts) fun _ => .when fun _ => ?_
  exact fresh_modifyState fun _ => ⟨rfl, rfl⟩

theorem fresh_dropAnchor : Prog.Keeps (Fresh node) (dropAnchor T clients host) := by
  refine .bind (fresh_of_routine Calm.state') fun st => ?_
  refine .bind (fresh_modifyState fun _ => ⟨rfl, rfl⟩) fun _ => ?_
  split
  · exact .pure _
  · exact .bind fresh_remotely fun _ => .pure _

/-- A rollback of a device that was not registered. -/
theorem fresh_rollbackAdd {before : DeploymentState} {l : AddLocals} {e : Err}
    (hreg : l.registered = false) (hrel : l.relinked = false) :
    Prog.Keeps (Fresh node) (rollbackAdd T clients node before l e) := by
  refine .bind (.when fun h => absurd (hreg.symm.trans h) (by decide)) fun _ => ?_
  refine .bind (fresh_modifyState fun st => ⟨rfl, ?_⟩) fun _ => ?_
  · rw [restore, hrel]
    rfl
  refine .bind (fresh_of_routine routine_syncVxlanState) fun _ => ?_
  refine .bind (.when fun _ => .bind fresh_remotely fun _ => .pure _) fun _ => ?_
  refine .bind (.when fun _ => fresh_dropAnchor) fun _ => ?_
  refine .bind (.quietly (fresh_of_routine routine_refreshSharedServices)) fun _ => ?_
  exact .bind (fresh_of_routine Calm.save) fun _ => .raise _

end Fresh

/-! ## The body of `add` -/

section Body

variable {τ : Type} {T : Services τ} {clients : Clients} {node : String}

/-- Before its device is registered. -/
def BeforeStart (node : String) (t : World τ × AddLocals) : Prop :=
  Fresh node t.1 ∧ t.2.registered = false ∧ t.2.relinked = false

/-- After its device is registered. -/
def AfterStart (node : String) (t : World τ × AddLocals) : Prop :=
  node ∈ t.1.state.nodeRuntime.keys ∧ t.2.registered = true

/-- Where the body may break off. -/
def DuringStart (node : String) (_ : Err) (t : World τ × AddLocals) : Prop :=
  BeforeStart node t ∨ AfterStart node t

theorem beforeStart_lift {α : Type} {p : Ctl τ α} (h : Prog.Keeps (Fresh node) p) :
    Prog.Triple (BeforeStart node) p.lift (fun _ => BeforeStart node) (DuringStart node) :=
  (Prog.Triple.lift (.of_keeps h) fun l : AddLocals => l.registered = false ∧ l.relinked = false).weaken
    (fun _ => id) (fun _ _ => id) fun _ _ => .inl

theorem afterStart_lift {α : Type} {p : Ctl τ α} (h : Prog.Within (Steady node) p) :
    Prog.Triple (AfterStart node) p.lift (fun _ => AfterStart node) (DuringStart node) := by
  have hkeys : Prog.Keeps (fun w : World τ => node ∈ w.state.nodeRuntime.keys) p :=
    h.keeps fun _ _ hs hw => hs.state.keys ▸ hw
  exact (Prog.Triple.lift (.of_keeps hkeys) fun l : AddLocals => l.registered = true).weaken
    (fun _ => id) (fun _ _ => id) fun _ _ => .inr

/-- Wherever the body breaks off, its device is registered or nothing is to be taken down. -/
theorem addSteps_place {reservations : Dict String String} :
    Prog.Triple (BeforeStart node) (addSteps T clients node reservations)
      (fun _ => AfterStart node) (DuringStart node) := by
  have hset : ∀ {f : AddLocals → AddLocals},
      (∀ l, (f l).registered = l.registered ∧ (f l).relinked = l.relinked) →
      Prog.Triple (BeforeStart node) (.setLocals f : AddProg τ Unit) (fun _ => BeforeStart node)
        (DuringStart node) := fun hf =>
    .modify fun t ht => ⟨ht.1, (hf _).1.trans ht.2.1, (hf _).2.trans ht.2.2⟩
  have hpure : ∀ {α : Type} (x : Except Err α), Prog.Triple (BeforeStart node)
      (.ofExcept x : AddProg τ α) (fun _ => BeforeStart node) (DuringStart node) := fun x =>
    (Prog.Triple.of_keeps (Prog.Keeps.ofExcept x)).weaken (fun _ => id) (fun _ _ => id) fun _ _ => .inl
  refine .bind (beforeStart_lift (fresh_of_routine routine_choosePlace))
    fun ⟨host, requirement, underlay⟩ => .bind (hset fun _ => ⟨rfl, rfl⟩) fun _ => ?_
  refine .bind (beforeStart_lift fresh_planPlace) fun plan => ?_
  refine .bind (beforeStart_lift fresh_ensureMgmtAnchor) fun _ => ?_
  refine .bind (hset fun _ => ⟨rfl, rfl⟩) fun _ => ?_
  refine .bind (beforeStart_lift fresh_allocateNodeWebui) fun _ => ?_
  refine .bind (beforeStart_lift .get) fun w => .bind (hpure _) fun files => ?_
  refine .bind (hset fun _ => ⟨rfl, rfl⟩) fun _ => .bind (hpure _) fun content => ?_
  refine .bind (hpure _) fun runtime => ?_
  -- The device is registered: its record is there, and is not taken away in the body.
  have hregister : Prog.Triple (BeforeStart node)
      (registerNode node runtime reservations plan underlay requirement : Ctl τ Unit).lift
      (fun _ t => node ∈ t.1.state.nodeRuntime.keys) (DuringStart node) := by
    rintro ⟨w, l⟩ -
    show node ∈ ((w.state.nodeRuntime.set node runtime).modify node _).keys
    rw [Dict.keys_modify, Dict.mem_keys_set]
    exact .inl rfl
  refine .bind hregister fun _ =>
    .bind (Q := fun _ => AfterStart node) (.modify fun t ht => ⟨ht, rfl⟩) fun _ => ?_
  refine .bind (afterStart_lift (steady_of_works works_deployNode)) fun _ => ?_
  refine .bind (afterStart_lift (steady_of_routine routine_rebuildLinks)) fun links => ?_
  refine .bind (afterStart_lift steady_setLinks) fun _ => ?_
  exact .bind (Q := fun _ => AfterStart node) (.modify fun t ht => ht) fun _ =>
    afterStart_lift steady_activateNode

end Body

/-! ## The looks of `add` -/

section Looks

variable {ρ : Type} {S : Services ρ} {clients : Clients} {node host path : String}

theorem listens_lift {α : Type} {p : Ctl (Scripted ρ) α} (h : Listens Unheard p) :
    Listens (fun t : World (Scripted ρ) × AddLocals => Unheard t.1) p.lift :=
  (Prog.Triple.lift h fun _ => True).weaken (fun _ ht => ⟨ht, trivial⟩) (fun _ _ ht => ht.1)
    fun _ _ ht => ht.1

theorem deaf_lift {α : Type} {p : Ctl (Scripted ρ) α} (h : Deaf p) :
    Listens (fun t : World (Scripted ρ) × AddLocals => Unheard t.1) p.lift :=
  listens_lift (listens_of_keeps h)

theorem listens_choosePlace : Listens Unheard (choosePlace (services S) clients node) := by
  have hresolve : Deaf (resolveUnderlayIps (services S) clients) := by
    refine .bind deaf_topo fun t => .bind (.mapEach fun _ _ => ?_) fun _ => .pure _
    exact .bind deaf_runNoCheck fun r => .ite (fun _ => .raise _) fun _ => .pure _
  have hgather : Deaf (remotely (Scheduler.gatherHostResources (services S).backend clients)) := by
    refine deaf_remotely (.bind (.mapEach fun _ _ => .rescue ?_ fun _ => .raise _) fun _ => .pure _)
    refine .bind untouched.run fun _ => .bind untouched.run fun _ => ?_
    exact .bind (.ofExcept _) fun _ => .bind (.ofExcept _) fun _ => .pure _
  have hselect : Deaf (selectAddHost (services S) clients node) := by
    refine .bind deaf_topo fun _ => .bind (.ofExcept _) fun _ => .bind (deaf_outside _) fun _ => ?_
    refine .bind hgather fun _ => .bind (.mapEach fun _ _ => ?_) fun _ => ?_
    · refine .bind deaf_runNoCheck fun _ => .bind deaf_state fun _ => ?_
      exact .ite (fun _ => .pure _) fun _ => .ite (fun _ => .pure _) fun _ => .pure _
    · split
      · exact .pure _
      · exact .raise _
  refine .bind (listens_of_keeps deaf_connect) fun _ => .bind listens_checkCancelled fun _ => ?_
  exact listens_of_keeps (.bind hresolve fun _ => .bind hselect fun _ => .pure _)

theorem listens_planPlace {requirement : VDResources} :
    Listens Unheard (planPlace (services S) clients node host requirement) := by
  refine .bind listens_checkCancelled fun _ => listens_of_keeps ?_
  refine .bind deaf_topo fun t => .bind (.ofExcept _) fun vd => ?_
  refine .bind (deaf_remotely ?_) fun env => .bind deaf_modifyTopo fun _ => .bind .get fun w => ?_
  · exact .bind untouched.clientsRunNoCheck fun r => .ite (fun _ => .pure _) fun _ => .pure _
  · dsimp only
    split
    · exact .raise _
    · exact deaf_placeLinks

theorem deaf_ensureMgmtAnchor {plan : SchedulePlan} :
    Deaf (ensureMgmtAnchor (services S) clients host plan) := by
  refine .bind .get fun w => .ite (fun _ => .pure _) fun _ => .ite (fun _ => .raise _) fun _ => ?_
  refine .bind deaf_run fun _ => .bind deaf_run fun _ => .bind deaf_modifyState fun _ => ?_
  exact .bind deaf_save fun _ => .pure _

theorem deaf_allocateNodeWebui : Deaf (allocateNodeWebui (services S) node) := by
  have hports : ∀ {cfg : WebUIPortsCfg} {previous : Dict ℕ ℕ} {specs : List WebUISpec}
      {existing : List ℕ}, Deaf (allocatePorts (services S) cfg previous existing specs) := by
    intro cfg previous specs
    induction specs with
    | nil => exact .pure _
    | cons spec specs ih =>
      refine .ite (fun _ => ih) fun _ => .bind (deaf_outside _) fun _ => ?_
      exact .bind ih fun _ => .pure _
  exact .bind .get fun w => .bind hports fun _ => .when fun _ => deaf_modifyState

theorem listens_deployNode {content : ClabDict} :
    Listens Unheard (deployNode (services S) clients host node path content) := by
  have hupload : ∀ {path content : String}, Deaf (uploadIn (services S) clients host path content) :=
    .bind deaf_run fun _ => .bind deaf_run fun _ => .pure _
  have hassets : Deaf (uploadAssets (services S) clients host node) := by
    refine .bind deaf_topo fun _ => .bind (.ofExcept _) fun _ => .bind (.when fun _ => ?_) fun _ => ?_
    · exact .bind deaf_run fun _ => .pure _
    · exact .bind (.forEach fun _ _ => hupload) fun _ => .forEach fun _ _ => hupload
  refine .bind listens_checkCancelled fun _ => .bind (listens_of_keeps hassets) fun _ => ?_
  refine .bind (listens_of_keeps deaf_run) fun _ => .bind listens_checkCancelled fun _ => ?_
  refine .bind (listens_of_keeps deaf_run) fun _ => .bind listens_checkCancelled fun _ => ?_
  refine .bind (listens_of_keeps deaf_topo) fun _ => .bind listens_waitContainerRunning fun _ => ?_
  refine .bind listens_checkCancelled fun _ => .bind (listens_of_keeps deaf_setDefaultRoute) fun _ => ?_
  refine .bind (listens_of_keeps (deaf_remotely Untouched.now)) fun _ => ?_
  exact .bind (listens_of_keeps deaf_modifyState) fun _ => listens_of_keeps deaf_setPhase

theorem deaf_rebuildLinks {plan : SchedulePlan} :
    Deaf (rebuildLinks (services S) clients node plan) := by
  refine .bind .get fun _ => .bind (.ofExcept _) fun _ => .mapEach fun _ _ => ?_
  exact .ite (fun _ => deaf_markLinkValidation) fun _ => .pure _

theorem listens_activateNode {plan : SchedulePlan} {underlay : Dict String String} :
    Listens Unheard (activateNode (services S) clients node plan underlay) := by
  refine .bind listens_checkCancelled fun _ => .bind (listens_of_keeps deaf_state) fun _ => ?_
  refine .bind (listens_of_keeps deaf_reconcileNodeLinks) fun _ => ?_
  refine .bind listens_checkCancelled fun _ => .bind (listens_of_keeps deaf_modifyState) fun _ => ?_
  refine .bind (listens_of_keeps deaf_reconcileSharedServices) fun _ => ?_
  exact .bind listens_checkCancelled fun _ => listens_of_keeps deaf_setPhase

theorem listens_addSteps {reservations : Dict String String} :
    Listens (fun t : World (Scripted ρ) × AddLocals => Unheard t.1)
      (addSteps (services S) clients node reservations) := by
  have hset : ∀ {f : AddLocals → AddLocals},
      Listens (fun t : World (Scripted ρ) × AddLocals => Unheard t.1)
        (.setLocals f : AddProg (Scripted ρ) Unit) := .modify fun _ ht => ht
  have hpure : ∀ {α : Type} (x : Except Err α),
      Listens (fun t : World (Scripted ρ) × AddLocals => Unheard t.1)
        (.ofExcept x : AddProg (Scripted ρ) α) := fun x => listens_of_keeps (.ofExcept x)
  refine .bind (listens_lift listens_choosePlace) fun ⟨host, requirement, underlay⟩ => ?_
  refine .bind hset fun _ => .bind (listens_lift listens_planPlace) fun plan => ?_
  refine .bind (deaf_lift deaf_ensureMgmtAnchor) fun _ => .bind hset fun _ => ?_
  refine .bind (deaf_lift deaf_allocateNodeWebui) fun _ => .bind (deaf_lift .get) fun w => ?_
  refine .bind (hpure _) fun files => .bind hset fun _ => .bind (hpure _) fun content => ?_
  refine .bind (hpure _) fun runtime => ?_
  refine .bind (deaf_lift (.bind (.modify fun _ hw => hw) fun _ => deaf_setPhase)) fun _ => ?_
  refine .bind hset fun _ => .bind (listens_lift listens_deployNode) fun _ => ?_
  refine .bind (deaf_lift deaf_rebuildLinks) fun links => .bind (deaf_lift deaf_modifyState) fun _ => ?_
  exact .bind hset fun _ => listens_lift listens_activateNode

theorem deaf_rollbackAdd {before : DeploymentState} {l : AddLocals} {e : Err} :
    Deaf (rollbackAdd (services S) clients node before l e) := by
  have hanchor : Deaf (dropAnchor (services S) clients l.host) := by
    refine .bind deaf_state fun st => .bind deaf_modifyState fun _ => ?_
    split
    · exact .pure _
    · exact .bind deaf_runNoCheck fun _ => .pure _
  refine .bind (.when fun _ => .bind deaf_deleteNodeLinks fun _ => deaf_modifyState) fun _ => ?_
  refine .bind deaf_modifyState fun _ => .bind deaf_modifyState fun _ => ?_
  refine .bind (.when fun _ => .bind deaf_runNoCheck fun _ => .pure _) fun _ => ?_
  refine .bind (.when fun _ => hanchor) fun _ => .bind (.quietly deaf_refreshSharedServices) fun _ => ?_
  exact .bind deaf_save fun _ => .raise _

end Looks

/-! ## The start of any device -/

section Start

variable {ρ : Type} {S : Services ρ} {clients : Clients} {node : String}

/-- The handlers of `add` take the device down, or have nothing to take down, or the event is still
    to be found set. -/
theorem handleAdd_heard {before : DeploymentState} {e : Err} {l : AddLocals} :
    Prog.Triple (fun w => (e.kind = .cancelled ∨ Unheard w) ∧ DuringStart node e (w, l))
      (handleAdd (services S) clients node before e l) (fun _ => Heard node)
      fun _ => Heard node := by
  have hdown : Prog.Triple (fun w => AfterStart node (w, l))
      (cancelStartedNode (services S) clients node) (fun _ => Heard node) fun _ => Heard node :=
    cancelStartedNode_atRest.weaken (fun _ => And.left) (fun _ _ => .inr) fun _ _ h => h.elim
  have hafter : ∀ w : World (Scripted ρ), DuringStart node e (w, l) → l.registered = true →
      AfterStart node (w, l) := fun w hw hreg =>
    hw.resolve_left fun h => absurd (h.2.1.symm.trans hreg) (by decide)
  have hbefore : ∀ w : World (Scripted ρ), DuringStart node e (w, l) → ¬l.registered = true →
      BeforeStart node (w, l) := fun w hw hreg => hw.resolve_right fun h => hreg h.2
  refine .ite (fun _ => .ite (fun hreg => ?_) fun hreg => ?_) fun hkind => ?_
  · exact hdown.weaken (fun w hw => hafter w hw.2 hreg) (fun _ _ => id) fun _ _ => id
  · exact .pure fun w hw => .inr (hbefore w hw.2 hreg).1.saved
  refine .bind (Q := fun found w => (found = true ∨ Unheard w) ∧ DuringStart node e (w, l)) ?_
    fun found => .ite (fun hc => ?_) fun hc => ?_
  · have hplace : Prog.Keeps (fun w : World (Scripted ρ) => DuringStart node e (w, l))
        (cancelled (services S)) := fun w hw =>
      hw.imp (fun h => ⟨⟨h.1.notMem, h.1.state, h.1.saved⟩, h.2⟩) fun h => h
    refine (cancelled_spec.and (.of_keeps hplace)).weaken (fun w hw => ?_) (fun _ _ => id)
      fun _ _ h => h.1.elim
    exact ⟨hw.1.resolve_left hkind, hw.2⟩
  · exact hdown.weaken (fun w hw => hafter w hw.2 hc.2) (fun _ _ => id) fun _ _ => id
  · by_cases hfound : found = true
    · -- The event was found set, but the device is not registered.
      have hreg : ¬l.registered = true := fun h => hc ⟨hfound, h⟩
      intro w hw
      obtain ⟨hfresh, hlocals⟩ := hbefore w hw.2 hreg
      have hrest : AtRest node ((rollbackAdd (services S) clients node before l e).run w).2.saved :=
        (fresh_rollbackAdd hlocals.1 hlocals.2 w hfresh).saved
      rcases hrun : (rollbackAdd (services S) clients node before l e).run w with ⟨e' | u, w'⟩ <;>
        rw [hrun] at hrest <;> exact .inr hrest
    · refine (Prog.Triple.of_keeps deaf_rollbackAdd).weaken (fun w hw => ?_) (fun _ _ => .inl)
        fun _ _ => .inl
      exact hw.1.resolve_left hfound

/-- The device is not deployed, and the event will be found set. -/
def Awaited (node : String) (w : World (Scripted ρ)) : Prop := Unheard w ∧ Fresh node w

theorem awaited_step {α : Type} {p : Ctl (Scripted ρ) α} (hl : Listens Unheard p)
    (hf : Prog.Keeps (Fresh node) p) :
    Prog.Triple (Awaited node) p (fun _ => Awaited node) fun _ => Heard node :=
  (hl.and (.of_keeps hf)).weaken (fun _ => id) (fun _ _ => id) fun _ _ hw => .inr hw.2.saved

theorem addNew_heard : Prog.Triple (Awaited node) (addNew (services S) node)
    (fun _ => Heard node) fun _ => Heard node := by
  refine .bind (awaited_step (listens_of_keeps .get) .get) fun w => ?_
  refine .bind (awaited_step (listens_of_keeps (.ofExcept _)) (.ofExcept _))
    fun ⟨addresses, reservations⟩ => ?_
  refine .bind (awaited_step (listens_of_keeps deaf_modifyTopo) fresh_modifyTopo) fun _ => ?_
  refine .bind (awaited_step (listens_of_keeps (.bind deaf_topo fun _ => .pure _))
    (fresh_of_routine routine_createClients)) fun clients => ?_
  refine .withLocals (fun e t => (e.kind = .cancelled ∨ Unheard t.1) ∧ DuringStart node e t) ?_
    fun e l => handleAdd_heard
  refine (listens_addSteps.and addSteps_place).weaken (fun t ht => ?_) (fun _ _ ht => .inl ht.1)
    fun _ _ => id
  exact ⟨ht.1.1, ht.1.2, ht.2 ▸ ⟨rfl, rfl⟩⟩

theorem add_heard : Prog.Triple (Awaited node) (add (services S) node) (fun _ => Heard node)
    fun _ => Heard node := by
  refine .bind (awaited_step listens_checkCancelled (fresh_of_routine routine_checkCancelled))
    fun _ => ?_
  refine .bind (awaited_step (listens_of_keeps deaf_ensureDeployed)
    (fresh_of_routine routine_ensureDeployed)) fun _ => ?_
  refine .bind (awaited_step (listens_of_keeps (.bind deaf_state fun _ =>
    .ite (fun _ => .pure _) fun _ => .raise _)) (fresh_of_routine routine_ensureHotAddSupported))
    fun _ => .bind (Q := fun w w' => w' = w ∧ Awaited node w') (.get fun w hw => ⟨rfl, hw⟩)
      fun w => .ite (fun hmem => ?_) fun _ => .ite (fun _ => ?_) fun _ => ?_
  · rintro w' ⟨rfl, hw⟩
    exact absurd (Dict.contains_iff.1 hmem) hw.2.notMem
  · exact addNew_heard.weaken (fun _ => And.right) (fun _ _ => id) fun _ _ => id
  · exact .raise fun _ hw => .inr hw.2.2.saved

/-- A start finds the event set, and leaves a device that was at rest at rest. -/
theorem start_heard : Prog.Triple
    (fun w => Unheard w ∧ AtRest node w.state ∧ AtRest node w.saved) (start (services S) node)
    (fun _ => Heard node) fun _ => Heard node := by
  have hrest : Prog.Keeps (fun w : World (Scripted ρ) => AtRest node w.state ∧ AtRest node w.saved)
      (checkCancelled (services S)) :=
    .bind (fun _ hw => hw) fun _ => .ite (fun _ => .raise _) fun _ => .pure _
  refine .bind ((listens_checkCancelled.and (.of_keeps hrest)).weaken (fun _ => id) (fun _ _ => id)
    fun _ _ hw => .inr hw.2.2) fun _ => ?_
  refine .bind (Q := fun st w => w.state = st ∧ Unheard w ∧ AtRest node w.state ∧
    AtRest node w.saved) (fun w hw => ⟨rfl, hw⟩) fun st => .ite (fun hmem => ?_) fun hmem => ?_
  · refine startRuntime_heard.weaken (fun w hw => ⟨hw.2.1, ?_⟩) (fun _ _ => id) fun _ _ => id
    exact hw.1 ▸ Dict.contains_iff.1 hmem
  · refine add_heard.weaken (fun w hw => ⟨hw.2.1, fun h => hmem ?_, hw.2.2.1, hw.2.2.2⟩)
      (fun _ _ => id) fun _ _ => id
    exact hw.1 ▸ Dict.contains_iff.2 h

/-- A start of a deployed device that finds the event set later than at its first look. -/
theorem start_heard_later : Prog.Triple
    (fun w => ∃ looks, w.remote.env.looks = false :: looks ∧ true ∈ looks ∧
      node ∈ w.state.nodeRuntime.keys) (start (services S) node)
    (fun _ => Heard node) fun _ => Heard node := by
  rintro w ⟨looks, hlooks, hlater, hmem⟩
  obtain ⟨w', hcheck, hw', hstate⟩ : ∃ w', (checkCancelled (services S)).run w = (.ok (), w') ∧
      Pursued node w' ∧ w'.state = w.state := by
    refine ⟨{ w with remote := { w.remote with env := { w.remote.env with looks := looks } } }, ?_,
      ⟨hlater, hmem⟩, rfl⟩
    show (if (isSet w.remote.env).1 then Prog.raise ⟨.cancelled, "Node start cancelled"⟩
      else pure () : Ctl (Scripted ρ) Unit).run
        { w with remote := { w.remote with env := (isSet w.remote.env).2 } } = _
    rw [isSet, hlooks]
    rfl
  have hdeployed : w'.state.nodeRuntime.contains node = true := Dict.contains_iff.2 (hstate ▸ hmem)
  rw [start, Prog.run_bind_ok hcheck,
    Prog.run_bind_ok (show state.run w' = (.ok w'.state, w') from rfl), if_pos hdeployed]
  exact startRuntime_heard w' hw'

end Start

end Dnlab.Api
