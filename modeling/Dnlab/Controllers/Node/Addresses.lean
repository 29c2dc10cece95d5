import Dnlab.Controllers.Node.Frame
import Dnlab.Services.Config.Sticky

/-!
# The addresses that operations record

The record of a device has the address that it was deployed with. Operations
move records, take them away and change the condition of a device, but only
`add` writes an address, and only that of its own device: so every record has
an address from before, or the one that the device was just given
(`perform_recorded`).
-/

namespace Dnlab.Node

open Ctl

/-- Every record of a device has an address for which `A` holds. -/
def Recorded (A : String → String → Prop) (st : DeploymentState) : Prop :=
  ∀ n r, st.nodeRuntime.get? n = some r → A n r.mgmtIpv4

section Recorded

variable {A : String → String → Prop} {st st' : DeploymentState} {node : String}

theorem Recorded.congr (h : Recorded A st) (hr : st'.nodeRuntime = st.nodeRuntime) :
    Recorded A st' := by
  intro n r hn
  rw [hr] at hn
  exact h n r hn

/-- The condition of a device is no part of its address. -/
theorem Recorded.of_places (h : Recorded A st)
    (hp : (st'.nodeRuntime.map fun _ => place) = st.nodeRuntime.map fun _ => place) :
    Recorded A st' := by
  intro n r hn
  have hget := congrArg (fun d => (Dict.get? d n).map (·.mgmtIpv4)) hp
  simp only [Dict.get?_map, Option.map_map, hn, Option.map_some] at hget
  obtain ⟨r', hr', heq⟩ := Option.map_eq_some_iff.1 hget.symm
  have haddr : r'.mgmtIpv4 = r.mgmtIpv4 := heq
  exact haddr ▸ h n r' hr'

theorem Recorded.erase (h : Recorded A st) (hr : st'.nodeRuntime = st.nodeRuntime.erase node) :
    Recorded A st' := by
  intro n r hn
  rw [hr, Dict.get?_erase] at hn
  split at hn
  · cases hn
  · exact h n r hn

theorem Recorded.set {r : NodeRuntimeState} (h : Recorded A st) (hA : A node r.mgmtIpv4)
    (hr : st'.nodeRuntime = st.nodeRuntime.set node r) : Recorded A st' := by
  intro n r' hn
  rw [hr, Dict.get?_set] at hn
  split at hn
  · rename_i heq
    obtain rfl := Option.some.inj hn
    exact heq ▸ hA
  · exact h n r' hn

theorem Recorded.update {entries : List (String × NodeRuntimeState)} (h : Recorded A st)
    (hA : ∀ e ∈ entries, A e.1 e.2.mgmtIpv4) :
    Recorded A { st with nodeRuntime := st.nodeRuntime.update entries } := by
  intro n r hn
  rw [Dict.get?_update, Option.or_eq_some_iff] at hn
  rcases hn with hn | ⟨-, hn⟩
  · obtain ⟨before, after, heq, -⟩ := List.lookup_eq_some_iff.1 hn
    have hmem : (n, r) ∈ entries.reverse := by
      rw [heq]
      exact List.mem_append_right _ List.mem_cons_self
    exact hA _ (List.mem_reverse.1 hmem)
  · exact h n r hn

end Recorded

section Operations

variable {ρ : Type} {S : Services ρ} {A : String → String → Prop} {node : String}
  {clients : Clients}

/-- The addresses in memory and those that are saved. -/
def AddressesKept (A : String → String → Prop) (w : World ρ) : Prop :=
  Recorded A w.state ∧ Recorded A w.saved

theorem Steady.addressesKept {w w' : World ρ} (h : Steady node w w') (hw : AddressesKept A w) :
    AddressesKept A w' := by
  refine ⟨hw.1.of_places h.state.places, ?_⟩
  rcases h.saved with hs | hs
  · rw [hs]
    exact hw.2
  · exact hw.1.of_places hs.places

theorem addresses_of_steady (node : String) {α : Type} {p : Ctl ρ α}
    (h : Prog.Within (Steady node) p) : Prog.Keeps (AddressesKept A) p :=
  h.keeps fun _ _ => Steady.addressesKept

/-- Changing the state without the records. -/
theorem addresses_modifyState {f : DeploymentState → DeploymentState}
    (hf : ∀ st, (f st).nodeRuntime = st.nodeRuntime) :
    Prog.Keeps (AddressesKept A) (modifyState f : Ctl ρ Unit) :=
  .modify fun _ hw => ⟨hw.1.congr (hf _), hw.2⟩

/-! ## A new device -/

/-- The world of an `add` that has not registered its device: `A` holds of the address that the
    topology has for it. -/
structure Given (A : String → String → Prop) (node : String) (w : World ρ) : Prop where
  kept : AddressesKept A w
  given : ∀ vd, w.topo.nodes.get? node = some vd → A node vd.mgmtIpv4

theorem given_of_routine {α : Type} {p : Ctl ρ α} (h : Routine node p) :
    Prog.Keeps (Given A node) p :=
  h.keeps fun _ _ hc hw => ⟨hc.steady.addressesKept hw.kept, hc.topo ▸ hw.given⟩

theorem given_modifyState {f : DeploymentState → DeploymentState}
    (hf : ∀ st, (f st).nodeRuntime = st.nodeRuntime) :
    Prog.Keeps (Given A node) (modifyState f : Ctl ρ Unit) :=
  .modify fun _ hw => ⟨⟨hw.kept.1.congr (hf _), hw.kept.2⟩, hw.given⟩

theorem given_remotely {α : Type} {p : Prog (Remote ρ) Err α} :
    Prog.Keeps (Given A node) (remotely p) :=
  fun _ hw => ⟨hw.kept, hw.given⟩

theorem given_placeLinks {assignments : Dict String HostAssignment} :
    Prog.Keeps (Given A node) (placeLinks assignments : Ctl ρ SchedulePlan) := by
  intro w hw
  rw [run_placeLinks]
  cases h : Scheduler.classifyLinks w.topo (assignedPlan w.topo assignments) true with
  | error e => exact hw
  | ok r =>
    obtain ⟨_, _, _, -, -, ht, -⟩ := Scheduler.classifyLinks_eq_ok h
    have hnodes : r.1.nodes = w.topo.nodes := by
      rw [ht]
    exact ⟨hw.kept, fun vd hvd => hw.given vd (hnodes ▸ hvd)⟩

theorem given_planPlace {host : String} {requirement : VDResources} :
    Prog.Keeps (Given A node) (planPlace S clients node host requirement) := by
  refine .bind (given_of_routine routine_checkCancelled) fun _ => ?_
  refine .bind (given_of_routine Calm.topo') fun t => .bind (.ofExcept _) fun vd => ?_
  refine .bind given_remotely fun env => .bind (.modify fun w hw => ⟨hw.kept, fun vd' hvd' => ?_⟩)
    fun _ => .bind .get fun w => ?_
  · -- The environment of a device is no part of its address.
    rw [Dict.get?_modify, if_pos rfl] at hvd'
    obtain ⟨vd₀, hvd₀, rfl⟩ := Option.map_eq_some_iff.1 hvd'
    exact hw.given vd₀ hvd₀
  · dsimp only
    split
    · exact .raise _
    · exact given_placeLinks

theorem given_ensureMgmtAnchor {host : String} {plan : SchedulePlan} :
    Prog.Keeps (Given A node) (ensureMgmtAnchor S clients host plan) := by
  refine .bind .get fun w => .ite (fun _ => .pure _) fun _ => .ite (fun _ => .raise _) fun _ => ?_
  refine .bind given_remotely fun _ => .bind given_remotely fun _ => ?_
  refine .bind (given_modifyState fun _ => rfl) fun _ => .bind (.modify fun w hw => ?_) fun _ =>
    .pure _
  exact ⟨⟨hw.kept.1, hw.kept.1⟩, hw.given⟩

theorem given_allocateNodeWebui : Prog.Keeps (Given A node) (allocateNodeWebui S node) := by
  refine .bind .get fun w => .bind (given_of_routine routine_allocatePorts) fun _ => .when fun _ => ?_
  exact given_modifyState fun _ => rfl

/-- A new record has the address that the topology has for its device. -/
theorem mgmtIpv4_of_newRuntime {topo : DistributedTopology} {host path : String}
    {runtime : NodeRuntimeState} (h : newRuntime topo node host path = .ok runtime) :
    ∃ vd, topo.nodes.get? node = some vd ∧ runtime.mgmtIpv4 = vd.mgmtIpv4 := by
  simp only [newRuntime, ExceptRules.bind_eq_ok, ExceptRules.pure_eq_ok] at h
  obtain ⟨vd, hvd, _, -, rfl⟩ := h
  rw [WarmLinks.nodeOf] at hvd
  cases hget : topo.nodes.get? node with
  | none =>
    rw [hget] at hvd
    cases hvd
  | some vd' =>
    rw [hget] at hvd
    obtain rfl := Except.ok.inj hvd
    exact ⟨_, rfl, rfl⟩

/-- The body of `add` writes no other address. -/
theorem addSteps_recorded {reservations : Dict String String} :
    Prog.Triple (fun t : World ρ × AddLocals => Given A node t.1)
      (addSteps S clients node reservations) (fun _ t => AddressesKept A t.1)
      fun _ t => AddressesKept A t.1 := by
  -- Until the device is registered, its address is only in the topology.
  have hbefore : ∀ {α : Type} {p : Ctl ρ α}, Prog.Keeps (Given A node) p →
      Prog.Triple (fun t : World ρ × AddLocals => Given A node t.1) p.lift
        (fun _ t => Given A node t.1) fun _ t => AddressesKept A t.1 := fun h =>
    (Prog.Triple.of_keeps (Prog.Keeps.lift fun _ => h)).weaken (fun _ => id) (fun _ _ => id)
      fun _ _ ht => ht.kept
  have hset : ∀ {f : AddLocals → AddLocals}, Prog.Triple
      (fun t : World ρ × AddLocals => Given A node t.1) (.setLocals f : AddProg ρ Unit)
      (fun _ t => Given A node t.1) fun _ t => AddressesKept A t.1 := .modify fun _ ht => ht
  have hpure : ∀ {α : Type} (x : Except Err α), Prog.Triple
      (fun t : World ρ × AddLocals => Given A node t.1) (.ofExcept x : AddProg ρ α)
        (fun a t => Given A node t.1 ∧ x = .ok a) fun _ t => AddressesKept A t.1 := fun x =>
    (Prog.Triple.ofExcept x).weaken (fun _ => id) (fun _ _ => id) fun _ _ ht => ht.kept
  -- Afterwards no step changes an address.
  have hafter : ∀ {α : Type} {p : Ctl ρ α}, Prog.Within (Steady node) p →
      Prog.Triple (fun t : World ρ × AddLocals => AddressesKept A t.1) p.lift
        (fun _ t => AddressesKept A t.1) fun _ t => AddressesKept A t.1 := fun h =>
    .of_keeps (Prog.Keeps.lift fun _ => addresses_of_steady node h)
  refine .bind (hbefore (given_of_routine routine_choosePlace)) fun ⟨host, requirement, underlay⟩ =>
    .bind hset fun _ => ?_
  refine .bind (hbefore given_planPlace) fun plan => ?_
  refine .bind (hbefore given_ensureMgmtAnchor) fun _ => .bind hset fun _ => ?_
  refine .bind (hbefore given_allocateNodeWebui) fun _ => ?_
  have hget : Prog.Triple (fun t : World ρ × AddLocals => Given A node t.1)
      (Prog.lift .get : AddProg ρ (World ρ)) (fun w t => Given A node t.1 ∧
        ∀ vd, w.topo.nodes.get? node = some vd → A node vd.mgmtIpv4)
      fun _ t => AddressesKept A t.1 := fun t ht => ⟨ht, ht.given⟩
  refine .bind hget fun w => .of_and fun hgiven => .bind (hpure _) fun files => .of_and fun _ => ?_
  refine .bind hset fun _ => .bind (hpure _) fun content => .of_and fun _ => ?_
  refine .bind (hpure _) fun runtime => .of_and fun hr => ?_
  obtain ⟨vd, hvd, haddr⟩ := mgmtIpv4_of_newRuntime hr
  -- The address that is recorded is the one in the topology.
  have hregister : Prog.Triple (fun t : World ρ × AddLocals => Given A node t.1)
      (registerNode node runtime reservations plan underlay requirement : Ctl ρ Unit).lift
      (fun _ t => AddressesKept A t.1) fun _ t => AddressesKept A t.1 := by
    refine Prog.Triple.weaken (.of_keeps (Prog.Keeps.lift fun _ => (?_ : Prog.Keeps (AddressesKept A)
      (registerNode node runtime reservations plan underlay requirement : Ctl ρ Unit))))
      (fun t ht => ht.kept) (fun _ _ => id) fun _ _ => id
    refine .bind (.modify fun w hw => ⟨?_, hw.2⟩) fun _ =>
      addresses_of_steady node (steady_of_routine routine_setPhase)
    exact hw.1.set (haddr ▸ hgiven vd hvd) rfl
  refine .bind hregister fun _ => .bind (Q := fun _ t => AddressesKept A t.1)
    (.modify fun _ ht => ht) fun _ => ?_
  refine .bind (hafter (steady_of_works works_deployNode)) fun _ => ?_
  refine .bind (hafter (steady_of_routine routine_rebuildLinks)) fun links => ?_
  refine .bind (hafter steady_setLinks) fun _ => ?_
  exact .bind (Q := fun _ t => AddressesKept A t.1) (.modify fun _ ht => ht) fun _ =>
    hafter steady_activateNode

theorem addresses_dropAnchor {host : String} :
    Prog.Keeps (AddressesKept A) (dropAnchor S clients host) := by
  refine .bind (addresses_of_steady "" (steady_of_routine Calm.state')) fun _ => ?_
  refine .bind (addresses_modifyState fun _ => rfl) fun _ => ?_
  split
  · exact .pure _
  · exact .bind (addresses_of_steady "" (steady_of_works works_runNoCheck)) fun _ => .pure _

/-- The handlers of `add` write no address. -/
theorem addresses_handleAdd {before : DeploymentState} {e : Err} {l : AddLocals} :
    Prog.Keeps (AddressesKept A) (handleAdd S clients node before e l) := by
  have hcancel : Prog.Keeps (AddressesKept A) (cancelStartedNode S clients node) :=
    addresses_of_steady node steady_cancelStartedNode
  refine .ite (fun _ => .when fun _ => hcancel) fun _ => ?_
  refine .bind (addresses_of_steady node (steady_of_routine routine_cancelled)) fun c =>
    .ite (fun _ => hcancel) fun _ => ?_
  refine .bind (.when fun _ => .bind (addresses_of_steady node steady_onLinks) fun _ => ?_) fun _ => ?_
  · exact .modify fun w hw => ⟨hw.1.erase rfl, hw.2⟩
  · refine .bind (addresses_modifyState fun _ => rfl) fun _ => ?_
    refine .bind (addresses_of_steady node (steady_of_routine routine_syncVxlanState)) fun _ => ?_
    refine .bind (.when fun _ => addresses_of_steady node (steady_of_works works_dropContainer))
      fun _ => .bind (.when fun _ => addresses_dropAnchor) fun _ => ?_
    refine .bind (.quietly (addresses_of_steady node
      (steady_of_routine routine_refreshSharedServices))) fun _ => ?_
    exact .bind (addresses_of_steady node (steady_of_routine Calm.save)) fun _ => .raise _

/-- `A` holds of the address that a device would be given now, unless it is deployed. -/
def MayBeGiven (S : Services ρ) (A : String → String → Prop) (node : String) (w : World ρ) : Prop :=
  node ∉ w.state.nodeRuntime.keys → ∀ addresses reservations,
    S.assignStickyMgmtIpv4 w.topo.nodes w.topo.mgmt w.state.mgmtIpReservations =
      .ok (addresses, reservations) →
    ∀ vd, w.topo.nodes.get? node = some vd → A node (addresses.getD node vd.mgmtIpv4)

theorem Calm.mayBeGiven {Q : Event → Prop} {w w' : World ρ} (h : Calm Q node w w')
    (hw : MayBeGiven S A node w) : MayBeGiven S A node w' := by
  intro hnode addresses reservations hassign
  rw [h.topo] at hassign ⊢
  rw [h.state.mgmtIpReservations] at hassign
  exact hw (h.state.keys ▸ hnode) addresses reservations hassign

theorem addNew_recorded {w : World ρ} (hw : AddressesKept A w) (hA : MayBeGiven S A node w)
    (hnode : node ∉ w.state.nodeRuntime.keys) : AddressesKept A ((addNew S node).run w).2 := by
  rw [addNew, Prog.run_bind_ok (Prog.run_get w)]
  rw [Prog.run_bind]
  cases hassign : S.assignStickyMgmtIpv4 w.topo.nodes w.topo.mgmt w.state.mgmtIpReservations with
  | error e => exact hw
  | ok result =>
    obtain ⟨addresses, reservations⟩ := result
    refine Prog.Triple.run_both (P := fun w' => w' = w) ?_ rfl
    refine .bind (Q := fun _ => Given A node) (.modify fun w' hw' => ?_) fun _ => ?_
    · subst hw'
      refine ⟨hw, fun vd hvd => ?_⟩
      obtain ⟨vd₀, hvd₀, rfl⟩ := Option.map_eq_some_iff.1 ((Dict.get?_map _ _ _).symm.trans hvd)
      exact hA hnode addresses reservations hassign vd₀ hvd₀
    · refine .bind (Q := fun _ => Given A node) ((Prog.Triple.of_keeps
        (given_of_routine routine_createClients)).weaken (fun _ => id) (fun _ _ => id)
          fun _ _ h => h.kept) fun clients => ?_
      refine .withLocals (fun _ t => AddressesKept A t.1) ?_ fun e l => .of_keeps addresses_handleAdd
      exact addSteps_recorded.weaken (fun t h => h.1) (fun _ _ => id) fun _ _ => id

/-- The records are those of `A`, and stay so if the device is added now. -/
def Ready (S : Services ρ) (A : String → String → Prop) (node : String) (w : World ρ) : Prop :=
  AddressesKept A w ∧ MayBeGiven S A node w

theorem ready_of_routine {α : Type} {p : Ctl ρ α} (h : Routine node p) :
    Prog.Keeps (Ready S A node) p :=
  h.keeps fun _ _ hc hw => ⟨hc.steady.addressesKept hw.1, hc.mayBeGiven hw.2⟩

theorem ready_step {α : Type} {p : Ctl ρ α} (h : Routine node p) :
    Prog.Triple (Ready S A node) p (fun _ => Ready S A node) fun _ => AddressesKept A :=
  (Prog.Triple.of_keeps (ready_of_routine h)).weaken (fun _ => id) (fun _ _ => id)
    fun _ _ hw => hw.1

theorem ready_get_bind {α : Type} {f : World ρ → Ctl ρ α}
    (h : ∀ w, Ready S A node w → AddressesKept A ((f w).run w).2) :
    Prog.Triple (Ready S A node) (.get >>= f) (fun _ => AddressesKept A)
      fun _ => AddressesKept A :=
  .of_run_both fun w hw => by
    rw [Prog.run_bind_ok (Prog.run_get w)]
    exact h w hw

theorem add_recorded : Prog.Triple (Ready S A node) (add S node) (fun _ => AddressesKept A)
    fun _ => AddressesKept A := by
  refine .bind (ready_step routine_checkCancelled) fun _ => ?_
  refine .bind (ready_step routine_ensureDeployed) fun _ => ?_
  refine .bind (ready_step routine_ensureHotAddSupported) fun _ => ready_get_bind fun w hw => ?_
  split
  · refine Prog.Keeps.bind ?_ (fun _ => addresses_of_steady node steady_startRuntime) w hw.1
    exact addresses_of_steady node (steady_of_routine routine_checkCancelled)
  · rename_i hnode
    split
    · exact addNew_recorded hw.1 hw.2 fun h => hnode (Dict.contains_iff.2 h)
    · exact hw.1

theorem start_recorded : Prog.Triple (Ready S A node) (start S node) (fun _ => AddressesKept A)
    fun _ => AddressesKept A := by
  refine .bind (ready_step routine_checkCancelled) fun _ => ?_
  refine .bind (ready_step Calm.state') fun st => ?_
  split
  · exact .of_run_both fun w hw => addresses_of_steady node steady_startRuntime w hw.1
  · exact add_recorded

/-- A device that is not deployed cannot be stopped, and one that is stopped stays deployed. -/
theorem restart_recorded {w : World ρ} (hw : AddressesKept A w) :
    AddressesKept A ((restart S node).run w).2 := by
  cases hr : w.state.nodeRuntime.get? node with
  | none =>
    have hstop : (stop S node false).run w =
        (.error (lifecycleError ("Unknown runtime VD '" ++ node ++ "'")), w) := by
      rw [stop, Prog.run_bind_ok (Prog.run_get (s := w)), hr]
      rfl
    rw [restart, Prog.run_bind_error hstop]
    exact hw
  | some r =>
    have hkeep : ∀ {α : Type} {p : Ctl ρ α}, Prog.Within (Steady node) p →
        Prog.Keeps (fun w => AddressesKept A w ∧ node ∈ w.state.nodeRuntime.keys) p := fun h =>
      h.keeps fun _ _ hs hw => ⟨hs.addressesKept hw.1, hs.state.keys ▸ hw.2⟩
    have hstart : Prog.Triple
        (fun w : World ρ => AddressesKept A w ∧ node ∈ w.state.nodeRuntime.keys) (start S node)
        (fun _ => AddressesKept A) fun _ => AddressesKept A := by
      refine .bind ((Prog.Triple.of_keeps (hkeep (steady_of_routine routine_checkCancelled))).weaken
        (fun _ => id) (fun _ _ => id) fun _ _ h => h.1) fun _ => .of_run_both fun w hw => ?_
      -- The node is still registered, so that it is not added anew.
      show AddressesKept A ((if w.state.nodeRuntime.contains node then startRuntime S node
        else add S node : Ctl ρ Unit).run w).2
      rw [if_pos (Dict.contains_iff.2 hw.2)]
      exact addresses_of_steady node steady_startRuntime w hw.1
    refine Prog.Triple.run_both (.bind ((Prog.Triple.of_keeps (hkeep steady_stop)).weaken
      (fun _ => id) (fun _ _ => id) fun _ _ h => h.1) fun _ => hstart) ⟨hw, ?_⟩
    exact Dict.mem_keys_iff.2 ⟨r, hr⟩

theorem addresses_remove : Prog.Keeps (AddressesKept A) (remove S node) := by
  refine .bind (addresses_of_steady node (steady_of_routine routine_runtimeOf)) fun runtime => ?_
  refine .bind (addresses_of_steady node (steady_of_routine routine_ensureDeployed)) fun _ => ?_
  refine .bind (addresses_of_steady node (steady_of_routine routine_ensurePerVdRuntime)) fun _ => ?_
  refine .bind (addresses_of_steady node (.when fun _ => steady_stop)) fun _ => ?_
  refine .bind (addresses_of_steady node (steady_of_routine routine_createClients)) fun clients => ?_
  refine .bind (addresses_of_steady node (steady_of_routine routine_connect)) fun _ => ?_
  refine .bind (.modify fun w hw => ⟨hw.1.erase rfl, hw.2⟩) fun _ => ?_
  refine .bind (addresses_of_steady node (steady_of_routine routine_syncVxlanState)) fun _ => ?_
  refine .bind (addresses_of_steady node (steady_of_routine Calm.state')) fun st => ?_
  refine .bind (.when fun _ => addresses_dropAnchor) fun _ => ?_
  refine .bind (addresses_of_steady node (steady_of_routine routine_refreshSharedServices)) fun _ => ?_
  exact addresses_of_steady node (steady_of_routine Calm.save)

/-- An operation writes no address but the one that its device is given. -/
theorem perform_recorded {topo : DistributedTopology} {op : Op} {lab : Lab ρ}
    (h : Recorded A lab.saved)
    (hA : ∀ node, op = .add node ∨ op = .start node →
      MayBeGiven S A node (openLab topo lab.saved lab.remote lab.placed)) :
    Recorded A (lab.perform S topo op).2.saved := by
  have hopen : AddressesKept A (openLab topo lab.saved lab.remote lab.placed) := ⟨h, h⟩
  have hkeep : Prog.Keeps (AddressesKept A) (op.prog S) →
      Recorded A (lab.perform S topo op).2.saved := fun hk => (hk _ hopen).2
  cases op with
  | start node => exact (start_recorded.run_both ⟨hopen, hA node (.inr rfl)⟩).2
  | stop node force => exact hkeep (addresses_of_steady node steady_stop)
  | restart node => exact (restart_recorded hopen).2
  | add node => exact (add_recorded.run_both ⟨hopen, hA node (.inl rfl)⟩).2
  | remove node => exact hkeep addresses_remove
  | reconcile node => exact hkeep (addresses_of_steady "" steady_reconcile)
  | reconcileLink nodeA ifaceA nodeB ifaceB realNet =>
    exact hkeep (addresses_of_steady "" steady_reconcileLink)

/-! ## Addresses that differ -/

/-- No two devices are recorded with one address. -/
def DistinctIps (st : DeploymentState) : Prop :=
  ∀ n n' r r', st.nodeRuntime.get? n = some r → st.nodeRuntime.get? n' = some r' →
    r.mgmtIpv4 = r'.mgmtIpv4 → n = n'

theorem Recorded.distinctIps {st : DeploymentState} (h : Recorded A st)
    (hA : ∀ n n' t, A n t → A n' t → n = n') : DistinctIps st :=
  fun n n' r r' hr hr' heq => hA n n' _ (h n r hr) (heq ▸ h n' r' hr')

/-- What is recorded of a device that is deployed is no claim. -/
theorem sameClaims_rehydrate (nodes : Dict String VDNode)
    (runtimes : Dict String NodeRuntimeState) :
    Config.SameClaims nodes (rehydrate nodes runtimes) := by
  rw [Config.SameClaims, rehydrate]
  refine Dict.ext_get? (by simp only [Dict.keys_map]) fun name => ?_
  rw [Dict.get?_map, Dict.get?_map, Dict.get?_map, Option.map_map]
  refine congrArg (Option.map · (nodes.get? name)) (funext fun vd => ?_)
  dsimp only [Function.comp_apply]
  split_ifs <;> rfl

/-- The address that `add` has for a device, under the topology as it is then. -/
def IsDue (topo : DistributedTopology) (reservations : Dict String String) (node t : String) :
    Prop :=
  ∃ net r ip, Ip.Network.parse topo.mgmt.ipv4Subnet = .ok net ∧ MgmtIps.reservationsOf net = .ok r ∧
    Config.Due net r.toList topo.nodes reservations node ip ∧ t = Ip.text ip

/-- A step keeps the addresses apart if no device is recorded with the address that is due to the
    one that it adds. -/
def AddressCondition (topo : DistributedTopology) (op : Op) (lab : Lab ρ) : Prop :=
  ∀ node, op = .add node ∨ op = .start node → node ∉ lab.saved.nodeRuntime.keys →
    ∀ t, IsDue topo lab.saved.mgmtIpReservations node t →
      ∀ n r, lab.saved.nodeRuntime.get? n = some r → r.mgmtIpv4 ≠ t

theorem mayBeGiven_of_due (hS : S.assignStickyMgmtIpv4 = Config.assignStickyMgmtIpv4)
    {topo : DistributedTopology} {lab : Lab ρ}
    (hA : ∀ t, node ∉ lab.saved.nodeRuntime.keys → IsDue topo lab.saved.mgmtIpReservations node t →
      A node t) :
    MayBeGiven S A node (openLab topo lab.saved lab.remote lab.placed) := by
  intro hnode addresses reservations hassign vd hvd
  rw [hS] at hassign
  obtain ⟨net, r, ip, hnet, hr, hget, hdue⟩ :=
    Config.due_of_assign hassign (Dict.mem_keys_iff.2 ⟨vd, hvd⟩)
  rw [Dict.getD, hget, Option.getD_some]
  exact hA _ hnode ⟨net, r, ip, hnet, hr, (sameClaims_rehydrate _ _).due.1 hdue, rfl⟩

/-- What an operation makes of the addresses. -/
theorem perform_distinct (hS : S.assignStickyMgmtIpv4 = Config.assignStickyMgmtIpv4)
    {topo : DistributedTopology} {op : Op} {lab : Lab ρ} (hP : AddressCondition topo op lab)
    (h : DistinctIps lab.saved) : DistinctIps (lab.perform S topo op).2.saved := by
  -- A record is one from before, or that of the device that is added.
  have hrecorded : Recorded (fun n t => (∃ r, lab.saved.nodeRuntime.get? n = some r ∧
      r.mgmtIpv4 = t) ∨ (op = .add n ∨ op = .start n) ∧ n ∉ lab.saved.nodeRuntime.keys ∧
        IsDue topo lab.saved.mgmtIpReservations n t) (lab.perform S topo op).2.saved :=
    perform_recorded (fun n r hr => .inl ⟨r, hr, rfl⟩) fun node hop =>
      mayBeGiven_of_due hS fun t hnode hdue => .inr ⟨hop, hnode, hdue⟩
  refine hrecorded.distinctIps fun n n' t => ?_
  rintro (⟨r, hr, rfl⟩ | ⟨hop, hnode, hdue⟩) (⟨r', hr', heq⟩ | ⟨hop', hnode', hdue'⟩)
  · exact h n n' r r' hr hr' heq.symm
  · exact absurd rfl (hP n' hop' hnode' _ hdue' n r hr)
  · exact absurd heq (hP n hop hnode _ hdue n' r' hr')
  · rcases hop with rfl | rfl <;> rcases hop' with heq | heq <;> cases heq <;> rfl

end Operations

end Dnlab.Node
