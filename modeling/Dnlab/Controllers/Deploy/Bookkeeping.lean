import Dnlab.Controllers.Deploy.Frame
import Dnlab.Controllers.Node.Bookkeeping
import Dnlab.Services.Generator.Agreement
import Dnlab.Services.Scheduler.Soundness

/-!
# The scheduling books of a deployment

A deployment opens the books: what it records of the devices and what it
records of the hosts both come from its plan (`PlanBooks`), the one by the files
of the devices. It saves them only when all phases have succeeded, so that a
deployment that fails leaves those of the lab before.
-/

namespace Dnlab.Deploy

open Ctl
open Node (Booked vdOn)
open Generator (Scheduled)

/-! ## The books of a plan -/

/-- The plan lists the devices of the table, each on one host, with what they need. -/
structure PlanBooks (resources : Dict String VDResources) (plan : SchedulePlan) : Prop where
  nodup : ∀ host a, plan.assignments.get? host = some a → a.vdNames.Nodup
  apart : ∀ host host' n, Scheduled plan host n → Scheduled plan host' n → host = host'
  used : ∀ host a, plan.assignments.get? host = some a →
    (⟨a.cpuUsed, a.ramMbUsed⟩ : ResourcesUsed) = needed resources a.vdNames
  known : ∀ host n, Scheduled plan host n → n ∈ resources.keys

theorem planBooks_of_computeSchedule {topo topo' : DistributedTopology}
    {resources : Dict String VDResources} {hosts : Dict String HostResources}
    {prefs : Dict String String} {plan : SchedulePlan} (hk : Scheduler.Keyed resources)
    (h : Scheduler.computeSchedule topo resources hosts prefs = .ok (topo', plan)) :
    PlanBooks resources plan := by
  obtain ⟨cs, hc⟩ := Scheduler.exists_choices h
  have hget : ∀ {host a}, plan.assignments.get? host = some a →
      a.vdNames = (Scheduler.on host cs).map (·.name) ∧
      a.cpuUsed = ((Scheduler.on host cs).map (·.cpu)).sum ∧
      a.ramMbUsed = ((Scheduler.on host cs).map (·.ramMb)).sum := by
    intro host a ha
    rw [hc.get?_assignments, Option.map_eq_some_iff] at ha
    obtain ⟨r, -, rfl⟩ := ha
    exact ⟨rfl, rfl, rfl⟩
  have hchosen : ∀ {host n}, Scheduled plan host n → ∃ vd, (vd, host) ∈ cs ∧ vd.name = n := by
    rintro host n ⟨a, ha, hn⟩
    rw [(hget ha).1] at hn
    obtain ⟨vd, hvd, rfl⟩ := List.mem_map.1 hn
    exact ⟨vd, Scheduler.mem_on.1 hvd, rfl⟩
  constructor
  · intro host a ha
    rw [(hget ha).1]
    exact hc.nodup_on hk
  · intro host host' n hn hn'
    obtain ⟨vd, hvd, hname⟩ := hchosen hn
    obtain ⟨vd', hvd', hname'⟩ := hchosen hn'
    exact congrArg Prod.snd (hc.eq_of_name_eq hk hvd hvd' (hname.trans hname'.symm))
  · intro host a ha
    obtain ⟨hvd, hcpu, hram⟩ := hget ha
    rw [hvd, hcpu, hram, needed_map_name fun vd hvd' => hc.get?_name hk (Scheduler.mem_on.1 hvd')]
  · intro host n hn
    obtain ⟨vd, hvd, rfl⟩ := hchosen hn
    exact Dict.mem_keys_iff.2 ⟨vd, hc.get?_name hk hvd⟩

/-- The hosts that devices are assigned to, with what is assigned to them. -/
def active (plan : SchedulePlan) : List (String × HostAssignment) :=
  plan.assignments.items.filter fun (_, a) => a.vdNames ≠ []

theorem mem_active {plan : SchedulePlan} {host : String} {a : HostAssignment} :
    (host, a) ∈ active plan ↔ plan.assignments.get? host = some a ∧ a.vdNames ≠ [] := by
  simp [active, Dict.get?_eq_some_iff]

section Entries

variable {resources : Dict String VDResources} {plan : SchedulePlan} {st : DeploymentState}
  {underlay : Dict String String} {entries : List (String × HostScheduleState)}

/-- What is recorded of a host is what is assigned to it. -/
theorem get?_entries
    (h : ((active plan).mapM fun (host, a) => scheduleHost underlay host a) = .ok entries)
    {host : String} {s : HostScheduleState} (hs : (Dict.ofList entries).get? host = some s) :
    ∃ a, plan.assignments.get? host = some a ∧ s.vd = a.vdNames ∧
      s.resourcesUsed = ⟨a.cpuUsed, a.ramMbUsed⟩ := by
  obtain ⟨p, hp, hentry⟩ := ExceptRules.forall₂_exists (ExceptRules.mapM_eq_ok.1 h)
    (Dict.mem_of_get?_ofList hs)
  obtain ⟨host', a⟩ := p
  dsimp only at hentry
  rw [scheduleHost] at hentry
  cases hu : underlay.get? host' with
  | none =>
    rw [hu] at hentry
    cases hentry
  | some ip =>
    rw [hu] at hentry
    obtain ⟨rfl, rfl⟩ := Prod.mk.inj (Except.ok.inj hentry)
    exact ⟨a, (mem_active.1 hp).1, rfl, rfl⟩

theorem vdOn_entries
    (h : ((active plan).mapM fun (host, a) => scheduleHost underlay host a) = .ok entries)
    (host n : String) : n ∈ vdOn (Dict.ofList entries) host ↔ Scheduled plan host n := by
  constructor
  · intro hn
    rw [vdOn] at hn
    cases hs : (Dict.ofList entries).get? host with
    | none =>
      rw [hs] at hn
      exact absurd hn (by simp)
    | some s =>
      rw [hs] at hn
      obtain ⟨a, ha, hvd, -⟩ := get?_entries h hs
      exact ⟨a, ha, hvd ▸ hn⟩
  · rintro ⟨a, ha, hn⟩
    obtain ⟨e, he, hentry⟩ := ExceptRules.forall₂_exists' (ExceptRules.mapM_eq_ok.1 h)
      (mem_active.2 ⟨ha, List.ne_nil_of_mem hn⟩)
    have hfst : e.1 = host := by
      dsimp only at hentry
      rw [scheduleHost] at hentry
      split at hentry
      · cases hentry
      · rw [← Except.ok.inj hentry]
    cases hs : (Dict.ofList entries).get? host with
    | none => exact absurd (List.mem_map_of_mem (f := Prod.fst) he) (hfst ▸ Dict.get?_ofList_eq_none.1 hs)
    | some s =>
      obtain ⟨a', ha', hvd, -⟩ := get?_entries h hs
      obtain rfl := Option.some.inj (ha.symm.trans ha')
      rw [vdOn, hs]
      show n ∈ s.vd
      rwa [hvd]

/-- The records and the lists that come from a plan agree. -/
theorem PlanBooks.booked (h : PlanBooks resources plan)
    (hentries : ((active plan).mapM fun (host, a) => scheduleHost underlay host a) = .ok entries)
    (hrecords : ∀ host n, (∃ r, st.nodeRuntime.get? n = some r ∧ r.host = host) ↔
      Scheduled plan host n)
    (hsched : st.scheduling = Dict.ofList entries) : Booked resources st := by
  constructor
  · intro host
    rw [vdOn, hsched]
    cases hs : (Dict.ofList entries).get? host with
    | none => exact List.nodup_nil
    | some s =>
      obtain ⟨a, ha, hvd, -⟩ := get?_entries hentries hs
      exact (congrArg List.Nodup hvd).mpr (h.nodup host a ha)
  · intro host n
    rw [hsched, vdOn_entries hentries, hrecords]
  · intro host s hs
    rw [hsched] at hs
    obtain ⟨a, ha, hvd, hused⟩ := get?_entries hentries hs
    rw [hused, hvd, h.used host a ha]
  · intro n hn
    obtain ⟨r, hr⟩ := Dict.mem_keys_iff.1 hn
    exact h.known r.host n ((hrecords r.host n).1 ⟨r, hr, rfl⟩)

end Entries

/-! ## What a deployment records of the devices -/

/-- What was deployed on the hosts, by device; nothing of a host that failed. -/
def recorded (results : List (String × Except Err (List NodeRuntimeState))) :
    List (String × NodeRuntimeState) :=
  results.flatMap fun (_, r) =>
    match r with
    | .ok runtimes => runtimes.map fun r => (r.node, r)
    | .error _ => []

/-- The results of the hosts: records of the devices that have files there. -/
def DeployedFrom (files : Dict String (Dict String ClabDict)) (host : String)
    (result : String × Except Err (List NodeRuntimeState)) : Prop :=
  result.1 = host ∧ ∀ runtimes, result.2 = .ok runtimes → List.Forall₂
    (fun file (r : NodeRuntimeState) => r.node = file.1 ∧ r.host = host)
    (files.getD host ∅).items runtimes

section Records

variable {plan : SchedulePlan} {files : Dict String (Dict String ClabDict)} {order : List String}
  {results : List (String × Except Err (List NodeRuntimeState))}

/-- What is recorded is a device with a file on its host. -/
theorem mem_recorded (h : List.Forall₂ (DeployedFrom files) order results)
    {n : String} {r : NodeRuntimeState} (hr : (n, r) ∈ recorded results) :
    n ∈ (files.getD r.host ∅).keys := by
  obtain ⟨⟨host, result⟩, hresult, hmem⟩ := List.mem_flatMap.1 hr
  obtain ⟨host', -, -, hall⟩ := ExceptRules.forall₂_exists h hresult
  cases result with
  | error e => exact absurd hmem (by simp)
  | ok runtimes =>
    obtain ⟨r', hr', heq⟩ := List.mem_map.1 hmem
    obtain ⟨rfl, rfl⟩ := Prod.mk.inj heq
    obtain ⟨file, hfile, hnode, hhost⟩ := ExceptRules.forall₂_exists (hall _ rfl) hr'
    rw [hhost, hnode]
    exact List.mem_map_of_mem hfile

/-- Every device with a file on a host that was deployed is recorded. -/
theorem exists_recorded (h : List.Forall₂ (DeployedFrom files) order results)
    (hok : ∀ e ∈ results, ∃ runtimes, e.2 = .ok runtimes) {host n : String} (hhost : host ∈ order)
    (hn : n ∈ (files.getD host ∅).keys) : n ∈ (recorded results).map Prod.fst := by
  obtain ⟨⟨host', result⟩, hresult, rfl, hall⟩ := ExceptRules.forall₂_exists' h hhost
  obtain ⟨runtimes, rfl⟩ := hok _ hresult
  obtain ⟨file, hfile, rfl⟩ := List.mem_map.1 hn
  obtain ⟨r, hr, hnode, -⟩ := ExceptRules.forall₂_exists' (hall _ rfl) hfile
  refine List.mem_map.2 ⟨(r.node, r), List.mem_flatMap.2 ⟨_, hresult, ?_⟩, hnode⟩
  exact List.mem_map_of_mem hr

/-- The devices are recorded on the hosts that they are assigned to. -/
theorem records_iff {resources : Dict String VDResources} (hplan : PlanBooks resources plan)
    (hfiles : ∀ host n, n ∈ (files.getD host ∅).keys ↔ Scheduled plan host n)
    (h : List.Forall₂ (DeployedFrom files) order results)
    (hok : ∀ e ∈ results, ∃ runtimes, e.2 = .ok runtimes)
    (horder : ∀ host n, n ∈ (files.getD host ∅).keys → host ∈ order) (host n : String) :
    (∃ r, (Dict.ofList (recorded results)).get? n = some r ∧ r.host = host) ↔
      Scheduled plan host n := by
  have hmem : ∀ {r}, (Dict.ofList (recorded results)).get? n = some r → Scheduled plan r.host n :=
    fun hr => (hfiles _ n).1 (mem_recorded h (Dict.mem_of_get?_ofList hr))
  constructor
  · rintro ⟨r, hr, rfl⟩
    exact hmem hr
  · intro hs
    have hn := (hfiles host n).2 hs
    cases hr : (Dict.ofList (recorded results)).get? n with
    | none =>
      exact absurd (exists_recorded h hok (horder host n hn) hn) (Dict.get?_ofList_eq_none.1 hr)
    | some r => exact ⟨r, rfl, hplan.apart _ _ n (hmem hr) hs⟩

end Records

/-! ## The phases -/

section Phases

variable {ρ : Type} {S : DeployServices ρ} {clients : Clients} {plan : SchedulePlan}
  {underlay : Dict String String} {saved : DeploymentState} {placed : Dict String VDResources}
  {resources : Dict String VDResources}

/-- A world in which nothing has been saved. -/
structure Untouched (saved : DeploymentState) (placed : Dict String VDResources) (w : World ρ) :
    Prop where
  saved : w.saved = saved
  placed : w.placed = placed

/-- The world of a deployment that has recorded no device. -/
structure Fresh (saved : DeploymentState) (placed : Dict String VDResources) (w : World ρ) : Prop
    extends Untouched saved placed w where
  runtime : w.state.nodeRuntime = ∅
  scheduling : w.state.scheduling = ∅

/-- The world of a deployment that has recorded the devices. -/
structure Entered (resources : Dict String VDResources) (saved : DeploymentState)
    (placed : Dict String VDResources) (w : World ρ) : Prop extends Untouched saved placed w where
  books : Booked resources w.state

section Steps

variable {Q : Event → Prop} {w w' : World ρ}

theorem Phase.untouched (h : Phase Q w w') (hw : Untouched saved placed w) :
    Untouched saved placed w' :=
  ⟨h.saved.trans hw.saved, h.placed.trans hw.placed⟩

theorem Phase.fresh (h : Phase Q w w') (hw : Fresh saved placed w) : Fresh saved placed w' := by
  refine ⟨h.untouched hw.toUntouched, Dict.ext ?_, h.scheduling.trans hw.scheduling⟩
  have hkeys := h.keys
  rw [hw.runtime] at hkeys
  exact List.map_eq_nil_iff.1 hkeys

theorem Phase.entered (h : Phase Q w w') (hw : Entered resources saved placed w) :
    Entered resources saved placed w' :=
  ⟨h.untouched hw.toUntouched, hw.books.congr h.host h.scheduling fun _ _ => rfl⟩

variable {α : Type} {p : Ctl ρ α}

theorem step_fresh (h : Prog.Within (Phase Q) p) : Prog.Triple (Fresh saved placed) p
    (fun _ => Fresh saved placed) fun _ => Untouched saved placed :=
  (Prog.Triple.of_keeps (h.keeps fun _ _ => Phase.fresh)).weaken (fun _ => id) (fun _ _ => id)
    fun _ _ => Fresh.toUntouched

theorem step_entered (h : Prog.Within (Phase Q) p) : Prog.Triple (Entered resources saved placed) p
    (fun _ => Entered resources saved placed) fun _ => Untouched saved placed :=
  (Prog.Triple.of_keeps (h.keeps fun _ _ => Phase.entered)).weaken (fun _ => id) (fun _ _ => id)
    fun _ _ => Entered.toUntouched

end Steps

/-! ### The deployment of the devices -/

/-- The hosts finish in some order, and their results are known one by one. -/
theorem inParallel_spec {α : Type} {P : World ρ → Prop} {E : Err → World ρ → Prop}
    {hosts : List String} {work : String → Ctl ρ α} {R : String → α → Prop}
    (h : ∀ host, Prog.Triple P (work host) (fun a w => P w ∧ R host a) fun _ => P) :
    Prog.Triple P (inParallel S hosts work)
      (fun results w => P w ∧ ∃ order, order.Perm hosts ∧ List.Forall₂
        (fun host e => e.1 = host ∧ ∀ a, e.2 = .ok a → R host a) order results) E := by
  refine .bind (Q := fun _ => P) (.get fun _ => id) fun w₀ => ?_
  refine (Prog.Triple.mapEach fun host _ => ?_).weaken (fun _ => id)
    (fun _ _ hw => ⟨hw.1, _, S.completed_perm w₀.remote.env hosts, hw.2⟩) fun _ _ => id
  exact .bind (.attempt (h host)) fun r => .pure fun w hw => ⟨hw.1, rfl, hw.2⟩

/-- Deploying a device changes nothing that is recorded. -/
theorem deployVd_spec {host name : String} {content : ClabDict} :
    Prog.Triple (Fresh saved placed) (deployVd S clients host name content)
      (fun (r : NodeRuntimeState) w => Fresh saved placed w ∧ r.node = name ∧ r.host = host)
      fun _ => Fresh saved placed := by
  have hrun : ∀ {cmd : Cmd} {check : Bool}, Prog.Within (Phase fun _ => True)
      (remotely (clients.run S.backend host cmd check)) := fun {cmd check} =>
    Phase.remotely (.run fun _ => trivial)
  have hkeep : ∀ {α : Type} {p : Ctl ρ α}, Prog.Within (Phase fun _ => True) p →
      Prog.Triple (Fresh saved placed) p (fun _ => Fresh saved placed) fun _ => Fresh saved placed :=
    fun h => .of_keeps (h.keeps fun _ _ => Phase.fresh)
  refine .bind (hkeep Phase.topo) fun t => .bind (hkeep hrun) fun _ => .bind (hkeep ?_) fun _ => ?_
  · exact .rescue (.bind hrun fun _ => .pure _) fun _ => .raise _
  · exact (Prog.Triple.ofExcept _).weaken (fun _ => id)
      (fun _ _ hw => ⟨hw.1, Node.newRuntime_eq_ok hw.2⟩) fun _ _ => id

/-- The devices of all hosts that succeeded are recorded, unless one failed. -/
theorem recordHosts_spec {d : Dict String NodeRuntimeState}
    (results : List (String × Except Err (List NodeRuntimeState))) :
    Prog.Triple
      (fun w => Untouched saved placed w ∧ w.state.nodeRuntime = d ∧ w.state.scheduling = ∅)
      (recordHosts results : Ctl ρ Unit)
      (fun _ w => (Untouched saved placed w ∧ w.state.nodeRuntime = d.update (recorded results) ∧
        w.state.scheduling = ∅) ∧ ∀ e ∈ results, ∃ runtimes, e.2 = .ok runtimes)
      fun _ => Untouched saved placed := by
  induction results generalizing d with
  | nil => exact .pure fun w hw => ⟨hw, by simp⟩
  | cons e results ih =>
    obtain ⟨host, r⟩ := e
    cases r with
    | error e => exact .bind (Q := fun _ _ => False) (.raise fun w hw => hw.1) fun _ _ h => h.elim
    | ok runtimes =>
      -- The records of this host are added to those of the hosts before it.
      refine .bind (.modify fun w hw => ⟨⟨hw.1.saved, hw.1.placed⟩, ?_, hw.2.2⟩) fun _ =>
        (ih (d := d.update (runtimes.map fun r => (r.node, r)))).weaken (fun _ => id)
          (fun _ w hw => ⟨⟨hw.1.1, ?_, hw.1.2.2⟩, ?_⟩) fun _ _ => id
      · rw [hw.1.2.1]
        exact (List.foldl_append).symm
      · intro e he
        rcases List.mem_cons.1 he with rfl | he
        · exact ⟨runtimes, rfl⟩
        · exact hw.2 e he
      · exact congrArg (Dict.update · _) hw.2.1

/-- The deployment of the devices opens the books of the plan. -/
theorem deployClab_spec (hplan : PlanBooks resources plan) :
    Prog.Triple (Fresh saved placed) (deployClab S clients plan underlay)
      (fun _ => Entered resources saved placed) fun _ => Untouched saved placed := by
  refine .bind (Q := fun _ => Fresh saved placed) (.get fun _ => id) fun w₀ => ?_
  refine .bind ((Prog.Triple.ofExcept _).weaken (fun _ => id) (fun _ _ => id) fun _ _ =>
    Fresh.toUntouched) fun files => .of_and fun hfiles => ?_
  refine .bind (step_fresh (.forEach fun _ _ => minor_makeDirs)) fun _ => ?_
  refine .bind (step_fresh (.forEach fun _ _ => .forEach fun _ _ =>
    minor_uploadIn)) fun _ => ?_
  -- Every host with files is deployed, and its records are those of its files.
  have hresults : ∀ host, Prog.Triple (Fresh saved placed) (deployHost S clients files host)
      (fun runtimes w => Fresh saved placed w ∧ List.Forall₂
        (fun file (r : NodeRuntimeState) => r.node = file.1 ∧ r.host = host)
        (files.getD host ∅).items runtimes) fun _ => Fresh saved placed := fun host =>
    .mapEach fun _ _ => deployVd_spec
  have horder : ∀ host n, n ∈ (files.getD host ∅).keys →
      host ∈ (files.items.filter fun e => e.2.items ≠ []).map Prod.fst := by
    intro host n hn
    cases hfs : files.get? host with
    | none =>
      rw [Dict.getD, hfs] at hn
      exact absurd hn (by simp)
    | some fs =>
      rw [Dict.getD, hfs] at hn
      refine List.mem_map.2 ⟨(host, fs), List.mem_filter.2 ⟨Dict.get?_eq_some_iff.1 hfs, ?_⟩, rfl⟩
      have hne : fs.keys ≠ [] := List.ne_nil_of_mem hn
      simpa [Dict.keys] using hne
  refine .bind (inParallel_spec hresults) fun results => .of_and fun hdeployed => ?_
  obtain ⟨order, hperm, hall⟩ := hdeployed
  have hrecord : Prog.Triple (Fresh saved placed) (recordHosts results : Ctl ρ Unit)
      (fun _ w => (Untouched saved placed w ∧
        w.state.nodeRuntime = (∅ : Dict String NodeRuntimeState).update (recorded results) ∧
        w.state.scheduling = ∅) ∧ ∀ e ∈ results, ∃ runtimes, e.2 = .ok runtimes)
      fun _ => Untouched saved placed :=
    (recordHosts_spec results).weaken (fun w hw => ⟨hw.toUntouched, hw.runtime, hw.scheduling⟩)
      (fun _ _ => id) fun _ _ => id
  refine .bind hrecord fun _ => .of_and fun hok => ?_
  have hiff := records_iff hplan (Generator.mem_keys_files_iff hfiles) hall hok fun host n hn =>
    hperm.mem_iff.2 (horder host n hn)
  refine .bind ((Prog.Triple.ofExcept _).weaken (fun _ => id) (fun _ _ => id) fun _ _ hw =>
    hw.1) fun entries => .of_and fun hentries => ?_
  refine .bind (Q := fun _ => Entered resources saved placed) (.modify fun w hw => ⟨⟨hw.1.saved,
    hw.1.placed⟩, ?_⟩) fun _ => step_entered minor_completePhase
  refine hplan.booked hentries (fun host n => ?_) (congrArg (Dict.update · entries) hw.2.2)
  rw [← hiff host n]
  show (∃ r, w.state.nodeRuntime.get? n = some r ∧ r.host = host) ↔ _
  rw [hw.2.1]
  rfl

/-! ### The other phases -/

theorem keeps_createLinks {links : List RuntimeLinkState} : Prog.Keeps
    (Entered resources saved placed) (createLinks S clients underlay links) := by
  refine .bind ((Phase.state (Q := fun _ => True)).keeps fun _ _ => Phase.entered) fun st => ?_
  refine .bind (fun w hw => ⟨⟨hw.saved, hw.placed⟩, hw.books⟩) fun ⟨links', err⟩ => ?_
  cases err with
  | some e => exact .raise e
  | none => exact .pure links'

/-- The links are no part of the books. -/
theorem keeps_deployRuntimeLinks : Prog.Keeps (Entered resources saved placed)
    (deployRuntimeLinks S clients plan underlay) := by
  refine .bind ((Phase.topo (Q := fun _ => True)).keeps fun _ _ => Phase.entered) fun t => ?_
  refine .bind (.ofExcept _) fun links => .when fun _ => .bind keeps_createLinks fun links' => ?_
  refine .bind (.modify fun w hw => ⟨⟨hw.saved, hw.placed⟩, ?_⟩) fun _ =>
    minor_completePhase.keeps fun _ _ => Phase.entered
  exact hw.books.congr (fun _ => rfl) rfl fun _ _ => rfl

/-- What a deployment leaves on disk: the lab before, or books that agree. -/
def Settled (saved : DeploymentState) (placed : Dict String VDResources) (w : World ρ) : Prop :=
  Untouched saved placed w ∨ Booked w.placed w.saved

theorem Unsaved.settled {w w' : World ρ} (h : Unsaved w w') (hw : Settled saved placed w) :
    Settled saved placed w' := by
  rcases hw with hw | hw
  · exact .inl ⟨h.saved.trans hw.saved, h.placed.trans hw.placed⟩
  · right
    rw [h.saved, h.placed]
    exact hw

/-- The phases save the books that they have opened, if they succeed. -/
theorem deployPhases_spec (hplan : PlanBooks resources plan) {previous : Option DeploymentState} :
    Prog.Triple (Fresh saved placed) (deployPhases S clients plan previous resources)
      (fun _ w => Booked w.placed w.saved) fun _ => Settled saved placed := by
  have hfresh : ∀ {α : Type} {p : Ctl ρ α}, Minor p → Prog.Triple (Fresh saved placed) p
      (fun _ => Fresh saved placed) fun _ => Settled saved placed := fun h =>
    (step_fresh h).weaken (fun _ => id) (fun _ _ => id) fun _ _ => .inl
  have hentered : ∀ {α : Type} {p : Ctl ρ α}, Minor p → Prog.Triple
      (Entered resources saved placed) p (fun _ => Entered resources saved placed)
        fun _ => Settled saved placed := fun h =>
    (step_entered h).weaken (fun _ => id) (fun _ _ => id) fun _ _ => .inl
  -- The state is fresh until the devices are deployed, and entered after that.
  refine .bind (hfresh minor_connect) fun _ => .bind (hfresh Phase.topo) fun t => ?_
  refine .bind (hfresh (.forEach fun ⟨name, vd⟩ _ => minor_inspectImage)) fun _ => ?_
  refine .bind (hfresh minor_resolveUnderlayIps) fun underlay => ?_
  refine .bind (hfresh minor_deployMgmt) fun _ => .bind (hfresh minor_allocateWebuiPorts) fun _ => ?_
  refine .bind (hfresh minor_deployRealnets) fun _ => .bind (hfresh Phase.topo) fun t => ?_
  refine .bind (hfresh (Phase.outside _)) fun _ => .bind (hfresh minor_completePhase) fun _ => ?_
  refine .bind (hfresh minor_deployMgmtAnchors) fun _ => ?_
  refine .bind ((deployClab_spec hplan).weaken (fun _ => id) (fun _ _ => id) fun _ _ => .inl)
    fun _ => ?_
  refine .bind (hentered minor_healthCheckVds) fun _ => ?_
  refine .bind ((Prog.Triple.of_keeps keeps_deployRuntimeLinks).weaken (fun _ => id) (fun _ _ => id)
    fun _ _ hw => .inl hw.toUntouched) fun _ => ?_
  refine .bind (hentered minor_deployRuntimeRelays) fun _ => .bind (hentered minor_deployDns)
    fun _ => ?_
  refine .bind (hentered minor_deployJumphost) fun _ => .bind (hentered minor_setVdDefaultRoutes)
    fun _ => ?_
  refine .bind (hentered minor_verify) fun _ => ?_
  refine .bind (Q := fun _ w => Booked w.placed w.saved) (.modify fun w hw => hw.books) fun _ => ?_
  exact (Prog.Triple.of_keeps fun w hw => hw).weaken (fun _ => id) (fun _ _ => id) fun _ _ => .inr

/-! ### The plan -/

theorem extractResources_spec : Prog.Triple (Untouched saved placed) (extractResources S)
    (fun resources w => Untouched saved placed w ∧ Scheduler.Keyed resources)
      fun _ => Untouched saved placed := by
  have hone : ∀ (t : DistributedTopology) (e : String × VDNode), Prog.Triple
      (Untouched saved placed) (do
        let r ← outside (S.extractResources t e.2)
        let r : VDResources := { r with name := e.1 }
        pure (e.1, r) : Ctl ρ (String × VDResources))
      (fun p w => Untouched saved placed w ∧ p.2.name = p.1) fun _ => Untouched saved placed :=
    fun t e => .bind (.of_keeps ((Phase.outside (Q := fun _ => True) _).keeps fun _ _ =>
      Phase.untouched)) fun r => .pure fun w hw => ⟨hw, rfl⟩
  refine .bind (.of_keeps ((Phase.topo (Q := fun _ => True)).keeps fun _ _ => Phase.untouched))
    fun t => .bind (.mapEach (R := fun _ p => p.2.name = p.1) fun e _ => hone t e) fun pairs => ?_
  refine .pure fun w hw => ⟨hw.1, fun n r hr => ?_⟩
  obtain ⟨e, -, hname⟩ := ExceptRules.forall₂_exists hw.2 (Dict.mem_of_get?_ofList hr)
  exact hname

/-- A plan lists the devices with what they need. -/
theorem makePlan_spec {previous : Option DeploymentState} :
    Prog.Triple (Untouched saved placed) (makePlan S previous)
      (fun r w => Untouched saved placed w ∧ PlanBooks r.2.1 r.1)
      fun _ => Untouched saved placed := by
  have hkeep : ∀ {α : Type} {p : Ctl ρ α}, Prog.Within (Phase fun _ => True) p →
      Prog.Triple (Untouched saved placed) p (fun _ => Untouched saved placed)
        fun _ => Untouched saved placed := fun h =>
    .of_keeps (h.keeps fun _ _ => Phase.untouched)
  have hminor : ∀ {α : Type} {p : Ctl ρ α}, Minor p →
      Prog.Triple (Untouched saved placed) p (fun _ => Untouched saved placed)
        fun _ => Untouched saved placed := fun h =>
    .of_keeps (h.keeps fun _ _ => Phase.untouched)
  refine .bind (hkeep Phase.topo) fun t => .bind (hkeep (.ofExcept _)) fun ⟨addresses, rs⟩ => ?_
  refine .bind (hkeep Phase.modifyTopo) fun _ => .bind extractResources_spec fun resources =>
    .of_and fun hkeyed => ?_
  refine .bind (hminor minor_createClients) fun clients => .bind (hminor minor_connect) fun _ => ?_
  refine .bind (hkeep Phase.topo) fun t => .bind (hkeep (Phase.outside _)) fun _ => ?_
  refine .bind (.of_keeps fun w hw => ⟨hw.saved, hw.placed⟩) fun hosts => ?_
  refine .bind (hkeep (Phase.outside _)) fun prefs => .bind (.ofExcept _) fun ⟨t', plan⟩ =>
    .of_and fun hplan => .bind (hkeep Phase.modifyTopo) fun _ => .pure fun w hw => ⟨hw, ?_⟩
  exact planBooks_of_computeSchedule hkeyed hplan

/-- A deployment saves books that agree, or nothing. -/
theorem run_spec (topologyFile : String) (previous : Option DeploymentState) :
    Prog.Triple (Untouched saved placed) (run S topologyFile previous)
      (fun _ w => Booked w.placed w.saved) fun _ => Settled saved placed := by
  have hkeep : ∀ {α : Type} {p : Ctl ρ α}, Prog.Within (Phase fun _ => True) p →
      Prog.Triple (Untouched saved placed) p (fun _ => Untouched saved placed)
        fun _ => Settled saved placed := fun h =>
    (Prog.Triple.of_keeps (h.keeps fun _ _ => Phase.untouched)).weaken (fun _ => id)
      (fun _ _ => id) fun _ _ => .inl
  refine .bind (makePlan_spec.weaken (fun _ => id) (fun _ _ => id) fun _ _ => .inl)
    fun ⟨plan, resources, reservations⟩ => .of_and fun hplan => ?_
  refine .bind (hkeep Phase.topo) fun t => .bind (hkeep (Phase.remotely (.of_log_eq fun _ => rfl)))
    fun deployedAt => ?_
  refine .bind (Q := fun _ => Fresh saved placed) (.modify fun w hw => ⟨⟨hw.saved, hw.placed⟩, rfl,
    rfl⟩) fun _ => ?_
  refine .bind ((step_fresh minor_createClients).weaken (fun _ => id) (fun _ _ => id) fun _ _ =>
    .inl) fun clients => .rescue (deployPhases_spec hplan) fun e => ?_
  exact .bind (.of_keeps (unsaved_rollback.keeps fun _ _ => Unsaved.settled)) fun _ =>
    .raise fun _ => id

end Phases

/-! ## Lives -/

section Lives

variable {ρ : Type} {S : DeployServices ρ} {topo : DistributedTopology} {topologyFile : String}
  {previous : Option DeploymentState} {lab : Node.Lab ρ}

/-- The books agree after a deployment that succeeds, whatever was saved before. -/
theorem deploy_booked (h : (deploy S topo topologyFile previous lab).1 = .ok ()) :
    Booked (deploy S topo topologyFile previous lab).2.placed
      (deploy S topo topologyFile previous lab).2.saved := by
  have hspec := run_spec (S := S) topologyFile previous (openDeploy topo lab)
    (⟨rfl, rfl⟩ : Untouched lab.saved lab.placed _)
  rw [deploy] at h ⊢
  rcases hr : (run S topologyFile previous).run (openDeploy topo lab) with ⟨e | _, w⟩ <;>
    rw [hr] at hspec h
  · cases h
  · exact hspec

/-- A deployment that fails leaves books that agree, or nothing new. -/
theorem deploy_keeps (h : Booked lab.placed lab.saved) :
    Booked (deploy S topo topologyFile previous lab).2.placed
      (deploy S topo topologyFile previous lab).2.saved := by
  have hspec := run_spec (S := S) topologyFile previous (openDeploy topo lab)
    (⟨rfl, rfl⟩ : Untouched lab.saved lab.placed _)
  rw [deploy]
  rcases hr : (run S topologyFile previous).run (openDeploy topo lab) with ⟨e | _, w⟩ <;>
    rw [hr] at hspec
  · rcases hspec with hw | hw
    · show Booked w.placed w.saved
      rw [hw.saved, hw.placed]
      exact h
    · exact hw
  · exact hspec

/-- In the life of a lab in which every device that is removed leaves the sum of its host right, the
    books agree at every moment. -/
theorem booked_of_life (S : DeployServices ρ) (topo : DistributedTopology) (topologyFile : String)
    (previous : Option DeploymentState) (before lab : Node.Lab ρ)
    (hdeploy : (deploy S topo topologyFile previous before).1 = .ok ())
    (hlife : Life S Node.BooksCondition (deploy S topo topologyFile previous before).2 lab) :
    Booked lab.placed lab.saved :=
  Life.invariant S (I := fun lab => Booked lab.placed lab.saved)
    (fun _ _ _ _ hP h => Node.perform_booked hP h) (fun _ _ _ _ h => deploy_keeps h) hlife
    (deploy_booked hdeploy)

/-! ### Two devices on one host -/

/-- Two devices, which fit on the one worker. -/
def officeTopo : DistributedTopology where
  name := "office"
  master := { name := "master", host := "10.0.0.1", isMaster := true }
  workers := .ofList [("w1", { name := "w1", host := "10.0.0.2" })]
  underlayIface := "eth0"
  nodes := .ofList [
    ("r1", { name := "r1", kind := "linux", image := "alpine:3", mgmtIpv4 := "172.20.0.11" }),
    ("r2", { name := "r2", kind := "linux", image := "alpine:3", mgmtIpv4 := "172.20.0.12" })]
  links := []
  mgmt :=
    { network := "mgmt", bridge := "br-mgmt", ipv4Subnet := "172.20.0.0/24"
      ipv4Gw := "172.20.0.1" }

/-- Nothing was ever deployed. -/
def noLab : Node.Lab Unit where
  saved := { labName := "office", topologyFile := "office.yml", deployedAt := "" }
  remote := ⟨(), []⟩
  placed := ∅

/-- Only the first of them. -/
def lobbyTopo : DistributedTopology :=
  { officeTopo with
    nodes := .ofList [
      ("r1", { name := "r1", kind := "linux", image := "alpine:3", mgmtIpv4 := "172.20.0.11" })] }

theorem deploy_lobby : (deploy quietServices lobbyTopo "office.yml" none noLab).1 = .ok () := by
  have hok : (deploy quietServices lobbyTopo "office.yml" none noLab).1.isOk = true := by
    decide +kernel
  cases h : (deploy quietServices lobbyTopo "office.yml" none noLab).1 with
  | ok _ => rfl
  | error e =>
    rw [h] at hok
    cases hok

theorem labName_office :
    officeTopo.name =
      (deploy quietServices officeTopo "office.yml" none noLab).2.saved.labName := by
  decide +kernel

theorem labName_lobby :
    lobbyTopo.name = (deploy quietServices lobbyTopo "office.yml" none noLab).2.saved.labName := by
  decide +kernel

/-- The first device is alone on its host when it is removed; then both are deployed. -/
theorem booked_of_life_office : ∃ lab,
    Life quietServices Node.BooksCondition
      (deploy quietServices lobbyTopo "office.yml" none noLab).2 lab ∧
    (lab.saved.scheduling.get? "w1").map (·.vd) = some ["r1", "r2"] ∧
    Booked lab.placed lab.saved := by
  have hkeys : (deploy quietServices lobbyTopo "office.yml" none noLab).2.saved.nodeRuntime.keys =
      ["r1"] := by decide +kernel
  have halone : Node.BooksCondition lobbyTopo (.remove "r1")
      (deploy quietServices lobbyTopo "office.yml" none noLab).2 := by
    rintro node hnode r -
    cases hnode
    refine .inl fun n r' hr' _ => ?_
    have hn := Dict.mem_keys_iff.2 ⟨r', hr'⟩
    rw [hkeys] at hn
    exact List.mem_singleton.1 hn
  have hremove : Life quietServices Node.BooksCondition
      (deploy quietServices lobbyTopo "office.yml" none noLab).2
      ((deploy quietServices lobbyTopo "office.yml" none noLab).2.perform
        quietServices.toServices lobbyTopo (.remove "r1")).2 :=
    .single (.inl ⟨lobbyTopo, .remove "r1", labName_lobby, halone, rfl⟩)
  have hlife := hremove.tail (.inr ⟨officeTopo, "office.yml", none, rfl⟩)
  refine ⟨_, hlife, by decide +kernel, ?_⟩
  exact booked_of_life quietServices lobbyTopo "office.yml" none noLab _ deploy_lobby hlife

/-- Removing one of two devices on a host leaves the sum of both. -/
theorem not_booked_office : ∃ lab,
    Life quietServices (fun _ _ _ => True)
      (deploy quietServices officeTopo "office.yml" none noLab).2 lab ∧
    ¬Booked lab.placed lab.saved := by
  refine ⟨_, .single (.inl ⟨officeTopo, .remove "r1", labName_office, trivial, rfl⟩), fun h => ?_⟩
  have hsum : ((((deploy quietServices officeTopo "office.yml" none noLab).2.perform
      quietServices.toServices officeTopo (.remove "r1")).2.saved.scheduling.get? "w1").map
        fun s => (s.vd, s.resourcesUsed)) = some (["r2"], ⟨2, 512⟩) := by decide +kernel
  have hneeded : needed ((deploy quietServices officeTopo "office.yml" none noLab).2.perform
      quietServices.toServices officeTopo (.remove "r1")).2.placed ["r2"] = ⟨1, 256⟩ := by
    decide +kernel
  obtain ⟨s, hs, heq⟩ := Option.map_eq_some_iff.1 hsum
  obtain ⟨hvd, hused⟩ := Prod.mk.inj heq
  have hbooks := h.used "w1" s hs
  rw [hvd, hused, hneeded] at hbooks
  exact absurd hbooks (by decide)

end Lives

end Dnlab.Deploy
