import Dnlab.Services.Persistence.Retry

/-!
# Whether a lab is offline

Before overlays are migrated, the lab is checked for a state file and for running
containers. The check looks for the names that containers had when a whole lab was
deployed as one topology. The containers of devices are now deployed one by one and
named otherwise, so the check does not see them: an overlay is only moved when its
device is offline if one of the other signs is there, or if it happens not to run
(`offline_iff`).
-/

namespace Dnlab.Persistence

variable {topo : DistributedTopology} {plan : SchedulePlan} {history : Dict String String}
  {clients : Clients} {site site' : Site} {migration : Migration}

/-- The signs of a running lab that the check knows: its state file, and containers with the names
    of a lab that is deployed as a whole. -/
def Recognised (topo : DistributedTopology) (clients : Clients) (site : Site) : Prop :=
  site.stateFile ≠ none ∨ ∃ host ∈ clients.keys, ∃ vd ∈ persistentVds topo,
    Naming.vdContainerName topo.name vd.1 ∈ site.containers host

theorem forEach_ok_iff {α : Type} {l : List α} {f : α → Task Unit}
    (hself : ∀ a, ((f a).run site).2 = site) :
    ((Prog.forEach l f).run site).1 = .ok () ↔ ∀ a ∈ l, ((f a).run site).1 = .ok () := by
  induction l with
  | nil => exact ⟨fun _ a ha => absurd ha List.not_mem_nil, fun _ => rfl⟩
  | cons a l ih =>
    rw [List.forall_mem_cons, ← ih, Prog.forEach, Prog.run_bind]
    have hafter := hself a
    rcases hrun : (f a).run site with ⟨_ | ⟨⟨⟩⟩, after⟩
    · simp
    · rw [hrun] at hafter
      obtain rfl : after = site := hafter
      simp

/-- The check passes if it finds no sign. -/
theorem assertLabOffline_ok_iff :
    ((assertLabOffline topo clients).run site).1 = .ok () ↔ ¬Recognised topo clients site := by
  rw [assertLabOffline, Prog.run_bind, Prog.run_get, Recognised]
  dsimp only
  rcases hfile : site.stateFile with _ | path
  · dsimp only
    rw [forEach_ok_iff fun host => by split <;> rfl]
    simp only [ne_eq, not_true_eq_false, false_or, not_exists, not_and]
    refine forall₂_congr fun host _ => ?_
    split
    · -- Some name is found.
      rename_i running hfound
      refine iff_of_false (by simp) fun hnone => ?_
      obtain ⟨vd, hvd, rfl⟩ := List.mem_map.1 (List.mem_of_find?_eq_some hfound)
      exact hnone vd hvd (by simpa using List.find?_some hfound)
    · rename_i hfound
      refine iff_of_true rfl fun vd hvd hrunning => ?_
      have hnot := List.find?_eq_none.1 hfound _ (List.mem_map_of_mem hvd)
      exact hnot (by simpa using hrunning)
  · simp

/-! ## Containers -/

/-- Planning does not touch containers or the state file, and reports nothing. -/
theorem keeps_planMigrations (containers : String → List String) (stateFile : Option String)
    (progress : List Progress) :
    Prog.Keeps (fun site => site.containers = containers ∧ site.stateFile = stateFile ∧
      site.progress = progress) (planMigrations topo plan history clients) := by
  refine .bind (.mapEach fun vd _ => ?_) fun _ => .pure _
  obtain ⟨vdName, node⟩ := vd
  rw [planMigration]
  dsimp only
  split
  · exact .pure _
  · refine .bind (.when fun _ => .forEach fun host _ => ?_) fun _ => .bind .get fun site => ?_
    · refine .bind .get fun site => .ite (fun _ => .ite (fun _ => .raise _) fun _ => ?_) fun _ => .pure _
      exact .modify fun site h => h
    · split
      · exact .ite (fun _ => .raise _) fun _ => .ite (fun _ => .pure _) fun _ => .raise _
      · split
        · exact .pure _
        · exact .pure _
        · exact .raise _

/-- Whether a device's overlay is to be migrated. -/
def Planned (topo : DistributedTopology) (plan : SchedulePlan) (history : Dict String String)
    (clients : Clients) (site : Site) (migration : Migration) : Prop :=
  ∃ migrations planned, (planMigrations topo plan history clients).run site =
    (.ok migrations, planned) ∧ migration ∈ migrations

/-- The migrations are decided: they are planned, and the check passes. -/
def Decided (topo : DistributedTopology) (plan : SchedulePlan) (history : Dict String String)
    (clients : Clients) (site : Site) (migration : Migration) : Prop :=
  ∃ migrations planned, (planMigrations topo plan history clients).run site =
    (.ok migrations, planned) ∧ migration ∈ migrations ∧
      ((assertLabOffline topo clients).run planned).1 = .ok ()

/-- Unless migrations are decided, the preparation reports nothing. -/
theorem decided_of_progress
    (h : ((prepareLocalSticky topo plan history clients).run site).2.progress ≠ site.progress) :
    ∃ migration, Decided topo plan history clients site migration := by
  rw [prepareLocalSticky, Prog.when] at h
  split_ifs at h
  · rcases hplan : (planMigrations topo plan history clients).run site with ⟨e | migrations, planned⟩
    · rw [Prog.run_bind_error hplan] at h
      exact absurd ((keeps_planMigrations _ _ _).run ⟨rfl, rfl, rfl⟩ hplan).2.2 h
    · have hprogress : planned.progress = site.progress :=
        ((keeps_planMigrations _ _ _).run ⟨rfl, rfl, rfl⟩ hplan).2.2
      rw [Prog.run_bind_ok hplan, Prog.when] at h
      split_ifs at h with hsome
      · obtain ⟨migration, hmem⟩ := List.exists_mem_of_ne_nil migrations hsome
        refine ⟨migration, migrations, planned, hplan, hmem, ?_⟩
        -- The check changes nothing, and ends the run unless the lab is offline.
        rcases hcheck : (assertLabOffline topo clients).run planned with ⟨e | ⟨⟨⟩⟩, offline⟩
        · have heq : offline = planned :=
            (congrArg Prod.snd hcheck).symm.trans (assertLabOffline_snd planned)
          rw [Prog.run_bind_error hcheck, heq] at h
          exact absurd hprogress h
        · rfl
      · exact absurd hprogress h
  · exact absurd rfl h

/-- The container of a device runs on some host. -/
def Running (topo : DistributedTopology) (site : Site) (vdName : String) : Prop :=
  ∃ host, Naming.microVdContainerName topo.name vdName ∈ site.containers host

/-- A migration is only decided when the container of the device does not run. -/
def MovedOffline (topo : DistributedTopology) (plan : SchedulePlan) (history : Dict String String)
    (clients : Clients) (site : Site) (migration : Migration) : Prop :=
  Decided topo plan history clients site migration → ¬Running topo site migration.vdName

theorem decided_iff (h : Planned topo plan history clients site migration) :
    Decided topo plan history clients site migration ↔ ¬Recognised topo clients site := by
  have hrecognised : ∀ {migrations planned}, (planMigrations topo plan history clients).run site =
      (.ok migrations, planned) → (Recognised topo clients planned ↔ Recognised topo clients site) := by
    intro migrations planned hplan
    obtain ⟨hcontainers, hfile, -⟩ := (keeps_planMigrations _ _ _).run ⟨rfl, rfl, rfl⟩ hplan
    rw [Recognised, Recognised, hcontainers, hfile]
  obtain ⟨migrations, planned, hplan, hmem⟩ := h
  refine ⟨fun ⟨migrations', planned', hplan', _, hcheck⟩ => ?_, fun hnot => ?_⟩
  · rwa [assertLabOffline_ok_iff, hrecognised hplan'] at hcheck
  · refine ⟨migrations, planned, hplan, hmem, ?_⟩
    rwa [assertLabOffline_ok_iff, hrecognised hplan]

/-- A migration that is planned is only decided when the device is offline, if and only if the check
    knows a sign of the running lab, or the device does not run. -/
theorem offline_iff (h : Planned topo plan history clients site migration) :
    MovedOffline topo plan history clients site migration ↔
      Recognised topo clients site ∨ ¬Running topo site migration.vdName := by
  rw [MovedOffline, decided_iff h, imp_iff_not_or, not_not]

/-- Something runs on the worker, but not the device. -/
def otherRuns : Site :=
  { onWorker with
    containers := fun host => if host = "w1" then [Naming.microVdContainerName "lab" "r2"] else [] }

/-- The device runs, beside a container with the name it had before. -/
def bothRun : Site :=
  { onWorker with
    containers := fun host => if host = "w1" then
      [Naming.vdContainerName "lab" "r1", Naming.microVdContainerName "lab" "r1"] else [] }

/-- The device of the first site does not run, and the check knows the second lab to be running. -/
theorem offline_iff_onWorker :
    MovedOffline lab onMaster ∅ lab.allHosts otherRuns ⟨"r1", r1, "w1", "master"⟩ ∧
      MovedOffline lab onMaster ∅ lab.allHosts bothRun ⟨"r1", r1, "w1", "master"⟩ := by
  have hother : Planned lab onMaster ∅ lab.allHosts otherRuns ⟨"r1", r1, "w1", "master"⟩ :=
    ⟨[⟨"r1", r1, "w1", "master"⟩], otherRuns, rfl, List.mem_singleton_self _⟩
  have hboth : Planned lab onMaster ∅ lab.allHosts bothRun ⟨"r1", r1, "w1", "master"⟩ :=
    ⟨[⟨"r1", r1, "w1", "master"⟩], bothRun, rfl, List.mem_singleton_self _⟩
  refine ⟨(offline_iff hother).2 (.inr ?_), (offline_iff hboth).2 (.inl (.inr ?_))⟩
  · rintro ⟨host, hmem⟩
    rw [otherRuns] at hmem
    dsimp only at hmem
    split at hmem
    · exact absurd (List.mem_singleton.1 hmem) (by decide)
    · exact List.not_mem_nil hmem
  · exact ⟨"w1", by decide, ("r1", r1), List.mem_singleton_self _, List.mem_cons_self⟩

/-- The device runs, and there is no state file. -/
def stillRunning : Site :=
  { onWorker with
    containers := fun host => if host = "w1" then [Naming.microVdContainerName "lab" "r1"] else [] }

/-- The overlay is moved all the same. -/
theorem not_movedOffline :
    Decided lab onMaster ∅ lab.allHosts stillRunning ⟨"r1", r1, "w1", "master"⟩ ∧
      Running lab stillRunning "r1" :=
  ⟨⟨[⟨"r1", r1, "w1", "master"⟩], stillRunning, rfl, List.mem_singleton_self _, rfl⟩, "w1",
    List.mem_singleton_self _⟩

end Dnlab.Persistence
