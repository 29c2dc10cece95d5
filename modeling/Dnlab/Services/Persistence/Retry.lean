import Dnlab.Services.Persistence.Overlays

/-!
# Preparing twice

A preparation that is repeated moves nothing if and only if each device is at rest:
nothing is left at its legacy path, the history agrees with the plan, and its data is
nowhere but on its host (`run_eq_self_iff`). After a preparation that succeeded, the
data is where the adoptions put it and on the hosts of the plan, so that this depends
on the history and on paths that several devices share (`retry_safe_iff`). When an
overlay was migrated because the history has another host for it, the history still
has it after a deploy that failed.
-/

namespace Dnlab.Persistence

variable {topo : DistributedTopology} {plan : SchedulePlan} {history : Dict String String}
  {clients : Clients} {site site' : Site} {host path vdName newHost : String} {node : VDNode}
  {migrations : List Migration}

/-! ## The plan of a device -/

/-- The history has no other host for a device. -/
def Agrees (history : Dict String String) (vdName : String) (node : VDNode) (newHost : String) :
    Prop :=
  ∀ oldHost, oldHostOf history vdName node = some oldHost → oldHost = newHost

theorem mem_findExistingOverlayHosts {found : String} :
    found ∈ findExistingOverlayHosts clients path site ↔ found ∈ clients.keys ∧ Holds site found path :=
  List.mem_filter

theorem filter_ne_eq_none (h : Agrees history vdName node newHost) :
    (oldHostOf history vdName node).filter (· ≠ newHost) = none := by
  rcases hold : oldHostOf history vdName node with _ | oldHost
  · rfl
  · rw [h oldHost hold, Option.filter_some, if_neg (by simp)]

theorem agrees_of_filter_eq_none
    (h : (oldHostOf history vdName node).filter (· ≠ newHost) = none) :
    Agrees history vdName node newHost := by
  intro oldHost hold
  by_contra hne
  rw [hold, Option.filter_some, if_pos (by simpa using hne)] at h
  exact Option.some_ne_none _ h

/-- A device that is not scheduled is left alone. -/
theorem planMigration_unscheduled (hnew : newHostOf plan vdName = none) :
    planMigration topo plan history clients (vdName, node) = pure [] := by
  rw [planMigration]
  dsimp only
  rw [hnew]

/-- A preparation of a device that succeeds. Either the history has another host, or the data is on
    one host at most. -/
theorem planMigration_ok (hnew : newHostOf plan vdName = some newHost)
    (h : (planMigration topo plan history clients (vdName, node)).run site = (.ok migrations, site')) :
    (adoptLegacyOverlayPaths topo clients vdName node).run site = (.ok (), site') ∧
      (¬Agrees history vdName node newHost ∧
          (∃ oldHost ∈ clients.keys, oldHost ≠ newHost ∧
            migrations = [⟨vdName, node, oldHost, newHost⟩]) ∨
        Agrees history vdName node newHost ∧
          ((∀ host ∈ clients.keys, ¬Holds site' host (overlayPath topo vdName node)) ∧
              migrations = [] ∨
            ∃ found ∈ clients.keys,
              (∀ host ∈ clients.keys, Holds site' host (overlayPath topo vdName node) →
                host = found) ∧
              migrations = if found = newHost then [] else [⟨vdName, node, found, newHost⟩])) := by
  rw [planMigration] at h
  dsimp only at h
  rw [hnew] at h
  dsimp only at h
  obtain ⟨⟨⟩, between, hadopt, hrest⟩ := Prog.run_bind_eq_ok h
  rw [Prog.run_bind, Prog.run_get] at hrest
  dsimp only at hrest
  split at hrest
  · -- The history has another host, which is a client and has the data.
    rename_i oldHost hfilter
    obtain ⟨hold, hne⟩ := Option.filter_eq_some_iff.1 hfilter
    have hne : oldHost ≠ newHost := by simpa using hne
    split_ifs at hrest with hclient hcontent
    · simp at hrest
    · obtain ⟨rfl, rfl⟩ : [⟨vdName, node, oldHost, newHost⟩] = migrations ∧ between = site' := by
        simpa using hrest
      refine ⟨hadopt, .inl ⟨fun hagrees => hne (hagrees oldHost hold), oldHost, ?_, hne, rfl⟩⟩
      by_contra hmem
      exact hclient (Dict.get?_eq_none_iff.2 hmem)
    · simp at hrest
  · -- Otherwise the hosts are searched.
    rename_i hfilter
    have hagrees := agrees_of_filter_eq_none hfilter
    have hmem := @mem_findExistingOverlayHosts clients between (overlayPath topo vdName node)
    split at hrest
    · rename_i hfound
      obtain ⟨rfl, rfl⟩ : [] = migrations ∧ between = site' := by simpa using hrest
      refine ⟨hadopt, .inr ⟨hagrees, .inl ⟨fun host hhost hholds => ?_, rfl⟩⟩⟩
      exact absurd (hfound ▸ hmem.2 ⟨hhost, hholds⟩) List.not_mem_nil
    · rename_i found hfound
      have hfirst := hmem.1 (hfound ▸ List.mem_singleton_self found)
      obtain ⟨hmigrations, rfl⟩ := Prod.mk.inj hrest
      refine ⟨hadopt, .inr ⟨hagrees, .inr ⟨found, hfirst.1, fun host hhost hholds => ?_, ?_⟩⟩⟩
      · exact List.mem_singleton.1 (hfound ▸ hmem.2 ⟨hhost, hholds⟩)
      · exact (Except.ok.inj hmigrations).symm
    · simp at hrest

/-! ## Devices at rest -/

/-- There is nothing to do for a device. -/
structure Quiet (topo : DistributedTopology) (history : Dict String String) (clients : Clients)
    (site : Site) (vdName : String) (node : VDNode) (newHost : String) : Prop where
  legacy : adopts topo vdName node = true →
    ∀ host ∈ clients.keys, ¬Holds site host (legacyPath topo vdName)
  agrees : Agrees history vdName node newHost
  home : ∀ host ∈ clients.keys, Holds site host (overlayPath topo vdName node) → host = newHost

theorem forEach_self {α : Type} {l : List α} {f : α → Task Unit}
    (h : ∀ a ∈ l, (f a).run site = (.ok (), site)) :
    (Prog.forEach l f).run site = (.ok (), site) := by
  induction l with
  | nil => rfl
  | cons a l ih =>
    refine (Prog.run_bind_ok (h a List.mem_cons_self)).trans ?_
    exact ih fun a' ha' => h a' (List.mem_cons_of_mem _ ha')

theorem adoptLegacyOverlayPaths_self (h : adopts topo vdName node = true →
    ∀ host ∈ clients.keys, ¬Holds site host (legacyPath topo vdName)) :
    (adoptLegacyOverlayPaths topo clients vdName node).run site = (.ok (), site) := by
  rw [adoptLegacyOverlayPaths, Prog.when]
  split_ifs with hadopts
  · refine forEach_self fun host hhost => ?_
    rw [adoptOn, Prog.run_bind, Prog.run_get]
    dsimp only
    have hlegacy : ¬hasContent (site.overlays host (legacyPath topo vdName)) = true :=
      h hadopts host hhost
    rw [if_neg hlegacy]
    rfl
  · rfl

/-- The hosts where the data of a device is found are at most its own. -/
theorem findExistingOverlayHosts_eq
    (hhome : ∀ host ∈ clients.keys, Holds site host path → host = newHost) :
    findExistingOverlayHosts clients path site = [] ∨
      findExistingOverlayHosts clients path site = [newHost] := by
  have hnodup : (findExistingOverlayHosts clients path site).Nodup :=
    clients.nodup_keys'.sublist List.filter_sublist
  have hall : ∀ host ∈ findExistingOverlayHosts clients path site, host = newHost := fun host h =>
    hhome host (mem_findExistingOverlayHosts.1 h).1 (mem_findExistingOverlayHosts.1 h).2
  rcases hfound : findExistingOverlayHosts clients path site with _ | ⟨found, _ | ⟨found', rest⟩⟩
  · exact .inl rfl
  · rw [hfound] at hall
    exact .inr (by rw [hall found List.mem_cons_self])
  · rw [hfound] at hall hnodup
    refine absurd ?_ (List.nodup_cons.1 hnodup).1
    rw [hall found List.mem_cons_self, ← hall found' (by simp)]
    exact List.mem_cons_self

theorem Quiet.planMigration (h : Quiet topo history clients site vdName node newHost)
    (hnew : newHostOf plan vdName = some newHost) :
    (planMigration topo plan history clients (vdName, node)).run site = (.ok [], site) := by
  rw [Persistence.planMigration]
  dsimp only
  rw [hnew]
  dsimp only
  rw [Prog.run_bind_ok (adoptLegacyOverlayPaths_self h.legacy), Prog.run_bind, Prog.run_get]
  dsimp only
  rw [filter_ne_eq_none h.agrees]
  dsimp only
  rcases findExistingOverlayHosts_eq h.home with hfound | hfound
  · rw [hfound]
    rfl
  · rw [hfound]
    dsimp only
    rw [if_pos rfl]
    rfl

theorem quiet_of_run (hnew : newHostOf plan vdName = some newHost)
    (h : (planMigration topo plan history clients (vdName, node)).run site = (.ok [], site)) :
    Quiet topo history clients site vdName node newHost := by
  obtain ⟨hadopt, hplan⟩ := planMigration_ok hnew h
  have hlegacy := ((adoptLegacyOverlayPaths_ok hadopt).1.resolve_right (not_moved_self site)).1
  rcases hplan with ⟨-, oldHost, -, -, hnil⟩ | ⟨hagrees, ⟨hnone, -⟩ | ⟨found, -, hall, hnil⟩⟩
  · exact absurd hnil.symm (List.cons_ne_nil _ _)
  · exact ⟨hlegacy, hagrees, fun host hhost hholds => absurd hholds (hnone host hhost)⟩
  · split_ifs at hnil with hfound
    exact ⟨hlegacy, hagrees, fun host hhost hholds => (hall host hhost hholds).trans hfound⟩

/-! ## The first loop -/

theorem planMigration_moved {vd : String × VDNode}
    (h : (planMigration topo plan history clients vd).run site = (.ok migrations, site')) :
    site' = site ∨ Moved site site' := by
  obtain ⟨vdName, node⟩ := vd
  rcases hnew : newHostOf plan vdName with _ | newHost
  · rw [planMigration_unscheduled hnew] at h
    exact .inl (congrArg Prod.snd h).symm
  · exact (adoptLegacyOverlayPaths_ok (planMigration_ok hnew h).1).1.imp_left And.right

theorem mapEach_cons_ok {α β : Type} {a : α} {l : List α} {f : α → Task β} {bs : List β}
    (h : (Prog.mapEach (a :: l) f).run site = (.ok bs, site')) :
    ∃ b bs' between, bs = b :: bs' ∧ (f a).run site = (.ok b, between) ∧
      (Prog.mapEach l f).run between = (.ok bs', site') := by
  obtain ⟨b, between, hfirst, hrest⟩ := Prog.run_bind_eq_ok h
  obtain ⟨bs', between', hrest', hpure⟩ := Prog.run_bind_eq_ok hrest
  obtain ⟨hbs, rfl⟩ := Prod.mk.inj hpure
  exact ⟨b, bs', between, (Except.ok.inj hbs).symm, hfirst, hrest'⟩

theorem mapEach_moved {vds : List (String × VDNode)} {found : List (List Migration)}
    (h : (Prog.mapEach vds (planMigration topo plan history clients)).run site = (.ok found, site')) :
    site' = site ∨ Moved site site' := by
  induction vds generalizing site found with
  | nil => exact .inl (congrArg Prod.snd h).symm
  | cons vd vds ih =>
    obtain ⟨migrations, found', between, -, hfirst, hrest⟩ := mapEach_cons_ok h
    rcases planMigration_moved hfirst with rfl | hmoved
    · exact ih hrest
    · exact .inr (hmoved.trans_or (ih hrest))

/-- If the first loop finds nothing to do, then neither does it for a device. -/
theorem mapEach_self {vds : List (String × VDNode)} {found : List (List Migration)}
    (h : (Prog.mapEach vds (planMigration topo plan history clients)).run site = (.ok found, site))
    (hnil : found.flatten = []) :
    ∀ vd ∈ vds, (planMigration topo plan history clients vd).run site = (.ok [], site) := by
  induction vds generalizing found with
  | nil => exact fun vd hvd => absurd hvd List.not_mem_nil
  | cons vd vds ih =>
    obtain ⟨migrations, found', between, rfl, hfirst, hrest⟩ := mapEach_cons_ok h
    rw [List.flatten_cons, List.append_eq_nil_iff] at hnil
    obtain ⟨rfl, hnil⟩ := hnil
    obtain rfl : between = site := by
      refine (planMigration_moved hfirst).resolve_right fun hmoved => ?_
      exact not_moved_self site (hmoved.trans_or (mapEach_moved hrest))
    exact List.forall_mem_cons.2 ⟨hfirst, ih hrest hnil⟩

theorem mapEach_planMigration_self {vds : List (String × VDNode)}
    (h : ∀ vd ∈ vds, (planMigration topo plan history clients vd).run site = (.ok [], site)) :
    (Prog.mapEach vds (planMigration topo plan history clients)).run site =
      (.ok (vds.map fun _ => []), site) := by
  induction vds with
  | nil => rfl
  | cons vd vds ih =>
    refine (Prog.run_bind_ok (h vd List.mem_cons_self)).trans ?_
    refine (Prog.run_bind_ok (ih fun vd' hvd' => h vd' (List.mem_cons_of_mem _ hvd'))).trans ?_
    rfl

/-! ## The whole preparation -/

theorem assertLabOffline_snd (site : Site) : ((assertLabOffline topo clients).run site).2 = site := by
  refine ((?_ : Prog.Within Eq (assertLabOffline topo clients)) site).symm
  refine Prog.Within.bind .get fun site => ?_
  split
  · exact .raise _
  · refine Prog.Within.forEach fun host _ => ?_
    split
    · exact .raise _
    · exact .pure _

/-- A preparation that succeeds plans its migrations, and runs them while the lab is offline. -/
theorem prepareLocalSticky_ok
    (h : (prepareLocalSticky topo plan history clients).run site = (.ok (), site')) :
    ∃ migrations planned,
      (planMigrations topo plan history clients).run site = (.ok migrations, planned) ∧
        (Prog.forEach migrations (runMigration topo clients)).run planned = (.ok (), site') := by
  rw [prepareLocalSticky, Prog.when] at h
  split_ifs at h with hsome
  · obtain ⟨migrations, planned, hplan, hrest⟩ := Prog.run_bind_eq_ok h
    refine ⟨migrations, planned, hplan, ?_⟩
    rw [Prog.when] at hrest
    split_ifs at hrest with hmigrations
    · obtain ⟨⟨⟩, offline, hoffline, hrest⟩ := Prog.run_bind_eq_ok hrest
      have heq : offline = planned :=
        (congrArg Prod.snd hoffline).symm.trans (assertLabOffline_snd planned)
      exact heq ▸ hrest
    · rw [not_not] at hmigrations
      rw [hmigrations]
      exact hrest
  · rw [not_not] at hsome
    refine ⟨[], site, ?_, h⟩
    rw [planMigrations, hsome]
    rfl

theorem planMigrations_ok
    (h : (planMigrations topo plan history clients).run site = (.ok migrations, site')) :
    ∃ found, (Prog.mapEach (persistentVds topo) (planMigration topo plan history clients)).run site =
      (.ok found, site') ∧ found.flatten = migrations := by
  obtain ⟨found, after, hfound, hpure⟩ := Prog.run_bind_eq_ok h
  obtain ⟨hmigrations, rfl⟩ := Prod.mk.inj hpure
  exact ⟨found, hfound, Except.ok.inj hmigrations⟩

theorem forEach_runMigration_moved
    (h : (Prog.forEach migrations (runMigration topo clients)).run site = (.ok (), site')) :
    migrations = [] ∧ site' = site ∨ Moved site site' := by
  induction migrations generalizing site with
  | nil => exact .inl ⟨rfl, (congrArg Prod.snd h).symm⟩
  | cons migration migrations ih =>
    obtain ⟨between, hfirst, hrest⟩ := forEach_cons_ok h
    obtain ⟨-, _, -, -, hmoved⟩ := runMigration_ok hfirst
    exact .inr (hmoved.trans_or ((ih hrest).imp_left And.right))

/-- The devices that are scheduled. -/
def Scheduled (topo : DistributedTopology) (plan : SchedulePlan) (vdName : String) (node : VDNode)
    (newHost : String) : Prop :=
  (vdName, node) ∈ persistentVds topo ∧ newHostOf plan vdName = some newHost

/-- A preparation succeeds and moves nothing if and only if each device is at rest. -/
theorem run_eq_self_iff :
    (prepareLocalSticky topo plan history clients).run site = (.ok (), site) ↔
      ∀ vdName node newHost, Scheduled topo plan vdName node newHost →
        Quiet topo history clients site vdName node newHost := by
  refine ⟨fun h vdName node newHost hvd => ?_, fun h => ?_⟩
  · obtain ⟨migrations, planned, hplan, hrun⟩ := prepareLocalSticky_ok h
    obtain ⟨found, hfound, rfl⟩ := planMigrations_ok hplan
    -- Neither of the loops has moved anything.
    have hplanned : planned = site := by
      refine (mapEach_moved hfound).resolve_right fun hmoved => not_moved_self site ?_
      exact hmoved.trans_or ((forEach_runMigration_moved hrun).imp_left And.right)
    subst hplanned
    have hnil := ((forEach_runMigration_moved hrun).resolve_right (not_moved_self _)).1
    exact quiet_of_run hvd.2 (mapEach_self hfound hnil (vdName, node) hvd.1)
  · have hself : ∀ vd ∈ persistentVds topo,
        (planMigration topo plan history clients vd).run site = (.ok [], site) := by
      rintro ⟨vdName, node⟩ hvd
      rcases hnew : newHostOf plan vdName with _ | newHost
      · rw [planMigration_unscheduled hnew]
        rfl
      · exact (h vdName node newHost ⟨hvd, hnew⟩).planMigration hnew
    have hplan : (planMigrations topo plan history clients).run site = (.ok [], site) := by
      refine (Prog.run_bind_ok (mapEach_planMigration_self hself)).trans ?_
      rw [List.flatten_eq_nil_iff.2 (by simp)]
      rfl
    rw [prepareLocalSticky, Prog.when]
    split_ifs
    · exact Prog.run_bind_ok hplan
    · rfl

/-! ## What the first loop leaves -/

/-- Where the first loop puts the data of a path, on every host of the inventory. -/
def settledPath (topo : DistributedTopology) (plan : SchedulePlan) (vds : List (String × VDNode))
    (path : String) : String :=
  vds.foldl (fun path (vdName, node) =>
    if newHostOf plan vdName = none then path else adopted topo vdName node path) path

theorem planMigration_redirects {vd : String × VDNode}
    (h : (planMigration topo plan history clients vd).run site = (.ok migrations, site')) :
    Redirects clients.keys (settledPath topo plan [vd]) site site' := by
  obtain ⟨vdName, node⟩ := vd
  rcases hnew : newHostOf plan vdName with _ | newHost
  · have heq : settledPath topo plan [(vdName, node)] = id := funext fun path => if_pos hnew
    rw [planMigration_unscheduled hnew] at h
    obtain rfl : site = site' := congrArg Prod.snd h
    rw [heq]
    exact .refl _ _
  · have heq : settledPath topo plan [(vdName, node)] = adopted topo vdName node :=
      funext fun path => if_neg (by simp [hnew])
    rw [heq]
    exact (adoptLegacyOverlayPaths_ok (planMigration_ok hnew h).1).2

theorem mapEach_redirects {vds : List (String × VDNode)} {found : List (List Migration)}
    (h : (Prog.mapEach vds (planMigration topo plan history clients)).run site = (.ok found, site')) :
    Redirects clients.keys (settledPath topo plan vds) site site' := by
  induction vds generalizing site found with
  | nil =>
    obtain rfl : site = site' := congrArg Prod.snd h
    exact .refl _ _
  | cons vd vds ih =>
    obtain ⟨migrations, found', between, -, hfirst, hrest⟩ := mapEach_cons_ok h
    exact (planMigration_redirects hfirst).trans (ih hrest)

/-- A migration of a device, between two hosts, the old one of the inventory. -/
structure Migration.Sound (plan : SchedulePlan) (clients : Clients) (vds : List (String × VDNode))
    (migration : Migration) : Prop where
  mem : (migration.vdName, migration.node) ∈ vds
  newHost : newHostOf plan migration.vdName = some migration.newHost
  oldHost : migration.oldHost ∈ clients.keys
  ne : migration.oldHost ≠ migration.newHost

theorem planMigration_sound {vd : String × VDNode}
    (h : (planMigration topo plan history clients vd).run site = (.ok migrations, site')) :
    ∀ migration ∈ migrations, migration.Sound plan clients [vd] := by
  obtain ⟨vdName, node⟩ := vd
  rcases hnew : newHostOf plan vdName with _ | newHost
  · rw [planMigration_unscheduled hnew] at h
    obtain rfl : [] = migrations := Except.ok.inj (congrArg Prod.fst h)
    exact fun migration hmem => absurd hmem List.not_mem_nil
  · rcases (planMigration_ok hnew h).2 with
      ⟨-, oldHost, hold, hne, rfl⟩ | ⟨-, ⟨-, rfl⟩ | ⟨found, hfound, -, rfl⟩⟩
    · intro migration hmem
      obtain rfl := List.mem_singleton.1 hmem
      exact ⟨List.mem_singleton_self _, hnew, hold, hne⟩
    · exact fun migration hmem => absurd hmem List.not_mem_nil
    · intro migration hmem
      split_ifs at hmem with heq
      · exact absurd hmem List.not_mem_nil
      · obtain rfl := List.mem_singleton.1 hmem
        exact ⟨List.mem_singleton_self _, hnew, hfound, heq⟩

theorem mapEach_sound {vds : List (String × VDNode)} {found : List (List Migration)}
    (h : (Prog.mapEach vds (planMigration topo plan history clients)).run site = (.ok found, site')) :
    ∀ migration ∈ found.flatten, migration.Sound plan clients vds := by
  induction vds generalizing site found with
  | nil =>
    obtain rfl : [] = found := Except.ok.inj (congrArg Prod.fst h)
    exact fun migration hmem => absurd hmem List.not_mem_nil
  | cons vd vds ih =>
    obtain ⟨migrations, found', between, rfl, hfirst, hrest⟩ := mapEach_cons_ok h
    intro migration hmem
    rw [List.flatten_cons, List.mem_append] at hmem
    rcases hmem with hmem | hmem
    · have hsound := planMigration_sound hfirst migration hmem
      exact { hsound with mem := by simp [List.mem_singleton.1 hsound.mem] }
    · have hsound := ih hrest migration hmem
      exact { hsound with mem := List.mem_cons_of_mem _ hsound.mem }

/-- The data of a device is on the host of some device with the same directory, or is going to be
    migrated there. -/
def Homed (topo : DistributedTopology) (plan : SchedulePlan) (clients : Clients)
    (vds : List (String × VDNode)) (site : Site) (migrations : List Migration) : Prop :=
  ∀ vd ∈ vds, newHostOf plan vd.1 ≠ none → ∀ host ∈ clients.keys,
    Holds site host (overlayPath topo vd.1 vd.2) →
      ∃ vd' ∈ vds, ∃ newHost, newHostOf plan vd'.1 = some newHost ∧
        overlayPath topo vd'.1 vd'.2 = overlayPath topo vd.1 vd.2 ∧
          (host = newHost ∨ ⟨vd'.1, vd'.2, host, newHost⟩ ∈ migrations)

theorem adopted_eq_of_ne {old : String} (h : adopted topo vdName node old = path)
    (hne : path ≠ overlayPath topo vdName node) : old = path := by
  rw [adopted, redirect] at h
  split_ifs at h
  · exact absurd h.symm hne
  · exact h
  · exact h

theorem Homed.snoc {vds : List (String × VDNode)} {vd : String × VDNode}
    {migrations' : List Migration} (h : Homed topo plan clients vds site migrations)
    (hagrees : ∀ newHost, newHostOf plan vd.1 = some newHost → Agrees history vd.1 vd.2 newHost)
    (hrun : (planMigration topo plan history clients vd).run site = (.ok migrations', site')) :
    Homed topo plan clients (vds ++ [vd]) site' (migrations ++ migrations') := by
  obtain ⟨vdName, node⟩ := vd
  -- What was known before of a device is still known.
  have hbefore : ∀ vd ∈ vds, newHostOf plan vd.1 ≠ none → ∀ host ∈ clients.keys,
      Holds site host (overlayPath topo vd.1 vd.2) →
        ∃ vd' ∈ vds ++ [(vdName, node)], ∃ newHost, newHostOf plan vd'.1 = some newHost ∧
          overlayPath topo vd'.1 vd'.2 = overlayPath topo vd.1 vd.2 ∧
            (host = newHost ∨ ⟨vd'.1, vd'.2, host, newHost⟩ ∈ migrations ++ migrations') := by
    intro vd hvd hsome host hhost hholds
    obtain ⟨vd', hvd', newHost, hnew, hpath, hhome⟩ := h vd hvd hsome host hhost hholds
    exact ⟨vd', List.mem_append_left _ hvd', newHost, hnew, hpath,
      hhome.imp_right (List.mem_append_left _)⟩
  rcases hnew : newHostOf plan vdName with _ | newHost
  · intro vd hvd hsome host hhost hholds
    rw [planMigration_unscheduled hnew] at hrun
    obtain rfl : site = site' := congrArg Prod.snd hrun
    rcases List.mem_append.1 hvd with hvd | hvd
    · exact hbefore vd hvd hsome host hhost hholds
    · obtain rfl := List.mem_singleton.1 hvd
      exact absurd hnew hsome
  · intro vd hvd hsome host hhost hholds
    obtain ⟨hadopt, hplan⟩ := planMigration_ok hnew hrun
    by_cases hpath : overlayPath topo vd.1 vd.2 = overlayPath topo vdName node
    · -- The device itself has found the data.
      rcases hplan with ⟨hdisagrees, -⟩ | ⟨-, ⟨hnone, -⟩ | ⟨found, -, hall, rfl⟩⟩
      · exact absurd (hagrees newHost hnew) hdisagrees
      · exact absurd (hpath ▸ hholds) (hnone host hhost)
      · obtain rfl := hall host hhost (hpath ▸ hholds)
        refine ⟨(vdName, node), by simp, newHost, hnew, hpath.symm, ?_⟩
        by_cases heq : host = newHost
        · exact .inl heq
        · exact .inr (by simp [heq])
    · have hmem : vd ∈ vds := by
        rcases List.mem_append.1 hvd with hvd | hvd
        · exact hvd
        · obtain rfl := List.mem_singleton.1 hvd
          exact absurd rfl hpath
      obtain ⟨old, hold, hholds⟩ :=
        ((adoptLegacyOverlayPaths_ok hadopt).2.of_mem host hhost _).1 hholds
      obtain rfl := adopted_eq_of_ne hold hpath
      exact hbefore vd hmem hsome host hhost hholds

theorem mapEach_homed {vds vds' : List (String × VDNode)} {found : List (List Migration)}
    (h : Homed topo plan clients vds site migrations)
    (hagrees : ∀ vd ∈ vds', ∀ newHost, newHostOf plan vd.1 = some newHost →
      Agrees history vd.1 vd.2 newHost)
    (hrun : (Prog.mapEach vds' (planMigration topo plan history clients)).run site =
      (.ok found, site')) :
    Homed topo plan clients (vds ++ vds') site' (migrations ++ found.flatten) := by
  induction vds' generalizing site found vds migrations with
  | nil =>
    obtain ⟨hfound, rfl⟩ := Prod.mk.inj hrun
    obtain rfl := Except.ok.inj hfound
    rw [List.append_nil, List.flatten_nil, List.append_nil]
    exact h
  | cons vd vds' ih =>
    obtain ⟨migrations', found', between, rfl, hfirst, hrest⟩ := mapEach_cons_ok hrun
    have hsnoc := h.snoc (hagrees vd List.mem_cons_self) hfirst
    have hall := ih hsnoc (fun vd' hvd' => hagrees vd' (List.mem_cons_of_mem _ hvd')) hrest
    rwa [List.append_assoc, List.append_assoc, List.singleton_append] at hall

/-! ## What the second loop leaves -/

/-- On the hosts of the inventory, a path that has data keeps it, on one of them. -/
theorem forEach_runMigration_somewhere
    (hsound : ∀ migration ∈ migrations,
      migration.oldHost ∈ clients.keys ∧ migration.oldHost ≠ migration.newHost)
    (h : (Prog.forEach migrations (runMigration topo clients)).run site = (.ok (), site')) :
    (∃ host ∈ clients.keys, Holds site' host path) ↔ ∃ host ∈ clients.keys, Holds site host path := by
  induction migrations generalizing site with
  | nil =>
    obtain rfl : site = site' := congrArg Prod.snd h
    exact Iff.rfl
  | cons migration migrations ih =>
    obtain ⟨between, hfirst, hrest⟩ := forEach_cons_ok h
    obtain ⟨hold, hne⟩ := hsound migration List.mem_cons_self
    rw [ih (fun m hm => hsound m (List.mem_cons_of_mem _ hm)) hrest]
    refine ⟨fun ⟨host, hhost, hholds⟩ => ?_, fun ⟨host, hhost, hholds⟩ => ?_⟩
    · rcases (runMigration_holds hne hfirst host path).1 hholds with ⟨-, -, hholds⟩ | ⟨-, hholds⟩
      · exact ⟨_, hold, hholds⟩
      · exact ⟨host, hhost, hholds⟩
    · -- The overlay is moved, or stays where it is.
      by_cases hmoved : path = migration.path topo ∧ host = migration.oldHost
      · refine ⟨_, (runMigration_ok hfirst).1, (runMigration_holds hne hfirst _ path).2 (.inl ?_)⟩
        exact ⟨hmoved.1, rfl, hmoved.2 ▸ hholds⟩
      · refine ⟨host, hhost, (runMigration_holds hne hfirst _ path).2 (.inr ⟨?_, hholds⟩)⟩
        exact fun hpath hhost' => hmoved ⟨hpath, hhost'⟩

/-- If a path is only migrated to one host, then its data is there in the end. -/
theorem forEach_runMigration_home
    (hne : ∀ migration ∈ migrations, migration.oldHost ≠ migration.newHost)
    (hdest : ∀ migration ∈ migrations, migration.path topo = path → migration.newHost = newHost)
    (h : (Prog.forEach migrations (runMigration topo clients)).run site = (.ok (), site'))
    (hstart : ∀ host ∈ clients.keys, Holds site host path →
      host = newHost ∨ ∃ migration ∈ migrations,
        migration.path topo = path ∧ migration.oldHost = host) :
    ∀ host ∈ clients.keys, Holds site' host path → host = newHost := by
  induction migrations generalizing site with
  | nil =>
    obtain rfl : site = site' := congrArg Prod.snd h
    intro host hhost hholds
    refine (hstart host hhost hholds).resolve_right fun ⟨_, hmem, _⟩ => ?_
    exact absurd hmem List.not_mem_nil
  | cons migration migrations ih =>
    obtain ⟨between, hfirst, hrest⟩ := forEach_cons_ok h
    refine ih (fun m hm => hne m (List.mem_cons_of_mem _ hm))
      (fun m hm => hdest m (List.mem_cons_of_mem _ hm)) hrest fun host hhost hholds => ?_
    have hone := runMigration_holds (hne migration List.mem_cons_self) hfirst host path
    rcases hone.1 hholds with ⟨hpath, rfl, -⟩ | ⟨hstays, hholds⟩
    · exact .inl (hdest migration List.mem_cons_self hpath.symm)
    · refine (hstart host hhost hholds).imp_right fun ⟨m, hm, hpath, hold⟩ => ?_
      -- The host has just lost its data if the migration is the first one.
      rcases List.mem_cons.1 hm with rfl | hm
      · exact absurd hold.symm (hstays hpath.symm)
      · exact ⟨m, hm, hpath, hold⟩

/-! ## Twice -/

/-- The history has no other host for a device, and no data is put, by the adoptions, at a legacy
    path or at a path that devices of different hosts share. -/
structure Settled (topo : DistributedTopology) (plan : SchedulePlan) (history : Dict String String)
    (clients : Clients) (site : Site) : Prop where
  agrees : ∀ vdName node newHost, Scheduled topo plan vdName node newHost →
    Agrees history vdName node newHost
  legacy : ∀ host ∈ clients.keys, ∀ path, Holds site host path →
    ∀ vdName node newHost, Scheduled topo plan vdName node newHost → adopts topo vdName node = true →
      settledPath topo plan (persistentVds topo) path ≠ legacyPath topo vdName
  shared : ∀ host ∈ clients.keys, ∀ path, Holds site host path →
    ∀ vdName node newHost vdName' node' newHost', Scheduled topo plan vdName node newHost →
      Scheduled topo plan vdName' node' newHost' →
        overlayPath topo vdName node = settledPath topo plan (persistentVds topo) path →
          overlayPath topo vdName' node' = settledPath topo plan (persistentVds topo) path →
            newHost = newHost'

/-- What a first preparation that succeeds has done with the data of a path. -/
theorem prepareLocalSticky_somewhere
    (h : (prepareLocalSticky topo plan history clients).run site = (.ok (), site')) (path : String) :
    (∃ host ∈ clients.keys, Holds site' host path) ↔
      ∃ host ∈ clients.keys, ∃ old, settledPath topo plan (persistentVds topo) old = path ∧
        Holds site host old := by
  obtain ⟨migrations, planned, hplan, hrun⟩ := prepareLocalSticky_ok h
  obtain ⟨found, hfound, rfl⟩ := planMigrations_ok hplan
  have hsound := mapEach_sound hfound
  rw [forEach_runMigration_somewhere (fun m hm => ⟨(hsound m hm).oldHost, (hsound m hm).ne⟩) hrun]
  have hredirects := (mapEach_redirects hfound).of_mem
  exact exists_congr fun host => and_congr_right fun hhost => hredirects host hhost path

/-- If the history agrees with the plan, and only devices of one host share a path, then its data is
    on that host after a first preparation. -/
theorem prepareLocalSticky_home
    (h : (prepareLocalSticky topo plan history clients).run site = (.ok (), site'))
    (hagrees : ∀ vdName node newHost, Scheduled topo plan vdName node newHost →
      Agrees history vdName node newHost)
    (hvd : Scheduled topo plan vdName node newHost)
    (hshared : ∀ vdName' node' newHost', Scheduled topo plan vdName' node' newHost' →
      overlayPath topo vdName' node' = overlayPath topo vdName node → newHost' = newHost) :
    ∀ host ∈ clients.keys, Holds site' host (overlayPath topo vdName node) → host = newHost := by
  obtain ⟨migrations, planned, hplan, hrun⟩ := prepareLocalSticky_ok h
  obtain ⟨found, hfound, rfl⟩ := planMigrations_ok hplan
  have hsound := mapEach_sound hfound
  refine forEach_runMigration_home (fun m hm => (hsound m hm).ne) (fun m hm hpath => ?_) hrun
    fun host hhost hholds => ?_
  · exact hshared _ _ _ ⟨(hsound m hm).mem, (hsound m hm).newHost⟩ hpath
  · have hnone : Homed topo plan clients [] site [] := fun vd hmem => absurd hmem List.not_mem_nil
    have hhomed := mapEach_homed hnone (fun vd hmem n hnew => hagrees vd.1 vd.2 n ⟨hmem, hnew⟩) hfound
    obtain ⟨vd', hvd', newHost', hnew', hpath, hhome⟩ :=
      hhomed (vdName, node) hvd.1 (by simp [hvd.2]) host hhost hholds
    obtain rfl := hshared vd'.1 vd'.2 newHost' ⟨hvd', hnew'⟩ hpath
    exact hhome.imp_right fun hmem => ⟨Migration.mk vd'.1 vd'.2 host _, hmem, hpath, rfl⟩

/-- After a preparation that succeeded, another one with the same plan and the same history, that
    finds data in the same places, succeeds and moves nothing if and only if the history agrees with
    the plan and no data was put where it is not to stay. -/
theorem retry_safe_iff {site₁ site₂ : Site}
    (hfirst : (prepareLocalSticky topo plan history clients).run site = (.ok (), site₁))
    (hsame : ∀ host path,
      hasContent (site₂.overlays host path) = hasContent (site₁.overlays host path)) :
    (prepareLocalSticky topo plan history clients).run site₂ = (.ok (), site₂) ↔
      Settled topo plan history clients site := by
  have hsame : ∀ host path, Holds site₂ host path ↔ Holds site₁ host path := fun host path => by
    rw [Holds, Holds, hsame]
  have hsomewhere := prepareLocalSticky_somewhere hfirst
  rw [run_eq_self_iff]
  refine ⟨fun h => ⟨fun vdName node newHost hvd => (h _ _ _ hvd).agrees, ?_, ?_⟩,
    fun h vdName node newHost hvd => ⟨?_, h.agrees _ _ _ hvd, ?_⟩⟩
  -- Data that the adoptions put somewhere is still there, on some host: no device that is at rest
  -- has it at its legacy path, and all devices of its path are on that host.
  · intro host hhost path hholds vdName node newHost hvd hadopts hpath
    obtain ⟨host', hhost', hholds'⟩ := (hsomewhere _).2 ⟨host, hhost, path, hpath, hholds⟩
    exact (h _ _ _ hvd).legacy hadopts host' hhost' ((hsame _ _).2 hholds')
  · intro host hhost path hholds vdName node newHost vdName' node' newHost' hvd hvd' hpath hpath'
    obtain ⟨host', hhost', hholds'⟩ := (hsomewhere _).2 ⟨host, hhost, path, rfl, hholds⟩
    rw [← hsame] at hholds'
    rw [← (h _ _ _ hvd).home host' hhost' (hpath ▸ hholds')]
    exact (h _ _ _ hvd').home host' hhost' (hpath' ▸ hholds')
  -- Conversely, data that is found was put there by the adoptions.
  · intro hadopts host hhost hholds
    obtain ⟨host', hhost', old, hold, hholds'⟩ :=
      (hsomewhere _).1 ⟨host, hhost, (hsame _ _).1 hholds⟩
    exact h.legacy host' hhost' old hholds' _ _ _ hvd hadopts hold
  · intro host hhost hholds
    rw [hsame] at hholds
    obtain ⟨host', hhost', old, hold, hholds'⟩ := (hsomewhere _).1 ⟨host, hhost, hholds⟩
    refine prepareLocalSticky_home hfirst h.agrees hvd (fun vdName' node' newHost' hvd' hpath => ?_)
      host hhost hholds
    exact h.shared host' hhost' old hholds' _ _ _ _ _ _ hvd' hvd (hpath.trans hold.symm) hold.symm

/-- A persistent device. -/
def r1 : VDNode := { name := "r1", kind := "vr", image := "foo:1-dnlab" }

/-- A lab with one persistent device, on two hosts. -/
def lab : DistributedTopology where
  name := "lab"
  master := ⟨"master", "10.0.0.1", true⟩
  workers := .ofList [("w1", ⟨"w1", "10.0.0.2", false⟩)]
  underlayIface := "eth0"
  nodes := .ofList [("r1", r1)]
  links := []
  mgmt := ⟨"mgmt", "br-mgmt", "172.20.0.0/24", "172.20.0.1", ""⟩

/-- The device is scheduled on the master. -/
def onMaster : SchedulePlan where
  labName := "lab"
  assignments := .ofList [("master", { hostName := "master", hostIp := "10.0.0.1", vdNames := ["r1"] })]

/-- Its data is on the other host. -/
def onWorker : Site where
  overlays host path :=
    if host = "w1" ∧ path = "/var/lib/docker/dnlab-backups/lab/r1" then some (.ofList [("disk", "data")])
    else none
  containers _ := []
  stateFile := none

/-- The data is on the master, once the overlay is migrated. -/
def retried (history : Dict String String) : Site :=
  ((prepareLocalSticky lab onMaster history lab.allHosts).run onWorker).2

theorem retry_safe_iff_fresh :
    (prepareLocalSticky lab onMaster ∅ lab.allHosts).run (retried ∅) = (.ok (), retried ∅) := by
  have hfirst : (prepareLocalSticky lab onMaster ∅ lab.allHosts).run onWorker = (.ok (), retried ∅) :=
    Prod.ext rfl rfl
  have hone : ∀ vdName node newHost, Scheduled lab onMaster vdName node newHost →
      vdName = "r1" ∧ node = r1 ∧ newHost = "master" := by
    rintro vdName node newHost ⟨hmem, hnew⟩
    have hvds : persistentVds lab = [("r1", r1)] := rfl
    rw [hvds] at hmem
    obtain ⟨rfl, rfl⟩ := Prod.mk.inj (List.mem_singleton.1 hmem)
    exact ⟨rfl, rfl, (Option.some.inj hnew).symm⟩
  refine (retry_safe_iff hfirst fun _ _ => rfl).2 ⟨?_, ?_, ?_⟩
  · intro vdName node newHost hvd oldHost hold
    obtain ⟨rfl, rfl, rfl⟩ := hone _ _ _ hvd
    exact absurd hold.symm (Option.some_ne_none _)
  · intro host hhost path hholds vdName node newHost hvd hadopts
    obtain ⟨rfl, rfl, rfl⟩ := hone _ _ _ hvd
    exact absurd hadopts (by decide)
  · intro host hhost path hholds vdName node newHost vdName' node' newHost' hvd hvd' _ _
    rw [(hone _ _ _ hvd).2.2, (hone _ _ _ hvd').2.2]

/-- The history still has the other host. -/
theorem not_retry_safe :
    ((prepareLocalSticky lab onMaster (.ofList [("r1", "w1")]) lab.allHosts).run onWorker).1 = .ok () ∧
    ((prepareLocalSticky lab onMaster (.ofList [("r1", "w1")]) lab.allHosts).run
      (retried (.ofList [("r1", "w1")]))).1 = .error (persistenceError
        "Overlay for r1 was last placed on w1, but no overlay data was found there") := by
  exact ⟨rfl, rfl⟩

end Dnlab.Persistence
