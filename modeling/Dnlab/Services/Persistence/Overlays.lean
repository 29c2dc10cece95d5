import Dnlab.Services.Persistence

/-!
# Where the overlays are

What the preparation does to the places where there is data (`Holds`): an adoption
moves the data of a path to another path on every host, and a migration moves that of
a path from one host to another. Nothing gets lost on the way.
-/

namespace Dnlab.Persistence

variable {topo : DistributedTopology} {plan : SchedulePlan} {history : Dict String String}
  {clients : Clients} {site site' : Site} {host path : String}

/-- There is data in a directory. -/
def Holds (site : Site) (host path : String) : Prop := hasContent (site.overlays host path) = true

theorem put_overlays (site : Site) (host path host' path' : String) (files : Option Files) :
    (site.put host path files).overlays host' path' =
      if host' = host ∧ path' = path then files else site.overlays host' path' := by
  rw [Site.put]
  dsimp only
  by_cases hhost : host' = host
  · rw [hhost, Function.update_self]
    by_cases hpath : path' = path
    · rw [hpath, Function.update_self, if_pos ⟨rfl, rfl⟩]
    · rw [Function.update_of_ne hpath, if_neg fun h => hpath h.2]
  · rw [Function.update_of_ne hhost, if_neg fun h => hhost h.1]

@[simp] theorem put_moves (site : Site) (host path : String) (files : Option Files) :
    (site.put host path files).moves = site.moves := rfl

@[simp] theorem note_overlays (site : Site) (move : Move) :
    (site.note move).overlays = site.overlays := rfl

@[simp] theorem note_moves (site : Site) (move : Move) :
    (site.note move).moves = site.moves ++ [move] := rfl

/-! ## Adoptions -/

/-- Where an adoption puts the data of a path. -/
def redirect (legacy stable path : String) : String := if path = legacy then stable else path

theorem redirect_redirect {legacy stable : String} (path : String) :
    redirect legacy stable (redirect legacy stable path) = redirect legacy stable path := by
  rw [redirect, redirect]
  split_ifs <;> rfl

/-- On some hosts, the data of each path is where `f` puts it; elsewhere it is where it was. -/
structure Redirects (hosts : List String) (f : String → String) (site site' : Site) : Prop where
  of_mem : ∀ host ∈ hosts, ∀ path,
    (Holds site' host path ↔ ∃ old, f old = path ∧ Holds site host old)
  of_notMem : ∀ host, host ∉ hosts → ∀ path, (Holds site' host path ↔ Holds site host path)

theorem Redirects.refl (hosts : List String) (site : Site) : Redirects hosts id site site :=
  ⟨fun _ _ path => ⟨fun h => ⟨path, rfl, h⟩, fun ⟨_, hold, h⟩ => hold ▸ h⟩,
    fun _ _ _ => Iff.rfl⟩

theorem Redirects.trans {hosts : List String} {f g : String → String} {site'' : Site}
    (h : Redirects hosts f site site') (h' : Redirects hosts g site' site'') :
    Redirects hosts (g ∘ f) site site'' := by
  refine ⟨fun host hhost path => ?_, fun host hhost path => ?_⟩
  · rw [h'.of_mem host hhost path]
    refine ⟨fun ⟨old, hold, hholds⟩ => ?_, fun ⟨old, hold, hholds⟩ => ?_⟩
    · obtain ⟨old', rfl, hholds'⟩ := (h.of_mem host hhost old).1 hholds
      exact ⟨old', hold, hholds'⟩
    · exact ⟨f old, hold, (h.of_mem host hhost (f old)).2 ⟨old, rfl, hholds⟩⟩
  · rw [h'.of_notMem host hhost path, h.of_notMem host hhost path]

/-- One host after the other. -/
theorem Redirects.cons {hosts : List String} {f : String → String} {between : Site}
    (hf : ∀ path, f (f path) = f path) (h : Redirects [host] f site between)
    (h' : Redirects hosts f between site') : Redirects (host :: hosts) f site site' := by
  refine ⟨fun host' hhost path => ?_, fun host' hhost path => ?_⟩
  · by_cases hmem : host' ∈ hosts
    · rw [h'.of_mem host' hmem path]
      by_cases heq : host' = host
      · -- What was redirected on the host stays where it is.
        have hbetween := h.of_mem host' (List.mem_singleton.2 heq)
        refine ⟨fun ⟨old, hold, hholds⟩ => ?_, fun ⟨old, hold, hholds⟩ => ?_⟩
        · obtain ⟨old', rfl, hholds'⟩ := (hbetween old).1 hholds
          exact ⟨old', (hf old').symm.trans hold, hholds'⟩
        · exact ⟨f old, (hf old).trans hold, (hbetween (f old)).2 ⟨old, rfl, hholds⟩⟩
      · simp only [h.of_notMem host' (mt List.mem_singleton.1 heq)]
    · obtain rfl := (List.mem_cons.1 hhost).resolve_right hmem
      rw [h'.of_notMem host' hmem path, h.of_mem host' (List.mem_singleton_self _) path]
  · rw [List.mem_cons, not_or] at hhost
    rw [h'.of_notMem host' hhost.2 path, h.of_notMem host' (mt List.mem_singleton.1 hhost.1) path]

section Adopt

variable {legacy stable : String}

theorem redirects_adopt (hne : legacy ≠ stable) (hlegacy : Holds site host legacy) :
    Redirects [host] (redirect legacy stable) site (site.adopt host legacy stable) := by
  refine ⟨fun host' hhost path => ?_, fun host' hhost path => ?_⟩
  · obtain rfl := List.mem_singleton.1 hhost
    rw [Holds, Site.adopt, note_overlays, put_overlays, put_overlays]
    by_cases hpath : path = legacy
    · rw [if_pos ⟨rfl, hpath⟩]
      refine ⟨fun h => absurd h (by simp [hasContent]), fun ⟨old, hold, _⟩ => ?_⟩
      rw [redirect] at hold
      split_ifs at hold with hlegacy'
      · exact absurd (hpath.symm.trans hold.symm) hne
      · exact absurd (hold.trans hpath) hlegacy'
    · rw [if_neg fun h => hpath h.2]
      by_cases hpath' : path = stable
      · rw [if_pos ⟨rfl, hpath'⟩]
        exact ⟨fun _ => ⟨legacy, by rw [redirect, if_pos rfl, hpath'], hlegacy⟩, fun _ => hlegacy⟩
      · rw [if_neg fun h => hpath' h.2]
        refine ⟨fun h => ⟨path, by rw [redirect, if_neg hpath], h⟩, fun ⟨old, hold, h⟩ => ?_⟩
        rw [redirect] at hold
        split_ifs at hold
        · exact absurd hold.symm hpath'
        · exact hold ▸ h
  · have hne' : host' ≠ host := mt List.mem_singleton.2 hhost
    rw [Holds, Site.adopt, note_overlays, put_overlays, put_overlays, if_neg fun h => hne' h.1,
      if_neg fun h => hne' h.1, Holds]

/-- There is nothing to redirect. -/
theorem redirects_self (hlegacy : ¬Holds site host legacy) :
    Redirects [host] (redirect legacy stable) site site := by
  refine ⟨fun host' hhost path => ?_, fun _ _ _ => Iff.rfl⟩
  obtain rfl := List.mem_singleton.1 hhost
  have hne : ∀ path, Holds site host' path → path ≠ legacy := fun path h heq => hlegacy (heq ▸ h)
  refine ⟨fun h => ⟨path, if_neg (hne path h), h⟩, fun ⟨old, hold, h⟩ => ?_⟩
  rw [redirect, if_neg (hne old h)] at hold
  exact hold ▸ h

end Adopt

/-- Something was moved. -/
def Moved (site site' : Site) : Prop := site.moves.length < site'.moves.length

theorem not_moved_self (site : Site) : ¬Moved site site := Nat.lt_irrefl _

theorem Moved.trans_or {site'' : Site} (h : Moved site site') (h' : site'' = site' ∨ Moved site' site'') :
    Moved site site'' := by
  rcases h' with rfl | h'
  · exact h
  · exact Nat.lt_trans h h'

theorem moved_adopt (site : Site) (host legacy stable : String) :
    Moved site (site.adopt host legacy stable) := by
  rw [Moved, Site.adopt, note_moves, List.length_append]
  exact Nat.lt_succ_self _

theorem forEach_cons_ok {α : Type} {a : α} {l : List α} {f : α → Task Unit}
    (h : (Prog.forEach (a :: l) f).run site = (.ok (), site')) :
    ∃ between, (f a).run site = (.ok (), between) ∧
      (Prog.forEach l f).run between = (.ok (), site') := by
  obtain ⟨⟨⟩, between, hfirst, hrest⟩ := Prog.run_bind_eq_ok h
  exact ⟨between, hfirst, hrest⟩

section Device

variable {vdName : String} {node : VDNode}

theorem adopts_ne (h : adopts topo vdName node = true) :
    legacyPath topo vdName ≠ overlayPath topo vdName node := by
  rw [adopts, decide_eq_true_eq] at h
  exact h.2.2

/-- On one host, nothing happens if there is nothing to be adopted. -/
theorem adoptOn_ok (hadopts : adopts topo vdName node = true)
    (h : (adoptOn topo vdName node host).run site = (.ok (), site')) :
    (¬Holds site host (legacyPath topo vdName) ∧ site' = site ∨ Moved site site') ∧
      Redirects [host] (redirect (legacyPath topo vdName) (overlayPath topo vdName node)) site
        site' := by
  rw [adoptOn, Prog.run_bind, Prog.run_get] at h
  dsimp only at h
  split_ifs at h with hlegacy hstable
  · simp at h
  · obtain rfl := congrArg Prod.snd h
    exact ⟨.inr (moved_adopt _ _ _ _), redirects_adopt (adopts_ne hadopts) hlegacy⟩
  · obtain rfl := congrArg Prod.snd h
    exact ⟨.inl ⟨hlegacy, rfl⟩, redirects_self hlegacy⟩

/-- The data of a legacy path goes to the path of the device. -/
theorem adoptAll_ok (hadopts : adopts topo vdName node = true) {hosts : List String}
    (h : (Prog.forEach hosts (adoptOn topo vdName node)).run site = (.ok (), site')) :
    ((∀ host ∈ hosts, ¬Holds site host (legacyPath topo vdName)) ∧ site' = site ∨
        Moved site site') ∧
      Redirects hosts (redirect (legacyPath topo vdName) (overlayPath topo vdName node)) site
        site' := by
  induction hosts generalizing site with
  | nil =>
    obtain rfl : site = site' := congrArg Prod.snd h
    refine ⟨.inl ⟨fun host hhost => absurd hhost List.not_mem_nil, rfl⟩, ?_, fun _ _ _ => Iff.rfl⟩
    exact fun host hhost => absurd hhost List.not_mem_nil
  | cons host hosts ih =>
    obtain ⟨between, hfirst, hrest⟩ := forEach_cons_ok h
    obtain ⟨hmoved, hredirects⟩ := ih hrest
    obtain ⟨hmoved', hredirects'⟩ := adoptOn_ok hadopts hfirst
    refine ⟨?_, hredirects'.cons redirect_redirect hredirects⟩
    rcases hmoved' with ⟨hlegacy, rfl⟩ | hmoved'
    · exact hmoved.imp_left fun ⟨hrest, heq⟩ => ⟨List.forall_mem_cons.2 ⟨hlegacy, hrest⟩, heq⟩
    · exact .inr (hmoved'.trans_or (hmoved.imp_left And.right))

/-- Where the preparation for a device puts the data of a path. -/
def adopted (topo : DistributedTopology) (vdName : String) (node : VDNode) (path : String) : String :=
  if adopts topo vdName node then redirect (legacyPath topo vdName) (overlayPath topo vdName node) path
  else path

theorem adoptLegacyOverlayPaths_ok
    (h : (adoptLegacyOverlayPaths topo clients vdName node).run site = (.ok (), site')) :
    ((adopts topo vdName node = true →
        ∀ host ∈ clients.keys, ¬Holds site host (legacyPath topo vdName)) ∧ site' = site ∨
        Moved site site') ∧
      Redirects clients.keys (adopted topo vdName node) site site' := by
  rw [adoptLegacyOverlayPaths, Prog.when] at h
  split_ifs at h with hadopts
  · obtain ⟨hmoved, hredirects⟩ := adoptAll_ok hadopts h
    refine ⟨hmoved.imp_left fun ⟨hlegacy, heq⟩ => ⟨fun _ => hlegacy, heq⟩, ?_⟩
    have heq : adopted topo vdName node =
        redirect (legacyPath topo vdName) (overlayPath topo vdName node) :=
      funext fun path => if_pos hadopts
    rw [heq]
    exact hredirects
  · obtain rfl : site = site' := congrArg Prod.snd h
    have heq : adopted topo vdName node = id := funext fun path => if_neg hadopts
    rw [heq]
    exact ⟨.inl ⟨fun h => absurd h hadopts, rfl⟩, .refl _ _⟩

end Device

/-! ## Migrations -/

theorem update_items_eq_nil {files : Files} {l : List (String × String)} :
    (files.update l).items = [] ↔ files.items = [] ∧ l = [] := by
  induction l generalizing files with
  | nil => simp [Dict.update]
  | cons e l ih =>
    have hset : (files.set e.1 e.2).items ≠ [] := fun h => by
      have hmem : e.1 ∈ (files.set e.1 e.2).keys := Dict.mem_keys_set.2 (.inl rfl)
      rw [Dict.keys, h] at hmem
      exact List.not_mem_nil hmem
    have hcons : files.update (e :: l) = (files.set e.1 e.2).update l := rfl
    rw [hcons, ih]
    simp [hset]

theorem hasContent_unpacked (old : Option Files) (files : Files) :
    hasContent (some ((old.getD ∅).update files.items)) = true ↔
      hasContent old = true ∨ hasContent (some files) = true := by
  rcases old with _ | old <;>
    simp only [hasContent, decide_eq_true_eq, ne_eq, update_items_eq_nil, Option.getD_none,
      Option.getD_some, Dict.items_empty, true_and, Bool.false_eq_true, false_or, not_and_or]

variable {migration : Migration}

theorem clientOf_ok {client : InfraHost} (h : (clientOf clients host).run site = (.ok client, site')) :
    host ∈ clients.keys ∧ site' = site := by
  rw [clientOf] at h
  split at h
  · rename_i hclient
    exact ⟨Dict.mem_keys_iff.2 ⟨_, hclient⟩, (congrArg Prod.snd h).symm⟩
  · simp at h

theorem moved_migrate (site : Site) (path oldHost newHost : String) (files : Files) :
    Moved site (site.migrate path oldHost newHost files) := by
  rw [Moved, Site.migrate, note_moves, List.length_append]
  exact Nat.lt_succ_self _

/-- A migration copies something, if only an empty directory, to a host of the inventory. -/
theorem runMigration_ok (h : (runMigration topo clients migration).run site = (.ok (), site')) :
    migration.newHost ∈ clients.keys ∧ ∃ files,
      site.overlays migration.oldHost (migration.path topo) = some files ∧
        site'.overlays =
          (site.migrate (migration.path topo) migration.oldHost migration.newHost files).overlays ∧
        Moved site site' := by
  obtain ⟨⟨⟩, started, hstart, hrest⟩ := Prog.run_bind_eq_ok h
  obtain ⟨⟨⟩, migrated, hrescue, hend⟩ := Prog.run_bind_eq_ok hrest
  obtain rfl := congrArg Prod.snd hstart
  obtain rfl := congrArg Prod.snd hend
  rw [Prog.run_rescue] at hrescue
  split at hrescue
  · -- A failure would have been raised again.
    rename_i done hbody
    obtain ⟨-, rfl⟩ := Prod.mk.inj hrescue
    obtain ⟨_, before, hold, hbody⟩ := Prog.run_bind_eq_ok hbody
    obtain rfl := (clientOf_ok hold).2
    obtain ⟨_, before', hnew, hbody⟩ := Prog.run_bind_eq_ok hbody
    obtain ⟨hmem, rfl⟩ := clientOf_ok hnew
    rw [migrateOverlay, Prog.run_bind, Prog.run_get] at hbody
    dsimp only at hbody
    split at hbody
    · simp at hbody
    · rename_i files hfiles
      obtain rfl := congrArg Prod.snd hbody
      exact ⟨hmem, files, hfiles, rfl, moved_migrate site (migration.path topo) _ _ files⟩
  · obtain ⟨⟨⟩, _, _, hraise⟩ := Prog.run_bind_eq_ok hrescue
    simp at hraise

/-- The data of the directory is on the new host afterwards, and not on the old one. -/
theorem runMigration_holds (hne : migration.oldHost ≠ migration.newHost)
    (h : (runMigration topo clients migration).run site = (.ok (), site')) (host path : String) :
    Holds site' host path ↔
      path = migration.path topo ∧ host = migration.newHost ∧ Holds site migration.oldHost path ∨
        (path = migration.path topo → host ≠ migration.oldHost) ∧ Holds site host path := by
  obtain ⟨-, files, hfiles, hoverlays, -⟩ := runMigration_ok h
  rw [Holds, hoverlays, Site.migrate, note_overlays, put_overlays, put_overlays]
  by_cases hpath : path = migration.path topo
  · subst hpath
    rcases eq_or_ne host migration.oldHost with rfl | hold
    · rw [if_pos ⟨rfl, rfl⟩]
      simp [hasContent, hne]
    · rw [if_neg fun h => hold h.1]
      rcases eq_or_ne host migration.newHost with rfl | hnew
      · rw [if_pos ⟨rfl, rfl⟩, hasContent_unpacked, ← hfiles]
        simp [Holds, hold, or_comm]
      · rw [if_neg fun h => hnew h.1]
        simp [Holds, hold, hnew]
  · rw [if_neg fun h => hpath h.2, if_neg fun h => hpath h.2]
    simp [Holds, hpath]

end Dnlab.Persistence
