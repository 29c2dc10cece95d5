import Dnlab.Scripts.Changes.Resume

/-!
# Releases and interruptions

A release is called, and called again, and each time it may be interrupted after
any number of its file operations (`Interrupted`). Unless this is within a copy,
the next call that is not interrupted leaves the files that the first one would
have left (`resumes`); if it is within a copy, all later calls fail (`stuck`).
-/

namespace Dnlab.Changes

namespace NewRelease

variable {R : Runtime} {git : Option (Tree → Except String (List String))} {args : Args}
  {tree : Tree} {N : NewRelease R git args tree} {t t' : Tree} {dir : String}

/-! ## After a release -/

theorem Released.manifested (h : N.Released t) : N.Manifested t where
  other := fun _ hp hne => h.get?_release hp hne
  own := .inr h.get?_manifestPath

theorem Released.of_agrees (h : N.Released t) (ha : Agrees t' t) : N.Released t' where
  pending := fun p hp => (ha p (isStaged_of_isPending hp)).trans (h.pending p hp)
  marker := (ha _ rfl).trans h.marker
  output := fun e he => (ha _ (N.placed.place e he).1).trans (h.output e he)
  archived := fun p hp => (ha _ rfl).trans (h.archived p hp)
  other := fun p hstaged hp hmarker hout harchive =>
    (ha p hstaged).trans (h.other p hstaged hp hmarker hout harchive)

theorem Released.selectPaths_eq (h : N.Released t) : selectPaths R git args t N.key N.day =
    .ok (none, (glob tree Path.isPending).map args.toArchive) := by
  have harchive : glob t (Path.isArchivedIn args.version) ≠ [] := by
    rw [h.glob_archive, ne_eq, List.map_eq_nil_iff]
    exact N.begins.pending
  unfold selectPaths
  rw [h.marker, h.glob_pending]
  dsimp only
  rw [if_neg fun hmanifest => harchive hmanifest.2, if_pos harchive, ExceptRules.bind_eq_ok]
  refine ⟨(), require_eq_ok.2 (.inl rfl), ?_⟩
  rw [h.glob_archive]
  rfl

/-- What is written where it is already changes nothing. -/
theorem get?_update_same {κ ν : Type*} [DecidableEq κ] {d : Dict κ ν} {pairs : List (κ × ν)}
    (h : ∀ e ∈ pairs, d.get? e.1 = some e.2) (k : κ) : (d.update pairs).get? k = d.get? k := by
  rw [Dict.get?_update]
  cases hlookup : pairs.reverse.lookup k with
  | none => rw [Option.none_or]
  | some v =>
    obtain ⟨l₁, l₂, hsplit, -⟩ := List.lookup_eq_some_iff.1 hlookup
    have hmem : (k, v) ∈ pairs :=
      List.mem_reverse.1 (hsplit ▸ List.mem_append_right _ List.mem_cons_self)
    rw [Option.some_or, h _ hmem]

section Again

variable (h : N.Released t) (hvalid : Valid R tree)
  (hyaml : R.loadYaml (R.dumpYaml (.dict N.manifest)) = .ok (.dict N.manifest))

include h

theorem Released.ops_eq (dir : String) : N.plan.ops R args dir t =
    N.plan.stageOps dir ++ (N.plan.renameOps dir ++ [.unlink (Path.marker args.version)]) := by
  have hno : ¬(glob t Path.isPending ≠ []) := fun hne => hne h.glob_pending
  have hmark : N.plan.markOps R args dir t = [] := if_neg fun h => hno h.1
  have hcopies : N.plan.copies R args t = [] := if_neg hno
  rw [Plan.ops, hmark, hcopies, Plan.endOps, h.glob_pending]
  rfl

/-- A release that is done changes no file, however it is interrupted. -/
theorem Released.agrees {pre : List Op} (hpre : pre <+: N.plan.ops R args dir t) :
    Agrees (applyAll pre t) t := by
  have hstage := agrees_staged (t := t) N.plan dir
  intro p hp
  rw [h.ops_eq] at hpre
  -- The release was killed while it staged its outputs, renamed them or removed the marker.
  rcases prefix_or_append hpre with hpre | ⟨rest, rfl, hrest⟩
  · exact get?_stageOps (isStagedIn_of_isStaged hp) hpre
  have hrenames {l : List (Path × Path × String)} (hl : l <+: stagedOutputs dir N.outputs) :
      (applyAll (l.map fun e => .rename e.1 e.2.1) (applyAll (N.plan.stageOps dir) t)).get? p =
        t.get? p := by
    have hout : l.map Prod.snd <+: N.outputs :=
      map_snd_stagedOutputs dir N.outputs ▸ hl.map _
    rw [get?_renames ((staged_stagedOutputs fun e he => N.placed.notStagedIn he).initial hl)
      (fun e he => get?_staged (hl.subset he)) (isStagedIn_of_isStaged hp), get?_update_same,
      hstage p hp]
    intro e he
    rw [hstage _ (N.placed.place e (hout.subset he)).1]
    exact h.output e (hout.subset he)
  rw [applyAll_append]
  rcases prefix_or_append hrest with hrename | ⟨delete, rfl, hdelete⟩
  · obtain ⟨l, hl, rfl⟩ := List.prefix_map_iff.1 hrename
    exact hrenames hl
  · rw [applyAll_append]
    obtain ⟨l, hl, rfl⟩ : ∃ l : List Path, l <+: [Path.marker args.version] ∧
        delete = l.map .unlink := List.prefix_map_iff.1 hdelete
    rw [get?_unlinks]
    split
    · rename_i hmem
      rw [List.mem_singleton.1 (hl.subset hmem), h.marker]
    · exact hrenames (List.prefix_refl _)

include hvalid hyaml

theorem Released.commandRelease_eq (dir : String) :
    commandRelease R git args dir t = (N.plan.ops R args dir t, .ok ()) := by
  have hname : ∀ p, (args.toArchive p).name = p.name := fun _ => rfl
  have hplan : Dnlab.Changes.plan R git args t = .ok N.plan :=
    h.manifested.plan_eq hyaml hvalid hname h.archived h.selectPaths_eq
  have hfragments : N.plan.fragments R t = [] := by
    show payload R t (glob t Path.isPending) = []
    rw [h.glob_pending]
    rfl
  rw [commandRelease, hplan]
  refine (transact_eq_ok ?_ ?_).2 ⟨fun hne => absurd h.glob_pending hne, rfl⟩
  · rw [hfragments]
    exact List.nodup_nil
  · rw [hfragments]
    exact fun _ hmem => absurd hmem List.not_mem_nil

end Again

/-- A release that was accepted, of a valid tree with pending fragments, is a new one. -/
theorem of_commandRelease {ops : List Op} (hvalid : Valid R tree)
    (hpending : glob tree Path.isPending ≠ [])
    (h : commandRelease R git args dir tree = (ops, .ok ())) :
    ∃ N : NewRelease R git args tree, ops = N.plan.ops R args dir tree := by
  have hmarker : tree.get? (Path.marker args.version) = none := by
    rw [Dict.get?_eq_none_iff]
    intro hkey
    have hmem : Path.marker args.version ∈ glob tree Path.isMarker := mem_glob.2 ⟨hkey, rfl⟩
    rw [hvalid.noMarkers] at hmem
    exact List.not_mem_nil hmem
  rw [commandRelease] at h
  split at h
  · cases h
  rename_i p hplan
  -- An archive of the version would have fragments with the names of the pending ones.
  have harchive : glob tree (Path.isArchivedIn args.version) = [] := by
    by_contra harchive
    obtain ⟨key, day, sel, -, -, hselect, -⟩ := plan_eq_ok.1 hplan
    unfold selectPaths at hselect
    rw [hmarker] at hselect
    dsimp only at hselect
    rw [if_neg fun hno => harchive hno.2, if_pos harchive, ExceptRules.bind_eq_ok] at hselect
    obtain ⟨_, hsame, -⟩ := hselect
    have hsame := (require_eq_ok.1 hsame).resolve_left hpending
    obtain ⟨q, l, hcons⟩ := List.exists_cons_of_ne_nil hpending
    have hq : q ∈ glob tree Path.isPending := hcons ▸ List.mem_cons_self
    have hmem : (q.name, tree.get? q) ∈
        (glob tree (Path.isArchivedIn args.version)).map fun p => (p.name, tree.get? p) :=
      hsame ▸ List.mem_map_of_mem (f := fun p => (p.name, tree.get? p)) hq
    obtain ⟨r, hr, hname⟩ := List.mem_map.1 hmem
    obtain ⟨hqkey, hqpending⟩ := mem_glob.1 hq
    obtain ⟨hrkey, hrarchived⟩ := mem_glob.1 hr
    have hrpath := eq_archive hrarchived
    have hq' : q ∈ glob tree Path.isFragment :=
      mem_glob.2 ⟨hqkey, Bool.or_eq_true_iff.2 (.inl hqpending)⟩
    have hr' : r ∈ glob tree Path.isFragment := by
      refine mem_glob.2 ⟨hrkey, Bool.or_eq_true_iff.2 (.inr ?_)⟩
      rw [hrpath] at hrarchived ⊢
      exact (Bool.and_eq_true_iff.1 hrarchived).2
    have heq := List.inj_on_of_nodup_map hvalid.names hq' hr'
      (Path.stem_congr (congrArg Prod.fst hname).symm)
    rw [heq, hrpath] at hqpending
    cases hqpending
  obtain ⟨N, rfl⟩ := of_plan hmarker harchive hplan
  refine ⟨N, ?_⟩
  have hrun : commandRelease R git args dir tree = (N.plan.ops R args dir tree, .ok ()) :=
    N.commandRelease_eq
  rw [commandRelease, hplan] at hrun
  exact congrArg Prod.fst (h.symm.trans hrun)

end NewRelease

/-! ## Interruptions -/

section Interruptions

variable {R : Runtime} {git : Option (Tree → Except String (List String))} {args : Args}
  {tree t : Tree} {dir : String} {ops : List Op}

/-- The trees that a release leaves that is called any number of times and interrupted, but never
    within a copy. -/
inductive Interrupted (R : Runtime) (git : Option (Tree → Except String (List String)))
    (args : Args) (tree : Tree) : Tree → Prop
  | start : Interrupted R git args tree tree
  | again {t : Tree} {pre : List Op} (dir : String) : Interrupted R git args tree t →
      pre <+: (commandRelease R git args dir t).1 → Whole args tree (applyAll pre t) →
        Interrupted R git args tree (applyAll pre t)

/-- The documents that a release writes are read as they were written. -/
structure RoundTrips (R : Runtime) (args : Args) (tree : Tree) : Prop where
  yaml : ∀ loaded, loadFragments R tree (glob tree Path.isPending) = .ok loaded →
    R.loadYaml (R.dumpYaml (.dict (args.manifest R loaded))) =
      .ok (.dict (args.manifest R loaded))
  json : R.loadJson (R.dumpJson
      (transactionDoc args (payload R tree (glob tree Path.isPending))) ++ "\n") =
    .ok (transactionDoc args (payload R tree (glob tree Path.isPending)))

variable {N : NewRelease R git args tree} (hvalid : Valid R tree) (hround : RoundTrips R args tree)

include hvalid hround

/-- What an interrupted release may be when it is called again and interrupted again. -/
theorem next (h : Agrees t tree ∨ N.Underway t ∨ N.Released t) {pre : List Op}
    (hpre : pre <+: (commandRelease R git args dir t).1) : Agrees (applyAll pre t) tree ∨
      N.Underway (applyAll pre t) ∨ N.Released (applyAll pre t) ∨ N.Torn (applyAll pre t) := by
  have hyaml : R.loadYaml (R.dumpYaml (.dict N.manifest)) = .ok (.dict N.manifest) :=
    hround.yaml _ N.loads
  rcases h with ha | hu | hr
  · exact NewRelease.again_interrupt ha hpre
  · exact .inr (hu.again_interrupt hvalid hyaml hround.json hpre)
  · rw [hr.commandRelease_eq hvalid hyaml dir] at hpre
    exact .inr (.inr (.inl (hr.of_agrees (hr.agrees hpre))))

/-- An interrupted release has not begun, is underway or is done. -/
theorem Interrupted.phase (N : NewRelease R git args tree) (h : Interrupted R git args tree t) :
    Agrees t tree ∨ N.Underway t ∨ N.Released t := by
  induction h with
  | start => exact .inl fun _ _ => rfl
  | again dir _ hpre hwhole ih =>
    rcases next hvalid hround ih hpre with ha | hu | hr | htorn
    · exact .inl ha
    · exact .inr (.inl hu)
    · exact .inr (.inr hr)
    · exact absurd hwhole htorn.not_whole

/-- A release that may be called again: there is no repository, or the marker is in place, or nothing
    is pending any more. Before that, what it leaves in its temporary directory stands in its way in
    a repository, which is not clean then. -/
def MayGoOn (git : Option (Tree → Except String (List String))) (args : Args) (t : Tree) : Prop :=
  git = none ∨ t.get? (Path.marker args.version) ≠ none ∨ glob t Path.isPending = []

omit hround hvalid in
theorem MayGoOn.clean (h : MayGoOn git args t) (N : NewRelease R git args tree)
    (ha : Agrees t tree) : ensureClean git t = .ok () := by
  rcases h with rfl | hmarker | hnone
  · rfl
  · exact absurd ((ha _ rfl).trans N.begins.noMarker) hmarker
  · exact absurd (ha.glob_pending.symm.trans hnone) N.begins.pending

/-- An interrupted release is finished by the next call that is not interrupted. -/
theorem Interrupted.finish (N : NewRelease R git args tree) (h : Interrupted R git args tree t)
    (hon : MayGoOn git args t) (dir : String) :
    ∃ ops, commandRelease R git args dir t = (ops, .ok ()) ∧ N.Released (applyAll ops t) := by
  have hyaml : R.loadYaml (R.dumpYaml (.dict N.manifest)) = .ok (.dict N.manifest) :=
    hround.yaml _ N.loads
  rcases h.phase hvalid hround N with ha | hu | hr
  · exact NewRelease.again_run ha (hon.clean N ha) dir
  · exact hu.again_run hvalid hyaml hround.json dir
  · exact ⟨_, hr.commandRelease_eq hvalid hyaml dir, hr.of_agrees (hr.agrees (List.prefix_refl _))⟩

omit hvalid in
/-- In the midst of a copy, the release finds a fragment with another digest. -/
theorem NewRelease.Torn.commandRelease_eq (h : N.Torn t)
    (hsha : ∀ p ∈ glob tree Path.isPending, R.sha256 "" ≠ R.sha256 (tree.getD p ""))
    (dir : String) : ∃ e, commandRelease R git args dir t = ([], .error e) := by
  cases hplan : Dnlab.Changes.plan R git args t with
  | error e =>
    rw [commandRelease, hplan]
    exact ⟨e, rfl⟩
  | ok p =>
    exfalso
    obtain ⟨key, day, sel, -, -, hselect, -⟩ := plan_eq_ok.1 hplan
    obtain ⟨d, hd⟩ : ∃ d, transactionDoc args (N.plan.fragments R tree) = .dict d := ⟨_, rfl⟩
    obtain ⟨r, hresume, -⟩ :=
      (NewRelease.selectPaths_eq_ok hround.json h.marker hd).1 hselect
    obtain ⟨-, selected, hselected, -⟩ :=
      (NewRelease.resumeReleasePaths_eq_ok N.fragments_ne_nil hd).1 hresume
    -- The archived file is empty, and no fragment has the digest of that.
    obtain ⟨q, hq, hempty, -⟩ := h.torn
    have hmem : (q.name, R.sha256 (tree.getD q "")) ∈
        (N.plan.fragments R tree).insertionSort fun a b => a.1 ≤ b.1 :=
      (List.mem_insertionSort _).2 (List.mem_map_of_mem
        (f := fun p => (p.name, R.sha256 (tree.getD p ""))) hq)
    obtain ⟨r, -, hr⟩ := ExceptRules.forall₂_exists' (ExceptRules.mapM_eq_ok.1 hselected) hmem
    have harchived : args.toArchive q ∈ glob t (Path.isArchivedIn args.version) :=
      mem_glob.2 ⟨Dict.mem_keys_iff.2 ⟨_, hempty⟩, NewRelease.isArchivedIn_toArchive hq⟩
    have hbyName : byName (glob t (Path.isArchivedIn args.version)) q.name =
        some (args.toArchive q) :=
      byName_eq_some harchived fun _ hp hname => NewRelease.eq_toArchive hp hname
    unfold resumePath at hr
    dsimp only at hr
    rw [hbyName] at hr
    obtain ⟨_, hdigest, -⟩ := ExceptRules.bind_eq_ok.1 hr
    have hdigest := require_eq_ok.1 hdigest (args.toArchive q)
      (List.mem_append_left _ (List.mem_singleton.2 rfl))
    rw [fileSha256, hempty] at hdigest
    exact hsha q hq (Option.some_inj.1 hdigest)

omit hvalid in
/-- A release that is interrupted any number of times, but never within a copy, is finished by the
    next call with the same arguments, with the files that an uninterrupted release leaves, if its
    marker is in place by then or there is no repository. -/
theorem resumes (hvalid : validateAll R tree none = .ok ())
    (hpending : glob tree Path.isPending ≠ [])
    (hrun : commandRelease R git args dir tree = (ops, .ok ()))
    (h : Interrupted R git args tree t) (hon : MayGoOn git args t) (dir' : String) :
    ∃ ops', commandRelease R git args dir' t = (ops', .ok ()) ∧
      Agrees (applyAll ops' t) (applyAll ops tree) := by
  have hvalid := (validateAll_eq_ok.1 hvalid).1
  obtain ⟨N, rfl⟩ := NewRelease.of_commandRelease hvalid hpending hrun
  obtain ⟨ops', hrun', hreleased⟩ := h.finish hvalid hround N hon dir'
  exact ⟨ops', hrun', fun _ hp => hreleased.unique N.released hp⟩

omit hvalid in
/-- A release that is interrupted within a copy is never finished: all later calls fail, and change
    nothing. -/
theorem stuck (hvalid : validateAll R tree none = .ok ())
    (hpending : glob tree Path.isPending ≠ [])
    (hsha : ∀ p ∈ glob tree Path.isPending, R.sha256 "" ≠ R.sha256 (tree.getD p ""))
    (hrun : commandRelease R git args dir tree = (ops, .ok ()))
    (h : Interrupted R git args tree t) {pre : List Op}
    (hpre : pre <+: (commandRelease R git args dir t).1)
    (hwhole : ¬Whole args tree (applyAll pre t)) (dir' : String) :
    ∃ e, commandRelease R git args dir' (applyAll pre t) = ([], .error e) := by
  have hvalid := (validateAll_eq_ok.1 hvalid).1
  obtain ⟨N, -⟩ := NewRelease.of_commandRelease hvalid hpending hrun
  rcases next hvalid hround (h.phase hvalid hround N) hpre with ha | hu | hr | htorn
  · refine absurd (fun p hp => .inl ?_) hwhole
    rw [ha _ rfl]
    exact N.get?_toArchive (isYml_of_isPending (mem_glob.1 hp).2)
  · exact absurd hu.whole hwhole
  · exact absurd (fun p hp => .inr (hr.archived p hp)) hwhole
  · exact htorn.commandRelease_eq hround hsha dir'

end Interruptions

/-! ## An example -/

namespace Sample

/-- A pending fragment. -/
def fragmentText : String :=
  "id: fix-one\ntype: bugfix\ntitle: Fix one\ndescription: It works.\ncomponents:\n- api\n" ++
  "audience:\n- user\nvisibility: public\nbreaking: false\nupgrade_notes: []\nreferences: []\n"

def fragmentDoc : Mapping :=
  Mapping.ofFields [("id", .str "fix-one"), ("type", .str "bugfix"), ("title", .str "Fix one"),
    ("description", .str "It works."), ("components", .strs ["api"]), ("audience", .strs ["user"]),
    ("visibility", .str "public"), ("breaking", .bool false), ("upgrade_notes", .list []),
    ("references", .list [])]

def fragmentDigest : String := "b8d5a77b21377787a79fd0af8bd74643d8af9856c9078f7ad6dd0c3669b82624"

def args : Args := ⟨"1.0.0", "2025-01-02", "The first release.", false⟩

/-- The manifest of the release. -/
def manifestText : String :=
  "version: 1.0.0\ndate: '2025-01-02'\ntag: v1.0.0\nsummary: The first release.\nentries:\n" ++
  "- category: Fixed\n  title: Fix one\n  body: It works.\n  change_id: fix-one\n" ++
  "  components:\n  - api\n  audience:\n  - user\nbreaking_changes: []\nupgrade_notes: []\n" ++
  "artifacts:\n- name: Source archives\n  type: github-release\n" ++
  "  path: '*-1.0.0-source.tar.gz'\n  channel: GitHub Release\n" ++
  "  notes: Corresponding source archives for the published GHCR images.\n" ++
  "- name: Source checksums\n  type: github-release\n  path: SHA256SUMS\n" ++
  "  channel: GitHub Release\n  notes: Checksums for downloadable release assets.\n" ++
  "source_notes:\n- CHANGELOG.md\n- changes/archive/1.0.0/\ninternal_refs: []\n"

def manifestDoc : Mapping :=
  Mapping.ofFields [("version", .str "1.0.0"), ("date", .str "2025-01-02"), ("tag", .str "v1.0.0"),
    ("summary", .str "The first release."),
    ("entries", .list [.dict (Mapping.ofFields [("category", .str "Fixed"),
      ("title", .str "Fix one"), ("body", .str "It works."), ("change_id", .str "fix-one"),
      ("components", .strs ["api"]), ("audience", .strs ["user"])])]),
    ("breaking_changes", .list []), ("upgrade_notes", .list []),
    ("artifacts", .list (artifactsFor "1.0.0" false)),
    ("source_notes", .strs ["CHANGELOG.md", "changes/archive/1.0.0/"]), ("internal_refs", .list [])]

/-- The marker of the transaction, without its last line feed. -/
def markerText : String :=
  "\x7b\n  \"date\": \"2025-01-02\",\n  \"fragments\": \x7b\n    \"fix-one.yml\": \"" ++
  fragmentDigest ++ "\"\n  \x7d,\n  \"summary\": \"The first release.\",\n" ++
  "  \"version\": \"1.0.0\",\n  \"with_lxc\": false\n\x7d"

/-- The asset that lists all changes, without its last line feed. -/
def assetText : String :=
  "\x7b\n  \"artifacts\": [\n    \x7b\n      \"channel\": \"GitHub Release\",\n" ++
  "      \"name\": \"Source archives\",\n      \"notes\": \"Corresponding source archives for " ++
  "the published GHCR images.\",\n      \"path\": \"*-1.0.0-source.tar.gz\",\n" ++
  "      \"type\": \"github-release\"\n    \x7d,\n    \x7b\n" ++
  "      \"channel\": \"GitHub Release\",\n      \"name\": \"Source checksums\",\n" ++
  "      \"notes\": \"Checksums for downloadable release assets.\",\n" ++
  "      \"path\": \"SHA256SUMS\",\n      \"type\": \"github-release\"\n    \x7d\n  ],\n" ++
  "  \"changes\": [\n    \"fix-one\"\n  ],\n  \"date\": \"2025-01-02\",\n" ++
  "  \"tag\": \"v1.0.0\",\n  \"version\": \"1.0.0\"\n\x7d"

/-- What the libraries make of the texts of this release. -/
def runtime : Runtime where
  loadYaml text :=
    if text = fragmentText then .ok (.dict fragmentDoc)
    else if text = manifestText then .ok (.dict manifestDoc) else .ok .null
  dumpYaml _ := manifestText
  loadJson text :=
    if text = markerText ++ "\n" then .ok (transactionDoc args [("fix-one.yml", fragmentDigest)])
    else .error "Expecting value: line 1 column 1 (char 0)"
  dumpJson
    | .dict d => if Mapping.has d "fragments" then markerText else assetText
    | _ => "null"
  sha256 text :=
    if text = fragmentText then fragmentDigest
    else "e3b0c44298fc1c149afbf4c8996fb92427ae41e4649b934ca495991b7852b855"
  casefold s := .ofList (s.toList.map Char.toLower)
  fromisoformat date := if date = "2025-01-02" then some 739253 else none
  fill initial _ text := initial ++ text

/-- The changelog without releases. -/
def changelog : String :=
  Text.rstripSpaces (Text.join "\n" ["# Changelog", "",
    "All notable public changes to dNLab are recorded in this file.", "",
    "This changelog is generated from the structured release sources in",
    "`docs/releases/`. Internal bug-tracking references stay in the private",
    "operational repository and are not published here.", ""]) ++ "\n"

/-- The tree before the release. -/
def tree : Tree := Dict.ofList [(.pending "fix-one.yml", fragmentText), (.changelog, changelog)]

/-- The file operations of the release. -/
def ops : List Op := (commandRelease runtime none args "tmp" tree).1

theorem pending_eq : glob tree Path.isPending = [.pending "fix-one.yml"] := rfl

set_option maxRecDepth 20000 in
theorem loadFragments_eq {paths : List Path} (h : paths = [.pending "fix-one.yml"]) :
    loadFragments runtime tree paths = .ok [(.pending "fix-one.yml", fragmentDoc)] := by
  rw [h]
  rfl

theorem valid : validateAll runtime tree none = .ok () := by
  have hfragments : glob tree Path.isFragment = [.pending "fix-one.yml"] := rfl
  have hreleases : releasePaths tree = [] := rfl
  obtain ⟨hnames, hreads⟩ := exists_loadFragments.1 ⟨_, loadFragments_eq hfragments⟩
  refine validateAll_eq_ok.2 ⟨⟨rfl, hnames, hreads, fun p hp => ?_, [], changelog, rfl, ?_, rfl⟩,
    fun s hs => nomatch hs⟩
  · rw [hreleases] at hp
    exact absurd hp List.not_mem_nil
  · rw [renderChangelog]
    rfl

set_option maxRecDepth 20000 in
theorem released : commandRelease runtime none args "tmp" tree = (ops, .ok ()) :=
  Prod.ext rfl (toOption_eq_some.1 rfl)

theorem pending_ne : glob tree Path.isPending ≠ [] := pending_eq ▸ List.cons_ne_nil _ _

set_option maxRecDepth 20000 in
theorem manifest_eq {loaded : List (Path × Mapping)}
    (h : loadFragments runtime tree (glob tree Path.isPending) = .ok loaded) :
    args.manifest runtime loaded = manifestDoc := by
  cases (loadFragments_eq pending_eq).symm.trans h
  rfl

set_option maxRecDepth 20000 in
theorem roundTrips : RoundTrips runtime args tree where
  yaml := fun loaded h => by
    rw [manifest_eq h]
    rfl
  json := rfl

/-- `git status --porcelain`: what was added or changed since a commit, and what was deleted. -/
def status (head t : Tree) : Except String (List String) :=
  let isNew : Path × String → Option String := fun (p, text) =>
    match head.get? p with
    | none => some ("?? " ++ p.relative)
    | some text' => if text = text' then none else some (" M " ++ p.relative)
  .ok (t.items.filterMap isNew ++ (head.keys.filter (!t.contains ·)).map fun p => " D " ++ p.relative)

set_option maxRecDepth 20000 in
theorem released_repository :
    commandRelease runtime (some (status tree)) args "tmp" tree = (ops, .ok ()) :=
  Prod.ext rfl (toOption_eq_some.1 rfl)

set_option maxRecDepth 20000 in
/-- An interrupted release is finished in a repository: here it has been interrupted when its first
    output was in place. -/
theorem resumes_renamed : ∃ ops', commandRelease runtime (some (status tree)) args "tmp2"
      (applyAll (ops.take 16) tree) = (ops', .ok ()) ∧
    Agrees (applyAll ops' (applyAll (ops.take 16) tree)) (applyAll ops tree) := by
  have hops : ops.take 16 <+: (commandRelease runtime (some (status tree)) args "tmp" tree).1 := by
    rw [released_repository]
    exact List.take_prefix 16 ops
  refine resumes roundTrips valid pending_ne released_repository
    (.again "tmp" .start hops fun p hp => ?_) (.inr (.inl ?_)) "tmp2"
  · rw [pending_eq, List.mem_singleton] at hp
    rw [hp]
    exact .inr rfl
  · have hmarker : ((applyAll (ops.take 16) tree).get? (Path.marker args.version)).isSome = true :=
      rfl
    exact fun hnone => nomatch (congrArg Option.isSome hnone).symm.trans hmarker

set_option maxRecDepth 20000 in
/-- A release that was interrupted between the creation of an archived file and its filling is not
    finished. -/
theorem stuck_created : ∃ e, commandRelease runtime none args "tmp2"
    (applyAll (ops.take 14) tree) = ([], .error e) := by
  refine stuck roundTrips valid pending_ne (fun p hp => ?_) released .start
    (List.take_prefix 14 ops) (fun hwhole => ?_) "tmp2"
  · rw [pending_eq, List.mem_singleton] at hp
    rw [hp]
    decide
  · have hlength : ((applyAll (ops.take 14) tree).get? (.archive "1.0.0" "fix-one.yml")).map
        String.length = some 0 := rfl
    rcases hwhole (.pending "fix-one.yml") (pending_eq ▸ List.mem_cons_self) with h | h
    · exact nomatch (congrArg (Option.map String.length) h).symm.trans hlength
    · exact nomatch (congrArg (Option.map String.length) h).symm.trans hlength

end Sample

end Dnlab.Changes
