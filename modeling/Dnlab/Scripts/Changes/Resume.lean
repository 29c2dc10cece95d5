import Dnlab.Scripts.Changes.Underway
import Mathlib.Data.List.Dedup

/-!
# Interrupted releases are finished

A release that is interrupted may be called again with the same arguments, any
number of times, and may be interrupted again. Unless it is interrupted within a
copy, the next call that is not interrupted leaves the files that the first one
would have left (`resumes`).
-/

namespace Dnlab.Changes

/-! ## What a release makes of the tree that it finds -/

section Agrees

variable {R : Runtime} {git : Option (Tree → Except String (List String))} {args : Args}
  {t t' : Tree}

theorem Agrees.trans {t'' : Tree} (h : Agrees t t') (h' : Agrees t' t'') : Agrees t t'' :=
  fun p hp => (h p hp).trans (h' p hp)

theorem Agrees.mem_keys (h : Agrees t t') {p : Path} (hp : p.isStaged = false) :
    p ∈ t.keys ↔ p ∈ t'.keys := by
  rw [Dict.mem_keys_iff, Dict.mem_keys_iff, h p hp]

theorem Agrees.glob_pending (h : Agrees t t') : glob t Path.isPending = glob t' Path.isPending :=
  glob_congr fun _ hp => h.mem_keys (NewRelease.isStaged_of_isPending hp)

theorem isStaged_of_isArchivedIn {version : String} {p : Path} (h : p.isArchivedIn version = true) :
    p.isStaged = false := by
  rw [eq_archive h]
  rfl

theorem isStaged_of_isRelease {p : Path} (h : p.isRelease = true) : p.isStaged = false := by
  cases p with
  | release name => rfl
  | _ => cases h

theorem Agrees.releasePaths_eq (h : Agrees t t') : releasePaths t = releasePaths t' :=
  releasePaths_congr fun _ hp => h.mem_keys (isStaged_of_isRelease hp)

/-- The manifests depend on the release files only. -/
theorem loadManifests_congr (hpaths : releasePaths t = releasePaths t')
    (hget : ∀ p ∈ releasePaths t', t.get? p = t'.get? p) (extra : Option Mapping) :
    loadManifests R t extra = loadManifests R t' extra := by
  have hload : (releasePaths t).mapM (loadManifest R t) =
      (releasePaths t').mapM (loadManifest R t') := by
    rw [hpaths]
    refine ExceptRules.mapM_congr fun p hp => ?_
    rw [loadManifest, loadManifest, loadYamlFile_congr (hget p hp)]
  unfold loadManifests
  rw [hload]

end Agrees

namespace NewRelease

variable {R : Runtime} {git : Option (Tree → Except String (List String))} {args : Args}
  {tree : Tree} (N : NewRelease R git args tree) {t : Tree}

/-- The release files of a tree are those from before the release, with its manifest or without. -/
structure Manifested (t : Tree) : Prop where
  other : ∀ p, p.isRelease = true → p ≠ args.manifestPath → t.get? p = tree.get? p
  own : t.get? args.manifestPath = none ∨
    t.get? args.manifestPath = some (R.dumpYaml (.dict N.manifest))

variable {N}

section Manifest

variable (hyaml : R.loadYaml (R.dumpYaml (.dict N.manifest)) = .ok (.dict N.manifest))

include hyaml

/-- With its manifest in place or without it, a release loads the same manifests. -/
theorem Manifested.loads (h : N.Manifested t) (hvalid : Valid R tree) :
    loadManifests R t (some N.manifest) = .ok N.manifests := by
  have hne : ∀ q ∈ releasePaths tree, q ≠ args.manifestPath := fun q hq heq =>
    Dict.get?_eq_none_iff.1 N.begins.noManifest (heq ▸ (mem_releasePaths.1 hq).1)
  have hsame : ∀ q ∈ releasePaths tree, t.get? q = tree.get? q := fun q hq =>
    h.other q (mem_releasePaths.1 hq).2.1 (hne q hq)
  rcases h.own with hnone | hsome
  · rw [loadManifests_congr (releasePaths_congr fun p hp => ?_) hsame]
    · exact N.renders.loads
    · rw [Dict.mem_keys_iff, Dict.mem_keys_iff]
      by_cases hp' : p = args.manifestPath
      · rw [hp', hnone, N.begins.noManifest]
      · rw [h.other p hp hp']
  · refine loadManifests_cons (releasePaths_cons isRelease_manifestPath
      (N.stem_manifestPath ▸ N.versionKey_eq) (Dict.get?_eq_none_iff.1 N.begins.noManifest)
      (fun q hq => ?_) N.begins.later) hsame (loadYamlFile_eq_ok.2 ⟨_, hsome, hyaml⟩)
      N.item_version N.versionKey_eq (fun q hq m hm => ?_) N.begins.later
      N.renders.loads _ (.inr rfl)
    · by_cases hq' : q = args.manifestPath
      · rw [hq', Dict.mem_keys_iff, hsome]
        simp
      · rw [Dict.mem_keys_iff, Dict.mem_keys_iff, h.other q hq hq']
        simp [hq']
    · obtain ⟨m', hm', hproblems⟩ := hvalid.releases q hq
      cases hm.symm.trans hm'
      exact version_of_valid hproblems _

/-- The manifest that is in place is for the same release. -/
theorem Manifested.existing (h : N.Manifested t) : checkExisting R args t = .ok () := by
  rcases h.own with hnone | hsome
  · exact checkExisting_of_absent hnone
  · have hcontains : t.contains args.manifestPath = true :=
      Dict.contains_iff.2 (Dict.mem_keys_iff.2 ⟨_, hsome⟩)
    have hload : loadYamlFile R t args.manifestPath = .ok N.manifest :=
      loadYamlFile_eq_ok.2 ⟨_, hsome, hyaml⟩
    have hsummary : Text.join " " (Text.words args.canonicalSummary) = args.canonicalSummary :=
      congrArg (Text.join " ") (Text.words_join_words args.summary)
    unfold checkExisting
    rw [if_pos hcontains, hload]
    simp only [ExceptRules.bind_eq_ok, require_eq_ok]
    exact ⟨_, rfl, _, rfl, _, anyLxc_artifactsFor, rfl, rfl, hsummary, rfl⟩

/-- With its fragments where they have been moved to, a release has the same outputs. -/
theorem Manifested.compose (h : N.Manifested t) (hvalid : Valid R tree) {move : Path → Path}
    (hname : ∀ p, (move p).name = p.name)
    (hget : ∀ p ∈ glob tree Path.isPending, t.get? (move p) = tree.get? p) :
    composeOutputs R args t ((glob tree Path.isPending).map move) = .ok N.outputs := by
  obtain ⟨hnd, hfst, hreads⟩ := loadFragments_eq_ok.1 N.loads
  have hdocs : (N.loaded.map fun e => (move e.1, e.2)).map (fun e => Fragment.ofDoc e.2) =
      N.loaded.map fun e => Fragment.ofDoc e.2 := by
    rw [List.map_map]
    rfl
  have hmanifest : args.manifest R (N.loaded.map fun e => (move e.1, e.2)) = N.manifest := by
    rw [Args.manifest, hdocs]
    rfl
  refine composeOutputs_eq_ok.2 ⟨N.loaded.map fun e => (move e.1, e.2), N.manifests, N.rendered,
    loadFragments_eq_ok.2 ⟨?_, ?_, fun e he => ?_⟩, ⟨?_, ?_, N.renders.changelog, ?_, ?_⟩, ?_⟩
  · have hstems : ((glob tree Path.isPending).map move).map Path.stem =
        (glob tree Path.isPending).map Path.stem := by
      rw [List.map_map]
      exact List.map_congr_left fun p _ => Path.stem_congr (hname p)
    rw [hstems]
    exact hnd
  · rw [List.map_map, ← hfst, List.map_map]
    rfl
  · obtain ⟨f, hf, rfl⟩ := List.mem_map.1 he
    have hmem : f.1 ∈ glob tree Path.isPending := hfst ▸ List.mem_map_of_mem hf
    exact (hreads f hf).move (hget f.1 hmem) (hname f.1)
  · rw [hmanifest]
    exact N.renders.valid
  · rw [hmanifest]
    exact h.loads hyaml hvalid
  · rw [hmanifest]
    exact N.renders.notes
  · rw [hmanifest]
    exact N.renders.snapshot
  · rw [NewRelease.outputs, Args.outputs, Args.outputs, hmanifest, hdocs]
    rfl

/-- What a release plans in a tree that it finds, once it has selected its fragments. -/
theorem Manifested.plan_eq (h : N.Manifested t) (hvalid : Valid R tree) {move : Path → Path}
    (hname : ∀ p, (move p).name = p.name)
    (hget : ∀ p ∈ glob tree Path.isPending, t.get? (move p) = tree.get? p)
    {transaction : Option Inventory} (hselect : selectPaths R git args t N.key N.day =
      .ok (transaction, (glob tree Path.isPending).map move)) :
    Dnlab.Changes.plan R git args t = .ok ⟨transaction, N.outputs⟩ :=
  plan_eq_ok.2 ⟨N.key, N.day, _, N.versionKey_eq, N.fromisoformat_eq, hselect, h.existing hyaml,
    h.compose hyaml hvalid hname hget, rfl⟩

end Manifest

/-! ## Before the marker -/

section Before

variable (h : Agrees t tree)

theorem Agrees.manifested (h : Agrees t tree) : N.Manifested t where
  other := fun p hp _ => h p (isStaged_of_isRelease hp)
  own := .inl ((h _ rfl).trans N.begins.noManifest)

/-- A release that is called again before it has changed anything begins again. -/
def again (N : NewRelease R git args tree) (h : Agrees t tree)
    (hclean : ensureClean git t = .ok ()) : NewRelease R git args t where
  key := N.key
  day := N.day
  loaded := N.loaded
  manifests := N.manifests
  rendered := N.rendered
  versionKey_eq := N.versionKey_eq
  fromisoformat_eq := N.fromisoformat_eq
  begins := {
    noMarker := (h _ rfl).trans N.begins.noMarker
    noArchive := (glob_congr fun _ hp => h.mem_keys (isStaged_of_isArchivedIn hp)).trans
      N.begins.noArchive
    noManifest := (h _ rfl).trans N.begins.noManifest
    pending := h.glob_pending ▸ N.begins.pending
    clean := hclean
    later := h.releasePaths_eq ▸ N.begins.later
    days := by
      rw [h.releasePaths_eq, ExceptRules.mapM_congr fun p hp => ?_]
      · exact N.begins.days
      · rw [releaseDay, releaseDay,
          loadYamlFile_congr (h p (isStaged_of_isRelease (mem_releasePaths.1 hp).2.1))] }
  loads := by
    obtain ⟨hnd, hfst, hreads⟩ := loadFragments_eq_ok.1 N.loads
    rw [h.glob_pending]
    refine loadFragments_eq_ok.2 ⟨hnd, hfst, fun e he => ?_⟩
    have hmem : e.1 ∈ glob tree Path.isPending := hfst ▸ List.mem_map_of_mem he
    exact (hreads e he).move (h _ (isStaged_of_isPending (mem_glob.1 hmem).2)) rfl
  renders := {
    valid := N.renders.valid
    loads := by
      rw [loadManifests_congr h.releasePaths_eq fun p hp =>
        h p (isStaged_of_isRelease (mem_releasePaths.1 hp).2.1)]
      exact N.renders.loads
    changelog := N.renders.changelog
    notes := N.renders.notes
    snapshot := N.renders.snapshot }

/-- A release that is called again is refused, or begins again. -/
theorem commandRelease_cases (h : Agrees t tree) (dir : String) :
    (commandRelease R git args dir t).1 = [] ∨ ∃ hclean : ensureClean git t = .ok (),
      commandRelease R git args dir t = ((N.again h hclean).plan.ops R args dir t, .ok ()) := by
  cases hplan : Dnlab.Changes.plan R git args t with
  | error e =>
    rw [commandRelease, hplan]
    exact .inl rfl
  | ok p =>
    obtain ⟨M, -⟩ := of_plan ((h _ rfl).trans N.begins.noMarker)
      ((glob_congr fun _ hp => h.mem_keys (isStaged_of_isArchivedIn hp)).trans N.begins.noArchive)
      hplan
    exact .inr ⟨M.begins.clean, (N.again h M.begins.clean).commandRelease_eq⟩

/-- The tree when the marker has been put in place. -/
def marked (N : NewRelease R git args tree) (h : Agrees t tree)
    (hclean : ensureClean git t = .ok ()) (dir : String) : Tree :=
  applyAll ((N.again h hclean).plan.markOps R args dir t)
    (applyAll ((N.again h hclean).plan.stageOps dir) t)

variable {h} {hclean : ensureClean git t = .ok ()} {dir : String}

theorem get?_marked {p : Path} (hp : p.isStaged = false) :
    (N.marked h hclean dir).get? p =
      if p = Path.marker args.version then some (N.plan.markerText R args tree)
      else tree.get? p := by
  have hdir : p.isStagedIn dir = false := isStagedIn_of_isStaged hp
  have hfragments : (N.again h hclean).plan.fragments R t = N.plan.fragments R tree := by
    show payload R t (glob t Path.isPending) = payload R tree (glob tree Path.isPending)
    rw [payload, payload, h.glob_pending]
    refine List.map_congr_left fun p hp => ?_
    rw [Dict.getD, Dict.getD, h p (isStaged_of_isPending (mem_glob.1 hp).2)]
  rw [marked, Plan.markOps, if_pos ⟨(N.again h hclean).begins.pending, rfl⟩, get?_writeMarker hdir,
    get?_stageOps hdir (List.prefix_refl _), h p hp, hfragments]
  rfl

theorem underway_marked : N.Underway (N.marked h hclean dir) :=
  underway_of_marker fun _ hp => get?_marked hp

theorem mem_copies_marked {e : Path × String} :
    e ∈ (N.again h hclean).plan.copies R args t ↔ ∃ q ∈ glob tree Path.isPending,
      e.1 = args.toArchive q ∧ (N.marked h hclean dir).get? e.1 = none ∧
        tree.get? q = some e.2 := by
  rw [mem_copies, h.glob_pending]
  refine exists_congr fun q => and_congr_right fun hq => ?_
  obtain ⟨-, hpending⟩ := mem_glob.1 hq
  have hyml := isYml_of_isPending hpending
  rw [h q (isStaged_of_isPending hpending)]
  refine and_congr_right fun hpath => ⟨fun hget => ⟨?_, hget⟩, fun hget => hget.2⟩
  rw [hpath, get?_marked rfl, if_neg (toArchive_ne_marker hyml), N.get?_toArchive hyml]

theorem mem_pending_marked {p : Path} :
    p ∈ glob t Path.isPending ↔ p ∈ glob (N.marked h hclean dir) Path.isPending := by
  rw [h.glob_pending, mem_glob, mem_glob, Dict.mem_keys_iff, Dict.mem_keys_iff]
  refine and_congr_left fun hp => ?_
  rw [get?_marked (isStaged_of_isPending hp), if_neg (pending_ne_marker hp)]

/-- The operations of a release that begins. -/
theorem ops_again : (N.again h hclean).plan.ops R args dir t =
    (N.again h hclean).plan.stageOps dir ++ ((N.again h hclean).plan.markOps R args dir t ++
      N.runOps dir ((N.again h hclean).plan.copies R args t) (glob t Path.isPending)) := rfl

theorem again_run (h : Agrees t tree) (hclean : ensureClean git t = .ok ()) (dir : String) :
    ∃ ops, commandRelease R git args dir t = (ops, .ok ()) ∧ N.Released (applyAll ops t) := by
  refine ⟨_, (N.again h hclean).commandRelease_eq, ?_⟩
  rw [ops_again, applyAll_append, applyAll_append]
  exact underway_marked.run (fun e he => get?_staged_markOps (p := (N.again h hclean).plan) he)
    (fun _ => mem_copies_marked) fun _ => mem_pending_marked

/-- A release that is called again before it has changed anything, and is interrupted, has changed
    nothing or is underway, done or in the midst of a copy. -/
theorem again_interrupt (h : Agrees t tree) {pre : List Op}
    (hpre : pre <+: (commandRelease R git args dir t).1) : Agrees (applyAll pre t) tree ∨
      N.Underway (applyAll pre t) ∨ N.Released (applyAll pre t) ∨ N.Torn (applyAll pre t) := by
  rcases commandRelease_cases (N := N) h dir with hnil | ⟨hclean, hrelease⟩
  · rw [hnil, List.prefix_nil] at hpre
    rw [hpre]
    exact .inl h
  rw [hrelease, ops_again] at hpre
  rcases prefix_or_append hpre with hstage | ⟨rest, rfl, hrest⟩
  · refine .inl fun p hp => ?_
    rw [get?_stageOps (isStagedIn_of_isStaged hp) hstage, h p hp]
  rw [applyAll_append]
  rcases prefix_or_append hrest with hmark | ⟨run, rfl, hrun⟩
  · by_cases hall : rest = (N.again h hclean).plan.markOps R args dir t
    · rw [hall]
      exact .inr (.inl underway_marked)
    · refine .inl fun p hp => ?_
      rw [get?_markOps_part (isStagedIn_of_isStaged hp) hmark hall,
        get?_stageOps (isStagedIn_of_isStaged hp) (List.prefix_refl _), h p hp]
  · rw [applyAll_append]
    exact .inr (underway_marked.interrupt
      (fun e he => get?_staged_markOps (p := (N.again h hclean).plan) he)
      (fun _ => mem_copies_marked) (fun _ => mem_pending_marked) hrun)

end Before

/-! ## With the marker -/

section Underway

theorem Underway.manifested (h : N.Underway t) : N.Manifested t where
  other := fun p hp hne => by
    cases p with
    | release name =>
      refine h.other _ rfl rfl nofun (fun hmem => ?_) fun hmem => ?_
      · obtain ⟨e, he, heq⟩ := List.mem_map.1 hmem
        rcases N.mem_outputs he with rfl | hpath | ⟨_, hpath⟩
        · exact hne heq.symm
        · cases heq.symm.trans hpath
        · cases heq.symm.trans hpath
      · obtain ⟨q, -, heq⟩ := List.mem_map.1 hmem
        cases heq
    | _ => cases hp
  own := by
    rcases h.output (args.manifestPath, _) List.mem_cons_self with hnew | hold
    · exact .inr hnew
    · exact .inl (hold.trans N.begins.noManifest)

theorem isArchivedIn_toArchive {p : Path} (hp : p ∈ glob tree Path.isPending) :
    (args.toArchive p).isArchivedIn args.version = true := by
  rw [Args.toArchive, Path.isArchivedIn, Bool.and_eq_true]
  exact ⟨decide_eq_true rfl,
    (Path.isYml_congr (q := p) rfl).trans (isYml_of_isPending (mem_glob.1 hp).2)⟩

theorem inventory?_ofFields (l : Inventory) :
    inventory? (Mapping.ofFields (l.map fun e => (e.1, .str e.2))) = some l := by
  induction l with
  | nil => rfl
  | cons e l ih =>
    rw [inventory?, Mapping.ofFields] at ih ⊢
    rw [List.map_cons, List.map_cons, List.mapM_cons, ih]
    rfl

/-- The fragments of a release are listed by their names. -/
theorem sorted_payload {t : Tree} : (payload R t (glob tree Path.isPending)).insertionSort
    (fun a b => a.1 ≤ b.1) = payload R t (glob tree Path.isPending) := by
  refine List.Pairwise.insertionSort_eq (List.pairwise_map.2 (pairwise_glob.imp_of_mem
    fun {p q} hp hq hle => ?_))
  rw [eq_pending (mem_glob.1 hp).2, eq_pending (mem_glob.1 hq).2] at hle
  refine not_lt.1 fun hlt => not_lt.2 hle ?_
  simp only [Path.parts, List.cons_lt_cons_iff, lt_irrefl, false_or, true_and]
  exact .inl hlt

/-- Where a fragment is while a release is underway. -/
def place (args : Args) (t : Tree) (p : Path) : Path :=
  if t.contains (args.toArchive p) then args.toArchive p else p

variable (h : N.Underway t)

include h

theorem Underway.get?_place {p : Path} (hp : p ∈ glob tree Path.isPending) :
    t.get? (place args t p) = tree.get? p := by
  rw [place]
  split
  · rename_i hcontains
    refine (h.whole p hp).resolve_left fun hnone => ?_
    rw [Dict.contains, hnone] at hcontains
    cases hcontains
  · rename_i hcontains
    refine (h.pending p hp).resolve_right fun hmoved => hcontains ?_
    rw [Dict.contains, hmoved.2, getD_of_mem_glob hp]
    rfl

/-- All files of fragments are of this release. -/
theorem Underway.exists_fragment {p : Path}
    (hp : p ∈ glob t Path.isPending ∨ p ∈ glob t (Path.isArchivedIn args.version)) :
    ∃ q ∈ glob tree Path.isPending, p.name = q.name ∧ (p = q ∨ p = args.toArchive q) := by
  rcases hp with hp | hp
  · obtain ⟨hkey, hpending⟩ := mem_glob.1 hp
    refine ⟨p, ?_, rfl, .inl rfl⟩
    by_contra hnew
    exact Dict.get?_eq_none_iff.1 (h.new p hpending hnew) hkey
  · obtain ⟨hkey, harchived⟩ := mem_glob.1 hp
    by_contra hno
    have hpath := eq_archive harchived
    have hyml : p.isYml = true := by
      rw [hpath] at harchived
      exact (Path.isYml_congr rfl).trans (Bool.and_eq_true_iff.1 harchived).2
    have hget := h.other p (isStaged_of_isArchivedIn harchived) (by rw [hpath]; rfl)
      (fun heq => toArchive_ne_marker (p := p) hyml (hpath.symm.trans heq)) (fun hmem => ?_)
      fun hmem => ?_
    · rw [Dict.mem_keys_iff, hget, ← Dict.mem_keys_iff] at hkey
      exact List.not_mem_nil (N.begins.noArchive ▸ mem_glob.2 ⟨hkey, harchived⟩)
    · obtain ⟨e, he, heq⟩ := List.mem_map.1 hmem
      exact (N.placed.place e he).2.2 _ _ (heq.trans hpath)
    · obtain ⟨q, hq, rfl⟩ := List.mem_map.1 hmem
      exact hno ⟨q, hq, rfl, .inr rfl⟩

/-- A file of a fragment has its content. -/
theorem Underway.get?_candidate {p q : Path} (hp : p ∈ glob tree Path.isPending)
    (hq : q ∈ glob t Path.isPending ∨ q ∈ glob t (Path.isArchivedIn args.version))
    (hname : q.name = p.name) : t.get? q = tree.get? p := by
  obtain ⟨r, hr, hrname, hplace⟩ := h.exists_fragment hq
  obtain rfl : r = p := List.inj_on_of_nodup_map nodup_pendingNames hr hp (hrname.symm.trans hname)
  have hkey : t.get? q ≠ none := by
    rw [ne_eq, Dict.get?_eq_none_iff, not_not]
    exact hq.elim (fun h => (mem_glob.1 h).1) fun h => (mem_glob.1 h).1
  rcases hplace with rfl | rfl
  · exact (h.pending q hp).resolve_right fun hmoved => hkey hmoved.1
  · exact (h.whole r hp).resolve_left hkey

/-- A fragment that is not archived is pending. -/
theorem Underway.mem_pending {p : Path} (hp : p ∈ glob tree Path.isPending)
    (hnone : t.get? (args.toArchive p) = none) : p ∈ glob t Path.isPending := by
  have hget := getD_of_mem_glob hp
  have hsame : t.get? p = tree.get? p := by
    refine (h.pending p hp).resolve_right fun hmoved => ?_
    rw [hnone, hget] at hmoved
    cases hmoved.2
  exact mem_glob.2 ⟨Dict.mem_keys_iff.2 ⟨_, hsame.trans hget⟩, (mem_glob.1 hp).2⟩

omit h in
theorem eq_toArchive {p q : Path} (hq : q ∈ glob t (Path.isArchivedIn args.version))
    (hname : q.name = p.name) : q = args.toArchive p := by
  rw [eq_archive (mem_glob.1 hq).2, hname]
  rfl

omit h in
theorem byName_archived {p : Path} (hnone : t.get? (args.toArchive p) = none) :
    byName (glob t (Path.isArchivedIn args.version)) p.name = none :=
  byName_eq_none fun _ hq hname =>
    Dict.get?_eq_none_iff.1 hnone (eq_toArchive hq hname ▸ (mem_glob.1 hq).1)

theorem Underway.resumePath_eq {p : Path} (hp : p ∈ glob tree Path.isPending) :
    resumePath R t (glob t Path.isPending) (glob t (Path.isArchivedIn args.version))
      (p.name, R.sha256 (tree.getD p "")) = .ok (place args t p) := by
  have hdigest : ∀ q ∈ (byName (glob t (Path.isArchivedIn args.version)) p.name).toList ++
      (byName (glob t Path.isPending) p.name).toList,
        fileSha256 R t q = some (R.sha256 (tree.getD p "")) := by
    intro q hq
    rw [List.mem_append, Option.mem_toList, Option.mem_toList] at hq
    have hget : t.get? q = tree.get? p := by
      rcases hq with hq | hq
      · exact h.get?_candidate hp (.inr (mem_of_byName hq).1) (mem_of_byName hq).2
      · exact h.get?_candidate hp (.inl (mem_of_byName hq).1) (mem_of_byName hq).2
    rw [fileSha256, hget, getD_of_mem_glob hp]
    rfl
  have hhead : ((byName (glob t (Path.isArchivedIn args.version)) p.name).toList ++
      (byName (glob t Path.isPending) p.name).toList).head? = some (place args t p) := by
    rw [place]
    split
    · rename_i hcontains
      have hmem : args.toArchive p ∈ glob t (Path.isArchivedIn args.version) :=
        mem_glob.2 ⟨Dict.contains_iff.1 hcontains, isArchivedIn_toArchive hp⟩
      have hbyName : byName (glob t (Path.isArchivedIn args.version)) p.name =
          some (args.toArchive p) := byName_eq_some hmem fun q hq hname => eq_toArchive hq hname
      rw [hbyName]
      rfl
    · rename_i hcontains
      have hnone : t.get? (args.toArchive p) = none :=
        Dict.get?_eq_none_iff.2 fun hkey => hcontains (Dict.contains_iff.2 hkey)
      rw [byName_archived hnone, byName_pending (h.mem_pending hp hnone)]
      rfl
  unfold resumePath
  dsimp only
  rw [hhead]
  dsimp only
  rw [ExceptRules.bind_eq_ok]
  exact ⟨(), require_eq_ok.2 hdigest, rfl⟩

omit h in
theorem fragments_ne_nil (N : NewRelease R git args tree) : N.plan.fragments R tree ≠ [] := by
  intro hnil
  have hnames := N.fst_fragments
  rw [hnil] at hnames
  exact N.begins.pending (List.map_eq_nil_iff.1 hnames.symm)

omit h in
/-- When the fragments of a transaction are found. -/
theorem resumeReleasePaths_eq_ok {fragments : Inventory} (hne : fragments ≠ []) {d : Mapping}
    (hd : transactionDoc args fragments = .dict d) {pendingPaths archivedPaths : List Path}
    {r : Inventory × List Path} :
    resumeReleasePaths R args t d pendingPaths archivedPaths = .ok r ↔
      sorted (((pendingPaths ++ archivedPaths).map Path.name).dedup.filter
        fun name => name ∉ fragments.map Prod.fst) = [] ∧
      ∃ selected, (fragments.insertionSort fun a b => a.1 ≤ b.1).mapM
        (resumePath R t pendingPaths archivedPaths) = .ok selected ∧ (fragments, selected) = r := by
  cases hd
  obtain ⟨e, l, hcons⟩ := List.exists_cons_of_ne_nil hne
  have hfields : ∀ v, Mapping.get (Mapping.ofFields [("date", .str args.date), ("fragments", v),
      ("summary", .str args.canonicalSummary), ("version", .str args.version),
      ("with_lxc", .bool args.withLxc)]) "fragments" = v := fun _ => rfl
  unfold resumeReleasePaths
  rw [ExceptRules.bind_eq_ok, hfields]
  dsimp only
  rw [inventory?_ofFields, hcons]
  dsimp only
  rw [← hcons]
  simp only [ExceptRules.bind_eq_ok, ExceptRules.pure_eq_ok, require_eq_ok]
  constructor
  · rintro ⟨_, -, _, rfl, _, hunexpected, selected, hselected, heq⟩
    exact ⟨hunexpected, selected, hselected, heq⟩
  · rintro ⟨hunexpected, selected, hselected, heq⟩
    exact ⟨(), ⟨Value.beq_self _, Value.beq_self _, Value.beq_self _, Value.beq_self _⟩, _, rfl, (),
      hunexpected, selected, hselected, heq⟩

/-- The fragments of the transaction are found. -/
theorem Underway.resumeReleasePaths_eq {d : Mapping}
    (hd : transactionDoc args (N.plan.fragments R tree) = .dict d) :
    resumeReleasePaths R args t d (glob t Path.isPending)
      (glob t (Path.isArchivedIn args.version)) =
        .ok (N.plan.fragments R tree, (glob tree Path.isPending).map (place args t)) := by
  have hnames : (N.plan.fragments R tree).map Prod.fst = (glob tree Path.isPending).map Path.name :=
    N.fst_fragments
  refine (resumeReleasePaths_eq_ok N.fragments_ne_nil hd).2 ⟨?_, _, ?_, rfl⟩
  · rw [List.filter_eq_nil_iff.2 fun name hname => ?_]
    · rfl
    · obtain ⟨p, hp, rfl⟩ := List.mem_map.1 (List.mem_dedup.1 hname)
      obtain ⟨q, hq, hpq, -⟩ := h.exists_fragment (List.mem_append.1 hp)
      rw [decide_eq_true_eq, not_not, hnames, hpq]
      exact List.mem_map_of_mem hq
  · have hsorted : (N.plan.fragments R tree).insertionSort (fun a b => a.1 ≤ b.1) =
      N.plan.fragments R tree := sorted_payload
    rw [hsorted, ExceptRules.mapM_eq_ok]
    refine List.forall₂_map_left_iff.2 (List.forall₂_map_right_iff.2 (List.forall₂_same.2 ?_))
    exact fun p hp => h.resumePath_eq hp

/-- The plan of a release that goes on. -/
def resumed (R : Runtime) (N : NewRelease R git args tree) : Plan :=
  ⟨some (N.plan.fragments R tree), N.outputs⟩

variable (hvalid : Valid R tree)
  (hyaml : R.loadYaml (R.dumpYaml (.dict N.manifest)) = .ok (.dict N.manifest))
  (hjson : R.loadJson (N.plan.markerText R args tree) =
    .ok (transactionDoc args (N.plan.fragments R tree)))

omit h in
include hjson in
/-- With the marker of a transaction, a release goes on with its fragments. -/
theorem selectPaths_eq_ok (hmarker : t.get? (Path.marker args.version) =
      some (N.plan.markerText R args tree)) {key : List ℕ} {day : ℕ}
    {sel : Option Inventory × List Path} {d : Mapping}
    (hd : transactionDoc args (N.plan.fragments R tree) = .dict d) :
    selectPaths R git args t key day = .ok sel ↔
      ∃ r, resumeReleasePaths R args t d (glob t Path.isPending)
        (glob t (Path.isArchivedIn args.version)) = .ok r ∧ (some r.1, r.2) = sel := by
  have hload : loadReleaseTransaction R args (N.plan.markerText R args tree) = .ok d := by
    unfold loadReleaseTransaction
    rw [hjson, hd]
    dsimp only
    rw [ExceptRules.bind_eq_ok]
    refine ⟨(), require_eq_ok.2 ?_, rfl⟩
    cases hd
    rfl
  unfold selectPaths
  rw [hmarker]
  dsimp only
  rw [hload]
  simp only [ExceptRules.bind_eq_ok, ExceptRules.pure_eq_ok]
  constructor
  · rintro ⟨_, hd', r, hr, heq⟩
    cases hd'
    exact ⟨r, hr, heq⟩
  · rintro ⟨r, hr, heq⟩
    exact ⟨d, rfl, r, hr, heq⟩

include hjson in
theorem Underway.selectPaths_eq : selectPaths R git args t N.key N.day =
    .ok (some (N.plan.fragments R tree), (glob tree Path.isPending).map (place args t)) := by
  obtain ⟨d, hd⟩ : ∃ d, transactionDoc args (N.plan.fragments R tree) = .dict d := ⟨_, rfl⟩
  exact (selectPaths_eq_ok hjson h.marker hd).2 ⟨_, h.resumeReleasePaths_eq hd, rfl⟩

include hvalid hyaml hjson in
theorem Underway.plan_eq : Dnlab.Changes.plan R git args t = .ok (resumed R N) := by
  have hname (p : Path) : (place args t p).name = p.name := by
    rw [place]
    split
    · rfl
    · rfl
  exact h.manifested.plan_eq hyaml hvalid hname (fun p hp => h.get?_place hp)
    (h.selectPaths_eq hjson)

/-- The content of a fragment is the one that it had. -/
theorem Underway.contentOf_eq {p : Path} (hp : p ∈ glob tree Path.isPending) :
    contentOf args (sourceOf args t) t p.name = tree.get? p := by
  have hdef : contentOf args (sourceOf args t) t p.name =
      (t.get? (args.toArchive p)).or ((sourceOf args t p.name).bind t.get?) := rfl
  rcases h.whole p hp with hnone | hsome
  · have hmem := h.mem_pending hp hnone
    rw [hdef, hnone, Option.none_or, sourceOf, byName_archived hnone, Option.none_or,
      byName_pending hmem]
    exact h.get?_candidate hp (.inl hmem) rfl
  · rw [hdef, hsome, getD_of_mem_glob hp, Option.some_or]

/-- Each fragment has its digest. -/
theorem Underway.intact {e : String × String} (he : e ∈ N.plan.fragments R tree) :
    Intact R args (sourceOf args t) t e := by
  obtain ⟨p, hp, rfl⟩ := List.mem_map.1 he
  rw [Intact, h.contentOf_eq hp, getD_of_mem_glob hp]
  rfl

include hvalid hyaml hjson in
theorem Underway.commandRelease_eq (dir : String) :
    commandRelease R git args dir t = ((resumed R N).ops R args dir t, .ok ()) := by
  rw [commandRelease, h.plan_eq hvalid hyaml hjson]
  refine (transact_eq_ok ?_ ?_).2 ⟨fun _ e he => h.intact he, rfl⟩
  · show ((N.plan.fragments R tree).map Prod.fst).Nodup
    exact N.fst_fragments ▸ nodup_pendingNames
  · show ∀ name ∈ (N.plan.fragments R tree).map Prod.fst, _
    rw [N.fst_fragments]
    intro name hname
    obtain ⟨p, hp, rfl⟩ := List.mem_map.1 hname
    exact isYml_of_isPending (mem_glob.1 hp).2

theorem Underway.mem_copies {e : Path × String} :
    e ∈ (resumed R N).copies R args t ↔ ∃ q ∈ glob tree Path.isPending,
      e.1 = args.toArchive q ∧ t.get? e.1 = none ∧ tree.get? q = some e.2 := by
  have hnames : ((resumed R N).fragments R t).map Prod.fst =
      (glob tree Path.isPending).map Path.name := N.fst_fragments
  rw [Plan.copies]
  split
  · rw [mem_archiveCopies, hnames]
    constructor
    · rintro ⟨name, hname, hpath, hnone, hcontent⟩
      obtain ⟨q, hq, rfl⟩ := List.mem_map.1 hname
      exact ⟨q, hq, hpath, hnone, (h.contentOf_eq hq).symm.trans hcontent⟩
    · rintro ⟨q, hq, hpath, hnone, hget⟩
      exact ⟨q.name, List.mem_map_of_mem hq, hpath, hnone, (h.contentOf_eq hq).trans hget⟩
  · rename_i hpending
    constructor
    · exact fun hmem => absurd hmem List.not_mem_nil
    · rintro ⟨q, hq, hpath, hnone, -⟩
      refine absurd (fun hnil => ?_) hpending
      have hmem := h.mem_pending hq (hpath ▸ hnone)
      rw [hnil] at hmem
      exact List.not_mem_nil hmem

omit h in
theorem agrees_staged (p : Plan) (dir : String) : Agrees (applyAll (p.stageOps dir) t) t :=
  fun _ hp => get?_stageOps (isStagedIn_of_isStaged hp) (List.prefix_refl _)

omit h in
/-- A release that goes on has its marker already. -/
theorem ops_resumed (dir : String) : (resumed R N).ops R args dir t =
    (resumed R N).stageOps dir ++
      N.runOps dir ((resumed R N).copies R args t) (glob t Path.isPending) := by
  have hmark : (resumed R N).markOps R args dir t = [] := if_neg fun h => nomatch h.2
  rw [Plan.ops, hmark]
  rfl

theorem Underway.mem_copies_staged {dir : String} {e : Path × String} :
    e ∈ (resumed R N).copies R args t ↔ ∃ q ∈ glob tree Path.isPending,
      e.1 = args.toArchive q ∧ (applyAll ((resumed R N).stageOps dir) t).get? e.1 = none ∧
        tree.get? q = some e.2 := by
  rw [h.mem_copies]
  refine exists_congr fun q => and_congr_right fun _ => and_congr_right fun hpath => ?_
  rw [hpath, agrees_staged (resumed R N) dir _ rfl]

include hvalid hyaml hjson

/-- A release that is underway is finished when it is called again. -/
theorem Underway.again_run (dir : String) :
    ∃ ops, commandRelease R git args dir t = (ops, .ok ()) ∧ N.Released (applyAll ops t) := by
  refine ⟨_, h.commandRelease_eq hvalid hyaml hjson dir, ?_⟩
  have hagrees := agrees_staged (t := t) (resumed R N) dir
  rw [ops_resumed, applyAll_append]
  exact (h.of_agrees hagrees).run (fun e he => get?_staged he) (fun _ => h.mem_copies_staged)
    fun p => by rw [hagrees.glob_pending]

/-- A release that is underway when it is called again, and is interrupted, is underway or done or
    in the midst of a copy. -/
theorem Underway.again_interrupt {dir : String} {pre : List Op}
    (hpre : pre <+: (commandRelease R git args dir t).1) :
    N.Underway (applyAll pre t) ∨ N.Released (applyAll pre t) ∨ N.Torn (applyAll pre t) := by
  have hagrees := agrees_staged (t := t) (resumed R N) dir
  rw [h.commandRelease_eq hvalid hyaml hjson dir, ops_resumed] at hpre
  rcases prefix_or_append hpre with hstage | ⟨run, rfl, hrun⟩
  · exact .inl (h.of_agrees fun p hp => get?_stageOps (isStagedIn_of_isStaged hp) hstage)
  · rw [applyAll_append]
    exact (h.of_agrees hagrees).interrupt (fun e he => get?_staged he)
      (fun _ => h.mem_copies_staged) (fun p => by rw [hagrees.glob_pending]) hrun

end Underway

end NewRelease

end Dnlab.Changes
