import Dnlab.Scripts.Changes.Release

/-!
# A release validates

When a release of pending fragments is done in a tree that `validate` accepts,
`validate` accepts the result, with the tag of the release (`validates`).
-/

namespace Dnlab.Changes

/-! ## What is valid -/

section Valid

variable {R : Runtime} {tree : Tree}

/-- Fragments can be loaded if each of them is valid, and no two of them have one name. -/
theorem exists_loadFragments {paths : List Path} : (∃ l, loadFragments R tree paths = .ok l) ↔
    (paths.map Path.stem).Nodup ∧ ∀ p ∈ paths, ∃ data, Reads R tree p data := by
  simp only [loadFragments_eq_ok]
  constructor
  · rintro ⟨l, hnd, rfl, hreads⟩
    refine ⟨hnd, fun p hp => ?_⟩
    obtain ⟨e, he, rfl⟩ := List.mem_map.1 hp
    exact ⟨e.2, hreads e he⟩
  · rintro ⟨hnd, hall⟩
    choose! data hdata using hall
    refine ⟨paths.map fun p => (p, data p), hnd, ?_, fun e he => ?_⟩
    · rw [List.map_map]
      exact List.map_id' paths
    · obtain ⟨p, hp, rfl⟩ := List.mem_map.1 he
      exact hdata p hp

/-- A fragment, pending or archived. -/
def Path.isFragment (p : Path) : Bool := p.isPending || p.isArchived

/-- What `validate` asks of a tree. -/
structure Valid (R : Runtime) (tree : Tree) : Prop where
  noMarkers : glob tree Path.isMarker = []
  names : ((glob tree Path.isFragment).map Path.stem).Nodup
  fragments : ∀ p ∈ glob tree Path.isFragment, ∃ data, Reads R tree p data
  releases : ∀ p ∈ releasePaths tree, ∃ m, loadYamlFile R tree p = .ok m ∧
    validateReleaseManifest R p.relative p.stem m = .ok []
  changelog : ∃ ms expected, loadManifests R tree none = .ok ms ∧
    renderChangelog R ms = .ok expected ∧ tree.get? .changelog = some expected

/-- The problems of all releases are none if none of them has one. -/
theorem mapM_problems {paths : List Path} : (∃ errors, paths.mapM (fun p => do
      let manifest ← loadYamlFile R tree p
      validateReleaseManifest R p.relative p.stem manifest) = .ok errors ∧ errors.flatten = []) ↔
    ∀ p ∈ paths, ∃ m, loadYamlFile R tree p = .ok m ∧
      validateReleaseManifest R p.relative p.stem m = .ok [] := by
  induction paths with
  | nil => exact ⟨fun _ _ h => absurd h List.not_mem_nil, fun _ => ⟨[], rfl, rfl⟩⟩
  | cons p paths ih =>
    rw [List.forall_mem_cons, ← ih]
    simp only [List.mapM_cons, ExceptRules.bind_eq_ok, ExceptRules.pure_eq_ok]
    constructor
    · rintro ⟨_, ⟨e, ⟨m, hm, he⟩, es, hes, rfl⟩, hnil⟩
      obtain ⟨rfl, hnil⟩ := List.append_eq_nil_iff.1 hnil
      exact ⟨⟨m, hm, he⟩, es, hes, hnil⟩
    · rintro ⟨⟨m, hm, he⟩, es, hes, hnil⟩
      exact ⟨_, ⟨[], ⟨m, hm, he⟩, es, hes, rfl⟩, hnil⟩

theorem validateAll_eq_ok {tag : Option String} : validateAll R tree tag = .ok () ↔
    Valid R tree ∧ ∀ s, tag = some s → s ≠ "" → validateTag R tree s = .ok () := by
  unfold validateAll
  simp only [ExceptRules.bind_eq_ok, require_eq_ok]
  constructor
  · rintro ⟨_, hmarkers, l, hl, errors, herrors, _, hnil, ms, hms, expected, hexpected, _, -, _,
      hchangelog, htag⟩
    obtain ⟨hnames, hfragments⟩ := exists_loadFragments.1 ⟨l, hl⟩
    refine ⟨⟨hmarkers, hnames, hfragments, mapM_problems.1 ⟨errors, herrors, hnil⟩, ms, expected,
      hms, hexpected, hchangelog⟩, ?_⟩
    rintro s rfl hs
    exact (if_pos hs).symm.trans htag
  · rintro ⟨h, htag⟩
    obtain ⟨l, hl⟩ := exists_loadFragments.2 ⟨h.names, h.fragments⟩
    obtain ⟨errors, herrors, hnil⟩ := mapM_problems.2 h.releases
    obtain ⟨ms, expected, hms, hexpected, hchangelog⟩ := h.changelog
    refine ⟨(), h.noMarkers, l, hl, errors, herrors, (), hnil, ms, hms, expected, hexpected, (), ?_,
      (), hchangelog, ?_⟩
    · rw [Dict.contains, hchangelog]
      rfl
    · cases tag with
      | none => rfl
      | some s =>
        dsimp only
        split
        · exact htag s rfl ‹_›
        · rfl

/-- A release manifest without problems is for the version that its file is named by. -/
theorem version_of_valid {name stem : String} {m : Mapping}
    (h : validateReleaseManifest R name stem m = .ok []) (v : Value) :
    (m.getD "version" v).print = stem := by
  obtain ⟨l, hl, hnil⟩ := ExceptRules.map_eq_ok.1 h
  obtain rfl := List.map_eq_nil_iff.1 hnil
  rw [manifestProblems] at hl
  simp only [ExceptRules.bind_eq_ok, ExceptRules.pure_eq_ok, List.append_eq_nil_iff,
    check_eq_nil, decide_eq_true_eq] at hl
  obtain ⟨_, -, _, -, _, -, ⟨⟨⟨⟨⟨⟨⟨⟨⟨⟨hmissing, -⟩, hversion⟩, -⟩, -⟩, -⟩, -⟩, -⟩, -⟩, -⟩, -⟩⟩ := hl
  have hhas : m.has "version" = true := by
    by_contra hno
    have hmem : "version" ∈ sorted (requiredFields.filter (!m.has ·)) := by
      rw [sorted, List.mem_insertionSort, List.mem_filter]
      exact ⟨by decide, by simpa using hno⟩
    rw [List.isEmpty_iff.1 hmissing] at hmem
    exact absurd hmem List.not_mem_nil
  obtain ⟨w, hw⟩ := Option.isSome_iff_exists.1 hhas
  rw [Mapping.getD, hw, Option.getD_some] at hversion ⊢
  exact hversion.symm

end Valid

/-! ## After a release -/

theorem removeStart_tag {version : String} : Text.removeStart ("v" ++ version) "v" = version := by
  rw [Text.removeStart, Text.startsWith, String.toList_append,
    if_pos (List.isPrefixOf_iff_prefix.2 (List.prefix_append _ _)), List.drop_left,
    String.ofList_toList]

theorem anyLxc_artifactsFor {version : String} {withLxc : Bool} :
    anyLxc (artifactsFor version withLxc) = .ok withLxc := by
  cases withLxc <;> rfl

theorem name_of_isMarker {version name : String} (h : (Path.archive version name).isMarker = true) :
    name = ".release-transaction.json" := by
  unfold Path.isMarker at h
  split at h
  · rename_i heq
    exact (Path.archive.inj heq).2
  · cases h

theorem archive_parts_le {version name name' : String} :
    (Path.archive version name).parts ≤ (Path.archive version name').parts ↔
      (Path.pending name).parts ≤ (Path.pending name').parts := by
  refine not_lt.symm.trans ((not_congr ?_).trans not_lt)
  simp only [Path.parts, List.cons_lt_cons_iff, lt_irrefl, false_or, true_and]

/-- Where a fragment is after a release. -/
def Args.moved (args : Args) (p : Path) : Path :=
  if p.isPending = true then args.toArchive p else p

namespace NewRelease

variable {R : Runtime} {git : Option (Tree → Except String (List String))} {args : Args}
  {tree : Tree} (N : NewRelease R git args tree)

include N in
theorem version_ne : args.version ≠ "" := by
  intro h
  have hkey := N.versionKey_eq
  rw [h] at hkey
  have hnone : (versionKey "").toOption = none := by decide
  rw [toOption_eq_some.2 hkey] at hnone
  cases hnone

include N in
theorem stem_manifestPath : args.manifestPath.stem = args.version :=
  Path.stem_of_name rfl N.version_ne

theorem item_version : N.manifest.item "version" = .ok (.str args.version) := rfl

theorem isRelease_manifestPath : args.manifestPath.isRelease = true :=
  Path.isYml_name

namespace Released

variable {N} {t : Tree} (h : N.Released t)

include h

theorem get?_release {p : Path} (hp : p.isRelease = true) (hne : p ≠ args.manifestPath) :
    t.get? p = tree.get? p := by
  cases p with
  | release name =>
    refine h.other _ rfl rfl nofun (fun hmem => ?_) fun hmem => ?_
    · obtain ⟨e, he, heq⟩ := List.mem_map.1 hmem
      rcases N.mem_outputs he with rfl | hpath | ⟨_, hpath⟩
      · exact hne heq.symm
      · cases heq.symm.trans hpath
      · cases heq.symm.trans hpath
    · obtain ⟨q, -, heq⟩ := List.mem_map.1 hmem
      cases heq
  | _ => cases hp

theorem get?_manifestPath : t.get? args.manifestPath = some (R.dumpYaml (.dict N.manifest)) :=
  h.output (args.manifestPath, _) List.mem_cons_self

theorem get?_archive {version name : String}
    (hmarker : Path.archive version name ≠ Path.marker args.version)
    (hnew : Path.archive version name ∉ (glob tree Path.isPending).map args.toArchive) :
    t.get? (.archive version name) = tree.get? (.archive version name) := by
  refine h.other _ rfl rfl hmarker (fun hmem => ?_) hnew
  obtain ⟨e, he, heq⟩ := List.mem_map.1 hmem
  exact (N.placed.place e he).2.2 _ _ heq

/-- The fragments that were archived are as they were. -/
theorem get?_archived {p : Path} (hp : p.isArchived = true)
    (hnew : p ∉ (glob tree Path.isPending).map args.toArchive) : t.get? p = tree.get? p := by
  cases p with
  | archive version name =>
    refine h.get?_archive (fun heq => ?_) hnew
    cases heq
    have hyml : Text.endsWith ".release-transaction.json" ".yml" = true :=
      (Bool.and_eq_true_iff.1 hp).2
    exact absurd hyml (by decide)
  | _ => cases hp

theorem glob_pending : glob t Path.isPending = [] := by
  refine glob_eq_nil.2 fun p hkey => ?_
  by_contra hpending
  exact Dict.get?_eq_none_iff.1 (h.pending p (by simpa using hpending)) hkey

/-- A fragment has been moved with its name and its content. -/
theorem exists_fragment {p : Path} (hp : p ∈ glob t Path.isFragment) :
    ∃ q ∈ glob tree Path.isFragment, p = args.moved q ∧ p.name = q.name ∧
      t.get? p = tree.get? q := by
  obtain ⟨hkey, hfragment⟩ := mem_glob.1 hp
  have hpending : p.isPending = false := by
    by_contra hpending
    rw [Bool.not_eq_false] at hpending
    exact Dict.get?_eq_none_iff.1 (h.pending p hpending) hkey
  have harchived : p.isArchived = true := by
    rwa [Path.isFragment, hpending, Bool.false_or] at hfragment
  by_cases hnew : p ∈ (glob tree Path.isPending).map args.toArchive
  · obtain ⟨q, hq, rfl⟩ := List.mem_map.1 hnew
    obtain ⟨hqkey, hqpending⟩ := mem_glob.1 hq
    refine ⟨q, mem_glob.2 ⟨hqkey, ?_⟩, (if_pos hqpending).symm, rfl, h.archived q hq⟩
    rw [Path.isFragment, hqpending, Bool.true_or]
  · have hget := h.get?_archived harchived hnew
    refine ⟨p, mem_glob.2 ⟨?_, hfragment⟩, (if_neg ?_).symm, rfl, hget⟩
    · rw [Dict.mem_keys_iff, ← hget]
      exact Dict.mem_keys_iff.1 hkey
    · rw [hpending]
      exact Bool.false_ne_true

theorem releasePaths_eq : releasePaths t = args.manifestPath :: releasePaths tree := by
  refine releasePaths_cons isRelease_manifestPath (N.stem_manifestPath ▸ N.versionKey_eq)
    (Dict.get?_eq_none_iff.1 N.begins.noManifest) (fun q hq => ?_) N.begins.later
  by_cases hne : q = args.manifestPath
  · rw [hne, Dict.mem_keys_iff, h.get?_manifestPath]
    simp
  · rw [Dict.mem_keys_iff, Dict.mem_keys_iff, h.get?_release hq hne]
    simp [hne]

/-- The archive of the version holds the fragments that were pending, in their order. -/
theorem glob_archive : glob t (Path.isArchivedIn args.version) =
    (glob tree Path.isPending).map args.toArchive := by
  refine eq_of_sorted pairwise_glob ?_ nodup_glob ?_ fun p => ?_
  · refine (List.pairwise_map.2 (pairwise_glob.imp_of_mem fun hp hq hle => ?_))
    rw [eq_pending (mem_glob.1 hp).2, eq_pending (mem_glob.1 hq).2] at hle
    exact archive_parts_le.2 hle
  · exact nodup_glob.map_on fun p hp q hq => eq_of_toArchive hp hq
  · constructor
    · intro hp
      obtain ⟨hkey, harchive⟩ := mem_glob.1 hp
      by_contra hnew
      have harchived : p.isArchived = true := by
        cases p with
        | archive version name => exact (Bool.and_eq_true_iff.1 harchive).2
        | _ => cases harchive
      rw [Dict.mem_keys_iff, h.get?_archived harchived hnew, ← Dict.mem_keys_iff] at hkey
      exact List.not_mem_nil (N.begins.noArchive ▸ mem_glob.2 ⟨hkey, harchive⟩)
    · intro hp
      obtain ⟨q, hq, rfl⟩ := List.mem_map.1 hp
      obtain ⟨hkey, hpending⟩ := mem_glob.1 hq
      refine mem_glob.2 ⟨?_, ?_⟩
      · rw [Dict.mem_keys_iff, h.archived q hq]
        exact Dict.mem_keys_iff.1 hkey
      · rw [Args.toArchive, Path.isArchivedIn, Bool.and_eq_true]
        exact ⟨decide_eq_true rfl, (Path.isYml_congr (q := q) rfl).trans
          (isYml_of_isPending hpending)⟩

theorem loadFragments_archive : loadFragments R t (glob t (Path.isArchivedIn args.version)) =
    .ok (N.loaded.map fun e => (args.toArchive e.1, e.2)) := by
  obtain ⟨hnd, hfst, hreads⟩ := loadFragments_eq_ok.1 N.loads
  refine loadFragments_eq_ok.2 ⟨?_, ?_, fun e he => ?_⟩
  · rw [h.glob_archive, List.map_map]
    exact hnd
  · rw [h.glob_archive, List.map_map, ← hfst, List.map_map]
    rfl
  · obtain ⟨f, hf, rfl⟩ := List.mem_map.1 he
    have hmem : f.1 ∈ glob tree Path.isPending := hfst ▸ List.mem_map_of_mem hf
    exact (hreads f hf).move (h.archived f.1 hmem) rfl

section Manifest

variable (hyaml : R.loadYaml (R.dumpYaml (.dict N.manifest)) = .ok (.dict N.manifest))

include hyaml

theorem loadYamlFile_manifestPath : loadYamlFile R t args.manifestPath = .ok N.manifest :=
  loadYamlFile_eq_ok.2 ⟨_, h.get?_manifestPath, hyaml⟩

theorem loadManifests_eq (hvalid : Valid R tree) : loadManifests R t none = .ok N.manifests := by
  refine loadManifests_cons h.releasePaths_eq (fun q hq => ?_)
    (h.loadYamlFile_manifestPath hyaml) N.item_version N.versionKey_eq
    (fun q hq m hm => ?_) N.begins.later N.renders.loads none (.inl rfl)
  · obtain ⟨hkey, hrelease, -⟩ := mem_releasePaths.1 hq
    refine h.get?_release hrelease fun heq => ?_
    exact Dict.get?_eq_none_iff.1 N.begins.noManifest (heq ▸ hkey)
  · obtain ⟨m', hm', hproblems⟩ := hvalid.releases q hq
    cases hm.symm.trans hm'
    exact version_of_valid hproblems _

/-- A valid tree is valid after a release. -/
theorem valid (hvalid : Valid R tree) : Valid R t where
  noMarkers := by
    rw [glob_eq_nil]
    intro p hkey
    by_contra hmarker
    rw [Bool.not_eq_false] at hmarker
    cases p with
    | archive version name =>
      obtain rfl := name_of_isMarker hmarker
      by_cases hversion : version = args.version
      · rw [hversion] at hkey
        exact Dict.get?_eq_none_iff.1 h.marker hkey
      · rw [Dict.mem_keys_iff, h.get?_archive, ← Dict.mem_keys_iff] at hkey
        · have hmem := mem_glob.2 ⟨hkey, hmarker⟩
          rw [hvalid.noMarkers] at hmem
          exact absurd hmem List.not_mem_nil
        · intro heq
          cases heq
          exact hversion rfl
        · intro hmem
          obtain ⟨q, -, heq⟩ := List.mem_map.1 hmem
          exact hversion (Path.archive.inj heq).1.symm
    | _ => cases hmarker
  names := by
    rw [List.nodup_map_iff_inj_on nodup_glob]
    intro p hp q hq hstem
    obtain ⟨p', hp', rfl, hpname, -⟩ := h.exists_fragment hp
    obtain ⟨q', hq', rfl, hqname, -⟩ := h.exists_fragment hq
    rw [Path.stem_congr hpname, Path.stem_congr hqname] at hstem
    rw [List.inj_on_of_nodup_map hvalid.names hp' hq' hstem]
  fragments := fun p hp => by
    obtain ⟨q, hq, -, hname, hget⟩ := h.exists_fragment hp
    obtain ⟨data, hdata⟩ := hvalid.fragments q hq
    exact ⟨data, hdata.move hget hname⟩
  releases := by
    rw [h.releasePaths_eq, List.forall_mem_cons]
    refine ⟨⟨N.manifest, h.loadYamlFile_manifestPath hyaml, N.renders.valid⟩, fun p hp => ?_⟩
    obtain ⟨m, hm, hproblems⟩ := hvalid.releases p hp
    obtain ⟨hkey, hrelease, -⟩ := mem_releasePaths.1 hp
    refine ⟨m, ?_, hproblems⟩
    rw [loadYamlFile_congr (h.get?_release hrelease fun heq => ?_)]
    · exact hm
    · exact Dict.get?_eq_none_iff.1 N.begins.noManifest (heq ▸ hkey)
  changelog := ⟨N.manifests, N.rendered.changelog, h.loadManifests_eq hyaml hvalid,
    N.renders.changelog, h.output (.changelog, _) (List.mem_cons_of_mem _ List.mem_cons_self)⟩

/-- The tag of the release is valid after it. -/
theorem validateTag_eq (hvalid : Valid R tree) :
    validateTag R t ("v" ++ args.version) = .ok () := by
  unfold validateTag
  simp only [ExceptRules.bind_eq_ok, require_eq_ok, removeStart_tag]
  refine ⟨N.key, N.versionKey_eq, (), ?_, N.manifest, h.loadYamlFile_manifestPath hyaml, (), ?_, (),
    ?_, (), ?_, (), ?_, _, h.loadFragments_archive, _, rfl, _, rfl, _,
    anyLxc_artifactsFor, _, rfl, _, rfl, (), ?_,
    N.manifests, h.loadManifests_eq hyaml hvalid, N.rendered.changelog, N.renders.changelog,
    h.output (.changelog, _) (List.mem_cons_of_mem _ List.mem_cons_self)⟩
  · exact Dict.contains_iff.2 (Dict.mem_keys_iff.2 ⟨_, h.get?_manifestPath⟩)
  · exact List.contains_iff_mem.2 List.mem_cons_self
  · exact h.glob_pending
  · rw [Dict.contains, h.marker]
    exact Bool.false_ne_true
  · rw [h.glob_archive, ne_eq, List.map_eq_nil_iff]
    exact N.begins.pending
  · intro field _
    rw [List.map_map]
    exact Value.beq_self _

end Manifest

end Released

end NewRelease

end Dnlab.Changes
