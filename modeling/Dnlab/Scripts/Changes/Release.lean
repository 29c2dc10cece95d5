import Dnlab.Scripts.Changes.Transaction

/-!
# A new release

A release of pending fragments that is begun, in a tree without a transaction of
its version (`NewRelease`): what it reads and checks, what it plans
(`plan_eq_ok`), and that the plan is carried out (`commandRelease_eq`).
-/

namespace Dnlab.Changes

section Plan

variable {R : Runtime} {git : Option (Tree → Except String (List String))} {args : Args}
  {tree tree' : Tree}

/-- The manifest of a release of some fragments. -/
def Args.manifest (R : Runtime) (args : Args) (loaded : List (Path × Mapping)) : Mapping :=
  buildManifest R args.version args.date args.canonicalSummary
    (loaded.map fun e => Fragment.ofDoc e.2) args.withLxc

/-- The texts that are rendered from the manifest of a release. -/
structure Rendered where
  changelog : String
  snapshot : String
  notes : String

/-- What a release writes, with its texts. -/
def Args.outputs (R : Runtime) (args : Args) (loaded : List (Path × Mapping)) (r : Rendered) :
    List (Path × String) :=
  Dnlab.Changes.outputs R args (args.manifest R loaded) (loaded.map fun e => Fragment.ofDoc e.2)
    r.changelog r.snapshot r.notes

/-- The manifest of a release is valid, and its texts are these. -/
structure Renders (R : Runtime) (args : Args) (tree : Tree) (loaded : List (Path × Mapping))
    (manifests : List Mapping) (r : Rendered) : Prop where
  valid : validateReleaseManifest R args.manifestPath.relative args.manifestPath.stem
    (args.manifest R loaded) = .ok []
  loads : loadManifests R tree (some (args.manifest R loaded)) = .ok manifests
  changelog : renderChangelog R manifests = .ok r.changelog
  notes : renderReleaseNotes R (args.manifest R loaded) = .ok r.notes
  snapshot : renderChangelog R [args.manifest R loaded] = .ok r.snapshot

theorem composeOutputs_eq_ok {paths : List Path} {out : List (Path × String)} :
    composeOutputs R args tree paths = .ok out ↔
      ∃ loaded manifests r, loadFragments R tree paths = .ok loaded ∧
        Renders R args tree loaded manifests r ∧ out = args.outputs R loaded r := by
  rw [composeOutputs]
  simp only [ExceptRules.bind_eq_ok, ExceptRules.pure_eq_ok, require_eq_ok]
  constructor
  · rintro ⟨loaded, hloaded, errors, herrors, -, rfl, ms, hms, changelog, hchangelog, notes, hnotes,
      snapshot, hsnapshot, rfl⟩
    exact ⟨loaded, ms, ⟨changelog, snapshot, notes⟩, hloaded,
      ⟨herrors, hms, hchangelog, hnotes, hsnapshot⟩, rfl⟩
  · rintro ⟨loaded, ms, r, hloaded, h, rfl⟩
    exact ⟨loaded, hloaded, [], h.valid, (), rfl, ms, h.loads, r.changelog, h.changelog, r.notes,
      h.notes, r.snapshot, h.snapshot, rfl⟩

/-- The pending fragments are released, without a transaction that goes on. -/
structure Begins (R : Runtime) (git : Option (Tree → Except String (List String))) (args : Args)
    (tree : Tree) (key : List ℕ) (day : ℕ) : Prop where
  noMarker : tree.get? (Path.marker args.version) = none
  noArchive : glob tree (Path.isArchivedIn args.version) = []
  noManifest : tree.get? args.manifestPath = none
  pending : glob tree Path.isPending ≠ []
  clean : ensureClean git tree = .ok ()
  later : ∀ p ∈ releasePaths tree, ∀ k, versionKey p.stem = .ok k → k < key
  days : ∃ ds, (releasePaths tree).mapM (releaseDay R tree) = .ok ds ∧ ∀ d ∈ ds, d ≤ day

theorem selectPaths_of_begins {key : List ℕ} {day : ℕ} (h : Begins R git args tree key day) :
    selectPaths R git args tree key day = .ok (none, glob tree Path.isPending) := by
  have hversions : ∃ ks, (releasePaths tree).mapM (fun p => versionKey p.stem) = .ok ks ∧
      ∀ k ∈ ks, k < key := by
    have hall : ∀ p ∈ releasePaths tree, ∃ k, versionKey p.stem = .ok k := fun p hp =>
      (mem_releasePaths.1 hp).2.2
    have hlater := h.later
    generalize releasePaths tree = paths at hall hlater
    induction paths with
    | nil => exact ⟨[], rfl, fun _ h => absurd h List.not_mem_nil⟩
    | cons p paths ih =>
      obtain ⟨⟨k, hk⟩, hall⟩ := List.forall_mem_cons.1 hall
      obtain ⟨hp, hlater⟩ := List.forall_mem_cons.1 hlater
      obtain ⟨ks, hks, hlt⟩ := ih hall hlater
      refine ⟨k :: ks, ?_, List.forall_mem_cons.2 ⟨hp k hk, hlt⟩⟩
      rw [List.mapM_cons, hk, hks]
      rfl
  obtain ⟨ks, hks, hlt⟩ := hversions
  obtain ⟨ds, hds, hle⟩ := h.days
  have hcontains : tree.contains args.manifestPath = false := by
    rw [Dict.contains, h.noManifest]
    rfl
  rw [selectPaths, h.noMarker, h.noArchive, hcontains]
  simp only [ne_eq, not_true_eq_false, if_false, Bool.false_eq_true, false_and]
  simp only [ExceptRules.bind_eq_ok, ExceptRules.pure_eq_ok, require_eq_ok]
  exact ⟨(), h.pending, (), h.clean, ks, hks, (), hlt, ds, hds, (), hle, trivial⟩

/-- In a tree without a marker and an archive of the version, a release begins. -/
theorem begins_of_selectPaths {key : List ℕ} {day : ℕ} {sel : Option Inventory × List Path}
    (hmarker : tree.get? (Path.marker args.version) = none)
    (harchive : glob tree (Path.isArchivedIn args.version) = [])
    (h : selectPaths R git args tree key day = .ok sel) :
    Begins R git args tree key day ∧ sel = (none, glob tree Path.isPending) := by
  rw [selectPaths, hmarker, harchive] at h
  dsimp only at h
  split at h
  · cases h
  · rename_i hmanifest
    rw [if_neg (by simp)] at h
    simp only [ExceptRules.bind_eq_ok, ExceptRules.pure_eq_ok, require_eq_ok] at h
    obtain ⟨_, hpending, _, hclean, ks, hks, _, hlt, ds, hds, _, hle, rfl⟩ := h
    refine ⟨⟨hmarker, harchive, ?_, hpending, hclean, fun p hp k hk => ?_, ds, hds, hle⟩, rfl⟩
    · cases hget : tree.get? args.manifestPath with
      | none => rfl
      | some content =>
        refine absurd ⟨?_, rfl⟩ hmanifest
        rw [Dict.contains, hget]
        rfl
    · obtain ⟨k', hk', hp⟩ := ExceptRules.forall₂_exists' (ExceptRules.mapM_eq_ok.1 hks) hp
      cases hk.symm.trans hp
      exact hlt k hk'

end Plan

/-- A release of pending fragments: what it has found in the tree, and what it has made of it. -/
structure NewRelease (R : Runtime) (git : Option (Tree → Except String (List String)))
    (args : Args) (tree : Tree) where
  key : List ℕ
  day : ℕ
  loaded : List (Path × Mapping)
  manifests : List Mapping
  rendered : Rendered
  versionKey_eq : versionKey args.version = .ok key
  fromisoformat_eq : R.fromisoformat args.date = some day
  begins : Begins R git args tree key day
  loads : loadFragments R tree (glob tree Path.isPending) = .ok loaded
  renders : Renders R args tree loaded manifests rendered

namespace NewRelease

variable {R : Runtime} {git : Option (Tree → Except String (List String))} {args : Args}
  {tree : Tree} (N : NewRelease R git args tree)

/-- The manifest of the release. -/
def manifest : Mapping := args.manifest R N.loaded

/-- What the release writes. -/
def outputs : List (Path × String) := args.outputs R N.loaded N.rendered

/-- What the release is going to do. -/
def plan : Plan := ⟨none, N.outputs⟩

end NewRelease

section Command

variable {R : Runtime} {git : Option (Tree → Except String (List String))} {args : Args}
  {tree : Tree} {dir : String}

theorem plan_eq_ok {p : Plan} : plan R git args tree = .ok p ↔
    ∃ key day sel, versionKey args.version = .ok key ∧ R.fromisoformat args.date = some day ∧
      selectPaths R git args tree key day = .ok sel ∧ checkExisting R args tree = .ok () ∧
        composeOutputs R args tree sel.2 = .ok p.outputs ∧ p.transaction = sel.1 := by
  rw [plan, ExceptRules.bind_eq_ok]
  refine exists_congr fun key => ?_
  cases hday : R.fromisoformat args.date with
  | none =>
    simp only [ExceptRules.bind_eq_ok]
    constructor
    · rintro ⟨-, day, hday, -⟩
      cases hday
    · rintro ⟨day, sel, -, h, -⟩
      cases h
  | some day =>
    simp only [ExceptRules.bind_eq_ok, ExceptRules.pure_eq_ok]
    constructor
    · rintro ⟨hkey, day', hday', sel, hsel, _, hcheck, out, hout, rfl⟩
      cases hday'
      exact ⟨day, sel, hkey, rfl, hsel, hcheck, hout, rfl⟩
    · rintro ⟨day', sel, hkey, hday', hsel, hcheck, hout, htrans⟩
      cases hday'
      refine ⟨hkey, day, rfl, sel, hsel, (), hcheck, _, hout, ?_⟩
      rw [← htrans]

theorem checkExisting_of_absent (h : tree.get? args.manifestPath = none) :
    checkExisting R args tree = .ok () := by
  rw [checkExisting, Dict.contains, h]
  rfl

namespace NewRelease

/-- A new release has its plan. -/
theorem plan_eq (N : NewRelease R git args tree) :
    Dnlab.Changes.plan R git args tree = .ok N.plan :=
  plan_eq_ok.2 ⟨N.key, N.day, _, N.versionKey_eq, N.fromisoformat_eq,
    selectPaths_of_begins N.begins, checkExisting_of_absent N.begins.noManifest,
    composeOutputs_eq_ok.2 ⟨N.loaded, N.manifests, N.rendered, N.loads, N.renders, rfl⟩, rfl⟩

/-- A plan that is made where there is no marker and no archive of the version is that of a new
    release. -/
theorem of_plan {p : Plan} (hmarker : tree.get? (Path.marker args.version) = none)
    (harchive : glob tree (Path.isArchivedIn args.version) = [])
    (h : Dnlab.Changes.plan R git args tree = .ok p) :
    ∃ N : NewRelease R git args tree, p = N.plan := by
  obtain ⟨key, day, sel, hkey, hday, hsel, -, hout, htrans⟩ := plan_eq_ok.1 h
  obtain ⟨hbegins, rfl⟩ := begins_of_selectPaths hmarker harchive hsel
  obtain ⟨loaded, manifests, r, hloaded, hrenders, hout⟩ := composeOutputs_eq_ok.1 hout
  refine ⟨⟨key, day, loaded, manifests, r, hkey, hday, hbegins, hloaded, hrenders⟩, ?_⟩
  obtain ⟨transaction, out⟩ := p
  obtain rfl : transaction = none := htrans
  obtain rfl := hout
  rfl

end NewRelease

end Command

/-- A key has the value that it has in all pairs of it. -/
theorem get?_update_of_forall {κ ν : Type*} [DecidableEq κ] {d : Dict κ ν} {pairs : List (κ × ν)}
    {k : κ} {v : ν} (hmem : (k, v) ∈ pairs) (h : ∀ v', (k, v') ∈ pairs → v' = v) :
    (d.update pairs).get? k = some v := by
  cases hget : (d.update pairs).get? k with
  | none =>
    rw [Dict.get?_update, Option.or_eq_none_iff, List.lookup_eq_none_iff] at hget
    simpa using hget.1 _ (List.mem_reverse.2 hmem)
  | some v' =>
    rw [Dict.get?_update] at hget
    cases hlookup : pairs.reverse.lookup k with
    | none =>
      rw [List.lookup_eq_none_iff] at hlookup
      simpa using hlookup _ (List.mem_reverse.2 hmem)
    | some w =>
      rw [hlookup, Option.some_or, Option.some_inj] at hget
      obtain ⟨l₁, l₂, hsplit, -⟩ := List.lookup_eq_some_iff.1 hlookup
      have hw := h w (List.mem_reverse.1 (hsplit ▸ List.mem_append_right _ List.mem_cons_self))
      rw [← hget, hw]

/-! ## What it leaves -/

/-- Where a fragment is archived. -/
def Args.toArchive (args : Args) (p : Path) : Path := .archive args.version p.name

namespace NewRelease

variable {R : Runtime} {git : Option (Tree → Except String (List String))} {args : Args}
  {tree : Tree} {dir : String} (N : NewRelease R git args tree)

/-- The tree after a release. -/
structure Released (t : Tree) : Prop where
  pending : ∀ p, p.isPending = true → t.get? p = none
  marker : t.get? (Path.marker args.version) = none
  output : ∀ e ∈ N.outputs, t.get? e.1 = some e.2
  archived : ∀ p ∈ glob tree Path.isPending, t.get? (args.toArchive p) = tree.get? p
  other : ∀ p, p.isStaged = false → p.isPending = false → p ≠ Path.marker args.version →
    p ∉ N.outputs.map Prod.fst → p ∉ (glob tree Path.isPending).map args.toArchive →
      t.get? p = tree.get? p

/-- A release leaves one tree only, outside its temporary directory. -/
theorem Released.unique {N : NewRelease R git args tree} {t t' : Tree} (h : N.Released t)
    (h' : N.Released t') {p : Path} (hp : p.isStaged = false) : t.get? p = t'.get? p := by
  by_cases hpending : p.isPending = true
  · rw [h.pending p hpending, h'.pending p hpending]
  by_cases hmarker : p = Path.marker args.version
  · rw [hmarker, h.marker, h'.marker]
  by_cases hout : p ∈ N.outputs.map Prod.fst
  · obtain ⟨e, he, rfl⟩ := List.mem_map.1 hout
    rw [h.output e he, h'.output e he]
  by_cases harchive : p ∈ (glob tree Path.isPending).map args.toArchive
  · obtain ⟨q, hq, rfl⟩ := List.mem_map.1 harchive
    rw [h.archived q hq, h'.archived q hq]
  rw [Bool.not_eq_true] at hpending
  rw [h.other p hp hpending hmarker hout harchive, h'.other p hp hpending hmarker hout harchive]

theorem take_name (version : String) : ("CHANGELOG-" ++ version ++ ".md").toList.take 8 =
      "CHANGELO".toList ∧ ("RELEASE_NOTES-" ++ version ++ ".md").toList.take 8 = "RELEASE_".toList ∧
      ("RELEASE-MANIFEST-" ++ version ++ ".json").toList.take 8 = "RELEASE-".toList := by
  simp only [String.toList_append, List.append_assoc]
  refine ⟨?_, ?_, ?_⟩ <;> rw [List.take_append_of_le_length (by decide)] <;> decide

theorem mem_outputs {e : Path × String} (he : e ∈ N.outputs) :
    e = (args.manifestPath, R.dumpYaml (.dict N.manifest)) ∨ e.1 = .changelog ∨
      ∃ name, e.1 = .dist args.version name := by
  have h : e ∈ outputs N := he
  simp only [NewRelease.outputs, Args.outputs, Changes.outputs, List.mem_cons,
    List.not_mem_nil, or_false] at h
  rcases h with rfl | rfl | rfl | rfl | rfl
  · exact .inl rfl
  · exact .inr (.inl rfl)
  all_goals exact .inr (.inr ⟨_, rfl⟩)

theorem placed : N.plan.Placed where
  nodup := by
    obtain ⟨hc, hn, hm⟩ := take_name args.version
    have hne {s t : String} (h : s.toList.take 8 ≠ t.toList.take 8) :
        Path.dist args.version s ≠ .dist args.version t := fun heq => by
      cases heq
      exact h rfl
    have hfst : N.plan.outputs.map Prod.fst = [args.manifestPath, .changelog,
        .dist args.version ("CHANGELOG-" ++ args.version ++ ".md"),
        .dist args.version ("RELEASE_NOTES-" ++ args.version ++ ".md"), args.assetPath] := rfl
    rw [hfst]
    simp only [List.nodup_cons, List.mem_cons, List.not_mem_nil, or_false, not_or, List.nodup_nil,
      not_false_eq_true, and_true]
    refine ⟨⟨nofun, nofun, nofun, nofun⟩, ⟨nofun, nofun, nofun⟩, ⟨hne ?_, hne ?_⟩, hne ?_⟩
    · rw [hc, hn]
      decide
    · rw [hc, hm]
      decide
    · rw [hn, hm]
      decide
  place := fun e he => by
    rcases N.mem_outputs he with rfl | h | ⟨name, h⟩
    · exact ⟨rfl, nofun, nofun⟩
    · rw [h]
      exact ⟨rfl, nofun, nofun⟩
    · rw [h]
      exact ⟨rfl, nofun, nofun⟩

/-- The fragments are the pending ones. -/
theorem fst_fragments :
    (N.plan.fragments R tree).map Prod.fst = (glob tree Path.isPending).map Path.name := by
  show ((glob tree Path.isPending).map fun p =>
    (p.name, R.sha256 (tree.getD p ""))).map Prod.fst = _
  rw [List.map_map]
  rfl

end NewRelease

section Pending

variable {tree : Tree}

theorem nodup_pendingNames : ((glob tree Path.isPending).map Path.name).Nodup := by
  refine List.Nodup.map_on (fun p hp q hq h => ?_) nodup_glob
  rw [eq_pending (mem_glob.1 hp).2, eq_pending (mem_glob.1 hq).2, h]

theorem isYml_of_isPending {p : Path} (h : p.isPending = true) : p.isYml = true :=
  (Bool.and_eq_true_iff.1 h).2

theorem getD_of_mem_glob {f : Path → Bool} {p : Path} (h : p ∈ glob tree f) :
    tree.get? p = some (tree.getD p "") := by
  obtain ⟨content, hcontent⟩ := Dict.mem_keys_iff.1 (mem_glob.1 h).1
  rw [Dict.getD, hcontent, Option.getD_some]

theorem byName_eq_some {paths : List Path} {p : Path} (hp : p ∈ paths)
    (hunique : ∀ q ∈ paths, q.name = p.name → q = p) : byName paths p.name = some p := by
  cases hfind : byName paths p.name with
  | none =>
    rw [byName, List.find?_eq_none] at hfind
    exact absurd (decide_eq_true rfl) (hfind p hp)
  | some q =>
    obtain ⟨hq, hname⟩ := mem_of_byName hfind
    rw [hunique q hq hname]

theorem byName_eq_none {paths : List Path} {name : String} (h : ∀ p ∈ paths, p.name ≠ name) :
    byName paths name = none := by
  rw [byName, List.find?_eq_none]
  exact fun p hp hname => h p hp (of_decide_eq_true hname)

theorem byName_pending {p : Path} (h : p ∈ glob tree Path.isPending) :
    byName (glob tree Path.isPending) p.name = some p :=
  byName_eq_some h fun q hq hname => by
    rw [eq_pending (mem_glob.1 hq).2, eq_pending (mem_glob.1 h).2, hname]

end Pending

namespace NewRelease

variable {R : Runtime} {git : Option (Tree → Except String (List String))} {args : Args}
  {tree : Tree} {dir : String} (N : NewRelease R git args tree)

include N in
theorem get?_toArchive {p : Path} (h : p.isYml = true) : tree.get? (args.toArchive p) = none := by
  rw [Dict.get?_eq_none_iff]
  intro hmem
  have hp : Path.isArchivedIn args.version (args.toArchive p) = true := by
    rw [Args.toArchive, Path.isArchivedIn, Bool.and_eq_true]
    exact ⟨decide_eq_true rfl, (Path.isYml_congr rfl).trans h⟩
  have hglob := mem_glob.2 ⟨hmem, hp⟩
  rw [N.begins.noArchive] at hglob
  exact absurd hglob List.not_mem_nil

include N in
/-- The content of a fragment is that of its pending file. -/
theorem contentOf_pending {p : Path} (h : p ∈ glob tree Path.isPending) :
    contentOf args (sourceOf args tree) tree p.name = tree.get? p := by
  have harchive : byName (glob tree (Path.isArchivedIn args.version)) p.name = none := by
    rw [N.begins.noArchive]
    rfl
  have hget : tree.get? (.archive args.version p.name) = none :=
    N.get?_toArchive (isYml_of_isPending (mem_glob.1 h).2)
  rw [contentOf, hget, Option.none_or, sourceOf, harchive, Option.none_or, byName_pending h]
  rfl

theorem mem_copies {e : Path × String} : e ∈ N.plan.copies R args tree ↔
    ∃ p ∈ glob tree Path.isPending, e.1 = args.toArchive p ∧ tree.get? p = some e.2 := by
  rw [Plan.copies, if_pos N.begins.pending, mem_archiveCopies, N.fst_fragments]
  constructor
  · rintro ⟨name, hname, hpath, -, hcontent⟩
    obtain ⟨p, hp, rfl⟩ := List.mem_map.1 hname
    exact ⟨p, hp, hpath, (N.contentOf_pending hp).symm.trans hcontent⟩
  · rintro ⟨p, hp, hpath, hget⟩
    refine ⟨p.name, List.mem_map_of_mem hp, hpath, ?_, (N.contentOf_pending hp).trans hget⟩
    rw [hpath]
    exact N.get?_toArchive (isYml_of_isPending (mem_glob.1 hp).2)

/-- A new release ends normally. -/
theorem commandRelease_eq :
    commandRelease R git args dir tree = (N.plan.ops R args dir tree, .ok ()) := by
  rw [commandRelease, N.plan_eq]
  refine (transact_eq_ok ?_ ?_).2 ⟨fun _ e he => ?_, rfl⟩
  · exact N.fst_fragments ▸ nodup_pendingNames
  · rw [N.fst_fragments]
    intro name hname
    obtain ⟨p, hp, rfl⟩ := List.mem_map.1 hname
    exact isYml_of_isPending (mem_glob.1 hp).2
  · obtain ⟨p, hp, rfl⟩ := List.mem_map.1 he
    rw [Intact, N.contentOf_pending hp, getD_of_mem_glob hp]
    rfl

theorem toArchive_ne_marker {p : Path} (h : p.isYml = true) :
    args.toArchive p ≠ Path.marker args.version := by
  intro heq
  have hname : p.name = ".release-transaction.json" := congrArg Path.name heq
  rw [Path.isYml, hname] at h
  exact absurd h (by decide)

theorem eq_of_toArchive {p q : Path} (hp : p ∈ glob tree Path.isPending)
    (hq : q ∈ glob tree Path.isPending) (h : args.toArchive p = args.toArchive q) : p = q := by
  have hname : (args.toArchive p).name = (args.toArchive q).name := congrArg Path.name h
  change p.name = q.name at hname
  rw [eq_pending (mem_glob.1 hp).2, eq_pending (mem_glob.1 hq).2, hname]

/-- What a release leaves. -/
theorem released : N.Released (applyAll (N.plan.ops R args dir tree) tree) := by
  have hfinal {p : Path} (hp : p.isStaged = false) :
      (applyAll (N.plan.ops R args dir tree) tree).get? p =
        if p ∈ glob tree Path.isPending ∨ p = Path.marker args.version then none
        else (tree.update (N.plan.copies R args tree ++ N.plan.outputs)).get? p :=
    get?_ops N.placed (isStagedIn_of_isStaged hp)
  have hcopy {p : Path} {content : String} (h : (p, content) ∈ N.plan.copies R args tree) :
      ∃ q ∈ glob tree Path.isPending, p = args.toArchive q := by
    obtain ⟨q, hq, hpath, -⟩ := N.mem_copies.1 h
    exact ⟨q, hq, hpath⟩
  have hneither {p : Path} (hout : p ∉ N.outputs.map Prod.fst)
      (harchive : p ∉ (glob tree Path.isPending).map args.toArchive) :
      p ∉ (N.plan.copies R args tree ++ N.plan.outputs).map Prod.fst := by
    rw [List.map_append, List.mem_append, not_or]
    refine ⟨fun hmem => ?_, hout⟩
    obtain ⟨e, he, rfl⟩ := List.mem_map.1 hmem
    obtain ⟨q, hq, hpath⟩ := hcopy he
    exact harchive (List.mem_map.2 ⟨q, hq, hpath.symm⟩)
  refine ⟨fun p hp => ?_, ?_, fun e he => ?_, fun p hp => ?_,
    fun p hstaged hp hmarker hout harchive => ?_⟩
  · -- A pending file has been deleted, or was not there.
    have hpath := eq_pending hp
    rw [hfinal (by rw [hpath]; rfl)]
    split
    · rfl
    · rename_i hgone
      have hkey : p ∉ tree.keys := fun h => hgone (.inl (mem_glob.2 ⟨h, hp⟩))
      rw [Dict.get?_update_of_notMem (hneither ?_ ?_), Dict.get?_eq_none_iff.2 hkey]
      · intro hmem
        obtain ⟨e, he, heq⟩ := List.mem_map.1 hmem
        exact (N.placed.place e he).2.1 p.name (heq.trans hpath)
      · intro hmem
        obtain ⟨q, -, heq⟩ := List.mem_map.1 hmem
        cases heq.trans hpath
  · rw [hfinal rfl, if_pos (.inr rfl)]
  · obtain ⟨hstaged, hpending, harchive⟩ := N.placed.place e he
    rw [hfinal hstaged, if_neg]
    · refine get?_update_of_forall (List.mem_append_right _ he) fun content hmem => ?_
      rcases List.mem_append.1 hmem with h | h
      · obtain ⟨q, -, hpath⟩ := hcopy h
        exact absurd hpath (harchive _ _)
      · have hpair := List.inj_on_of_nodup_map N.placed.nodup h he rfl
        exact congrArg Prod.snd hpair
    · rintro (h | h)
      · exact hpending _ (eq_pending (mem_glob.1 h).2)
      · exact harchive _ _ h
  · have hyml := isYml_of_isPending (mem_glob.1 hp).2
    rw [hfinal rfl, if_neg, getD_of_mem_glob hp]
    · refine get?_update_of_forall (List.mem_append_left _ (N.mem_copies.2
        ⟨p, hp, rfl, getD_of_mem_glob hp⟩)) fun content hmem => ?_
      rcases List.mem_append.1 hmem with h | h
      · obtain ⟨q, hq, hpath, hget⟩ := N.mem_copies.1 h
        obtain rfl := eq_of_toArchive hp hq hpath
        exact Option.some_inj.1 (hget.symm.trans (getD_of_mem_glob hp))
      · exact absurd rfl ((N.placed.place _ h).2.2 args.version p.name)
    · rintro (h | h)
      · cases eq_pending (mem_glob.1 h).2
      · exact toArchive_ne_marker hyml h
  · rw [hfinal hstaged, if_neg, Dict.get?_update_of_notMem (hneither hout harchive)]
    rintro (h | h)
    · rw [(mem_glob.1 h).2] at hp
      cases hp
    · exact hmarker h

end NewRelease

end Dnlab.Changes
