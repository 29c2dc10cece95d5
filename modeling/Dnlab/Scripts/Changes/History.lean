import Dnlab.Scripts.Changes.Crash

/-!
# The history of the releases

A release of a valid tree with pending fragments leaves a valid tree, with a
valid tag (`validates`). From then on, pending fragments come and go and there
are other such releases; the tags of all releases stay valid
(`History.tags_valid`).
-/

namespace Dnlab.Changes

/-! ## Tags -/

section Tagged

variable {R : Runtime} {t t' : Tree} {version : String}

/-- A manifest is the one that is built from these fragments. -/
def Rebuilds (R : Runtime) (version : String) (manifest : Mapping)
    (loaded : List (Path × Mapping)) : Prop :=
  ∃ artifacts, manifest.item "artifacts" = .ok artifacts ∧ ∃ items, iter artifacts = .ok items ∧
    ∃ withLxc, anyLxc items = .ok withLxc ∧ ∃ date, manifest.item "date" = .ok date ∧
      ∃ summary, manifest.item "summary" = .ok summary ∧ ∀ field ∈ generatedFields,
        (manifest.get field).beq ((buildManifest R version date.print summary.print
          (loaded.map fun e => Fragment.ofDoc e.2) withLxc).get field) = true

/-- What the tag of a version asks of the files of this version. -/
structure Tagged (R : Runtime) (t : Tree) (version : String) : Prop where
  key : ∃ key, versionKey version = .ok key
  marker : t.get? (Path.marker version) = none
  archive : glob t (Path.isArchivedIn version) ≠ []
  manifest : ∃ manifest, loadYamlFile R t (.release (version ++ ".yml")) = .ok manifest ∧
    (manifest.get "tag").isOneOf ["v" ++ version] = true ∧
      ∃ loaded, loadFragments R t (glob t (Path.isArchivedIn version)) = .ok loaded ∧
        Rebuilds R version manifest loaded

/-- When the tag of a version is valid. -/
theorem validateTag_eq_ok : validateTag R t ("v" ++ version) = .ok () ↔
    Tagged R t version ∧ glob t Path.isPending = [] ∧
      ∃ ms expected, loadManifests R t none = .ok ms ∧ renderChangelog R ms = .ok expected ∧
        t.get? .changelog = some expected := by
  have hmarker : ¬t.contains (Path.marker version) = true ↔
      t.get? (Path.marker version) = none := by
    rw [Dict.contains_iff, Dict.get?_eq_none_iff]
  unfold validateTag
  simp only [ExceptRules.bind_eq_ok, require_eq_ok, removeStart_tag, hmarker]
  constructor
  · rintro ⟨key, hkey, _, -, manifest, hmanifest, _, htag, _, hpending, _, hnone, _, harchive,
      loaded, hloaded, artifacts, hartifacts, items, hitems, withLxc, hlxc, date, hdate, summary, hsummary,
      _, hfields, ms, hms, expected, hexpected, hchangelog⟩
    exact ⟨⟨⟨key, hkey⟩, hnone, harchive, manifest, hmanifest, htag, loaded, hloaded, artifacts,
      hartifacts, items, hitems, withLxc, hlxc, date, hdate, summary, hsummary, hfields⟩, hpending,
      ms, expected, hms, hexpected, hchangelog⟩
  · rintro ⟨⟨⟨key, hkey⟩, hnone, harchive, manifest, hmanifest, htag, loaded, hloaded, artifacts,
      hartifacts, items, hitems, withLxc, hlxc, date, hdate, summary, hsummary, hfields⟩, hpending,
      ms, expected, hms, hexpected, hchangelog⟩
    refine ⟨key, hkey, (), ?_, manifest, hmanifest, (), htag, (), hpending, (), hnone, (), harchive,
      loaded, hloaded, artifacts, hartifacts, items, hitems, withLxc, hlxc, date, hdate, summary,
      hsummary, (), hfields, ms, hms, expected, hexpected, hchangelog⟩
    obtain ⟨text, htext, -⟩ := loadYamlFile_eq_ok.1 hmanifest
    exact Dict.contains_iff.2 (Dict.mem_keys_iff.2 ⟨text, htext⟩)

/-- The tag of a version depends on the files of the version only. -/
theorem Tagged.congr (h : Tagged R t version)
    (hrelease : t'.get? (.release (version ++ ".yml")) = t.get? (.release (version ++ ".yml")))
    (harchive : ∀ name, t'.get? (.archive version name) = t.get? (.archive version name)) :
    Tagged R t' version := by
  have hglob : glob t' (Path.isArchivedIn version) = glob t (Path.isArchivedIn version) :=
    glob_congr fun p hp => by
      rw [eq_archive hp, Dict.mem_keys_iff, Dict.mem_keys_iff, harchive]
  obtain ⟨manifest, hmanifest, htag, loaded, hloaded, hrebuilds⟩ := h.manifest
  refine ⟨h.key, (harchive _).trans h.marker, hglob ▸ h.archive, manifest,
    (loadYamlFile_congr hrelease).trans hmanifest, htag, loaded, ?_, hrebuilds⟩
  obtain ⟨hnd, hfst, hreads⟩ := loadFragments_eq_ok.1 hloaded
  rw [hglob]
  refine loadFragments_eq_ok.2 ⟨hnd, hfst, fun e he => (hreads e he).move ?_ rfl⟩
  have hmem : e.1 ∈ glob t (Path.isArchivedIn version) := hfst ▸ List.mem_map_of_mem he
  rw [eq_archive (mem_glob.1 hmem).2]
  exact harchive _

end Tagged

/-! ## A release -/

section Release

variable {R : Runtime} {git : Option (Tree → Except String (List String))} {args : Args}
  {tree : Tree} {dir : String} {ops : List Op}

/-- The manifest of a release is read as it was written. -/
def ManifestReads (R : Runtime) (args : Args) (tree : Tree) : Prop :=
  ∀ loaded, loadFragments R tree (glob tree Path.isPending) = .ok loaded →
    R.loadYaml (R.dumpYaml (.dict (args.manifest R loaded))) = .ok (.dict (args.manifest R loaded))

/-- A release of a valid tree is a new one, and leaves a valid tree and a valid tag. -/
theorem exists_released (hvalid : validateAll R tree none = .ok ())
    (hpending : glob tree Path.isPending ≠ []) (hread : ManifestReads R args tree)
    (hrun : commandRelease R git args dir tree = (ops, .ok ())) :
    ∃ N : NewRelease R git args tree, N.Released (applyAll ops tree) ∧
      loadYamlFile R (applyAll ops tree) args.manifestPath = .ok N.manifest ∧
      Valid R (applyAll ops tree) ∧
        validateTag R (applyAll ops tree) ("v" ++ args.version) = .ok () := by
  have hvalid := (validateAll_eq_ok.1 hvalid).1
  obtain ⟨N, rfl⟩ := NewRelease.of_commandRelease hvalid hpending hrun
  have hreleased : N.Released (applyAll (N.plan.ops R args dir tree) tree) := N.released
  have hyaml : R.loadYaml (R.dumpYaml (.dict N.manifest)) = .ok (.dict N.manifest) :=
    hread _ N.loads
  exact ⟨N, hreleased, hreleased.loadYamlFile_manifestPath hyaml, hreleased.valid hyaml hvalid,
    hreleased.validateTag_eq hyaml hvalid⟩

/-- A release of a valid tree leaves a valid tree, in which its tag is valid, and its manifest has
    an entry for each of its public fragments, whatever the order in which they are listed. -/
theorem validates (hvalid : validateAll R tree none = .ok ())
    (hpending : glob tree Path.isPending ≠ []) (hread : ManifestReads R args tree)
    (hrun : commandRelease R git args dir tree = (ops, .ok ())) :
    validateAll R (applyAll ops tree) (some ("v" ++ args.version)) = .ok () ∧
      ∃ loaded, loadFragments R tree (glob tree Path.isPending) = .ok loaded ∧
        ∀ order, order.Perm loaded →
          loadYamlFile R (applyAll ops tree) args.manifestPath = .ok (args.manifest R order) ∧
            (changeIds (args.manifest R order)).Perm
              (((loaded.map fun e => Fragment.ofDoc e.2).filter Fragment.published).map
                Fragment.id) := by
  obtain ⟨N, -, hmanifest, hvalid', htag⟩ := exists_released hvalid hpending hread hrun
  refine ⟨validateAll_eq_ok.2 ⟨hvalid', fun s hs _ => Option.some_inj.1 hs ▸ htag⟩, N.loaded,
    N.loads, fun order horder => ?_⟩
  -- An identifier is the stem of the file's name, and those are distinct.
  have hids : ((N.loaded.map fun e => Fragment.ofDoc e.2).map Fragment.id).Nodup := by
    obtain ⟨hnd, hfst, hreads⟩ := loadFragments_eq_ok.1 N.loads
    have hstems : (N.loaded.map fun e => Fragment.ofDoc e.2).map Fragment.id =
        N.loaded.map (Path.stem ∘ Prod.fst) := by
      rw [List.map_map]
      exact List.map_congr_left fun e he => ofDoc_id (hreads e he).valid
    rw [hstems, ← List.map_map, hfst]
    exact hnd
  have horder' := horder.map fun e => Fragment.ofDoc e.2
  have hsame : args.manifest R order = N.manifest :=
    buildManifest_perm _ _ _ _ horder' ((horder'.map Fragment.id).nodup_iff.2 hids)
  rw [hsame]
  exact ⟨hmanifest,
    changeIds_buildManifest R args.version args.date args.canonicalSummary _ args.withLxc⟩

end Release

/-! ## All releases -/

/-- The versions that have been released, and the tree: pending fragments come and go, and valid
    trees with pending fragments are released, without an interruption. -/
inductive History (R : Runtime) (git : Option (Tree → Except String (List String))) :
    List String → Tree → Prop
  | start (t : Tree) : History R git [] t
  | change {versions : List String} {t t' : Tree} : History R git versions t →
      (∀ p, p.isPending = false → t'.get? p = t.get? p) → History R git versions t'
  | release {versions : List String} {t : Tree} {args : Args} {ops : List Op} (dir : String) :
      History R git versions t → validateAll R t none = .ok () → glob t Path.isPending ≠ [] →
        ManifestReads R args t → commandRelease R git args dir t = (ops, .ok ()) →
          History R git (args.version :: versions) (applyAll ops t)

section History

variable {R : Runtime} {git : Option (Tree → Except String (List String))} {t : Tree}
  {versions : List String}

/-- The files of each version stay as its tag asks. -/
theorem History.tagged (h : History R git versions t) : ∀ v ∈ versions, Tagged R t v := by
  induction h with
  | start t => exact fun _ hv => absurd hv List.not_mem_nil
  | change _ hsame ih =>
    exact fun v hv => (ih v hv).congr (hsame _ rfl) fun name => hsame _ rfl
  | @release versions t args ops dir _ hvalid hpending hread hrun ih =>
    obtain ⟨N, hreleased, -, -, htag⟩ := exists_released hvalid hpending hread hrun
    refine List.forall_mem_cons.2 ⟨(validateTag_eq_ok.1 htag).1, fun v hv => ?_⟩
    have htagged := ih v hv
    obtain ⟨manifest, hmanifest, -⟩ := htagged.manifest
    obtain ⟨text, htext, -⟩ := loadYamlFile_eq_ok.1 hmanifest
    have hne : v ≠ args.version := by
      rintro rfl
      cases htext.symm.trans N.begins.noManifest
    refine htagged.congr (hreleased.get?_release Path.isYml_name fun heq => ?_) fun name =>
      hreleased.get?_archive (fun heq => hne (Path.archive.inj heq).1) fun hmem => ?_
    · rw [heq] at htext
      cases htext.symm.trans N.begins.noManifest
    · obtain ⟨q, -, heq⟩ := List.mem_map.1 hmem
      exact hne (Path.archive.inj heq).1.symm

/-- When nothing is pending in a valid tree, the tags of all releases are valid. -/
theorem History.tags_valid (h : History R git versions t)
    (hvalid : validateAll R t none = .ok ()) (hpending : glob t Path.isPending = []) :
    ∀ v ∈ versions, validateAll R t (some ("v" ++ v)) = .ok () := by
  obtain ⟨hvalid, -⟩ := validateAll_eq_ok.1 hvalid
  refine fun v hv => validateAll_eq_ok.2 ⟨hvalid, fun s hs _ => ?_⟩
  cases hs
  exact validateTag_eq_ok.2 ⟨h.tagged v hv, hpending, hvalid.changelog⟩

end History

/-- A valid tree stays valid when pending fragments come and go, if these can be read under names of
    their own. -/
theorem Valid.edit {R : Runtime} {t t' : Tree} (h : Valid R t)
    (hsame : ∀ p, p.isPending = false → t'.get? p = t.get? p)
    (hnames : ((glob t' Path.isFragment).map Path.stem).Nodup)
    (hpending : ∀ p ∈ glob t' Path.isPending, ∃ data, Reads R t' p data) : Valid R t' := by
  have hkeys : ∀ p : Path, p.isPending = false → (p ∈ t'.keys ↔ p ∈ t.keys) := fun p hp => by
    rw [Dict.mem_keys_iff, Dict.mem_keys_iff, hsame p hp]
  have hrelease : ∀ p : Path, p.isRelease = true → p.isPending = false := by
    intro p hp
    cases p with
    | release name => rfl
    | _ => cases hp
  -- Manifests, markers and archived fragments are no pending ones.
  have hpaths : releasePaths t' = releasePaths t :=
    releasePaths_congr fun p hp => hkeys p (hrelease p hp)
  have hreleases : ∀ p ∈ releasePaths t, t'.get? p = t.get? p := fun p hp =>
    hsame p (hrelease p (mem_releasePaths.1 hp).2.1)
  refine ⟨?_, hnames, fun p hp => ?_, fun p hp => ?_, ?_⟩
  · rw [← h.noMarkers]
    refine glob_congr fun p hp => hkeys p ?_
    cases p with
    | archive version name => rfl
    | _ => cases hp
  · obtain ⟨hkey, hfragment⟩ := mem_glob.1 hp
    by_cases hp' : p.isPending = true
    · exact hpending p (mem_glob.2 ⟨hkey, hp'⟩)
    · have hno := Bool.not_eq_true _ ▸ hp'
      obtain ⟨data, hdata⟩ := h.fragments p (mem_glob.2 ⟨(hkeys p hno).1 hkey, hfragment⟩)
      exact ⟨data, hdata.move (hsame p hno) rfl⟩
  · rw [hpaths] at hp
    rw [loadYamlFile_congr (hreleases p hp)]
    exact h.releases p hp
  · obtain ⟨ms, expected, hms, hexpected, hget⟩ := h.changelog
    exact ⟨ms, expected, (loadManifests_congr hpaths hreleases none).trans hms, hexpected,
      (hsame _ rfl).trans hget⟩

/-! ### Two releases -/

namespace Sample

/-- A fragment without notes and references. -/
structure Note where
  id : String
  type : String
  title : String
  description : String
  component : String
  visibility : String
  digest : String

namespace Note

/-- The file of a fragment. -/
def text (n : Note) : String :=
  "id: " ++ n.id ++ "\ntype: " ++ n.type ++ "\ntitle: " ++ n.title ++ "\ndescription: " ++
  n.description ++ "\ncomponents:\n- " ++ n.component ++ "\naudience:\n- user\nvisibility: " ++
  n.visibility ++ "\nbreaking: false\nupgrade_notes: []\nreferences: []\n"

def doc (n : Note) : Mapping :=
  Mapping.ofFields [("id", .str n.id), ("type", .str n.type), ("title", .str n.title),
    ("description", .str n.description), ("components", .strs [n.component]),
    ("audience", .strs ["user"]), ("visibility", .str n.visibility), ("breaking", .bool false),
    ("upgrade_notes", .list []), ("references", .list [])]

def path (n : Note) : Path := .pending (n.id ++ ".yml")

end Note

def addConsole : Note := ⟨"add-console", "feature", "Add a console", "It opens.", "gui", "public",
  "de55d17dcec677ea71892261a7ceaa770ad99ebfe48460c6bcef5e3c3e67ab91"⟩

def fixOne : Note := ⟨"fix-one", "bugfix", "Fix one", "It works.", "api", "public", fragmentDigest⟩

def tidyUp : Note := ⟨"tidy-up", "internal", "Tidy up", "It is tidy.", "docs", "internal",
  "a07f898b3606f3f1e17da992599559cd9dfae226f3b3ac635960b6a8ed716d29"⟩

def fixTwo : Note := ⟨"fix-two", "bugfix", "Fix two", "It works again.", "api", "public",
  "6e313a38d97b0911c3ee5f365d7f4c651bbe1d5e8a70ba77fdd88a79ef82db82"⟩

/-- All fragments. -/
def notes : List Note := [addConsole, fixOne, tidyUp, fixTwo]

/-- A release with its public fragments under their categories. -/
structure Issue where
  args : Args
  entries : List (String × Note)

namespace Issue

/-- The manifest of a release. -/
def text (i : Issue) : String :=
  "version: " ++ i.args.version ++ "\ndate: '" ++ i.args.date ++ "'\ntag: v" ++ i.args.version ++
  "\nsummary: " ++ i.args.summary ++ "\nentries:\n" ++
  Text.join "" (i.entries.map fun (category, n) =>
    "- category: " ++ category ++ "\n  title: " ++ n.title ++ "\n  body: " ++ n.description ++
    "\n  change_id: " ++ n.id ++ "\n  components:\n  - " ++ n.component ++
    "\n  audience:\n  - user\n") ++
  "breaking_changes: []\nupgrade_notes: []\n" ++
  "artifacts:\n- name: Source archives\n  type: github-release\n" ++
  "  path: '*-" ++ i.args.version ++ "-source.tar.gz'\n  channel: GitHub Release\n" ++
  "  notes: Corresponding source archives for the published GHCR images.\n" ++
  "- name: Source checksums\n  type: github-release\n  path: SHA256SUMS\n" ++
  "  channel: GitHub Release\n  notes: Checksums for downloadable release assets.\n" ++
  "source_notes:\n- CHANGELOG.md\n- changes/archive/" ++ i.args.version ++ "/\ninternal_refs: []\n"

def doc (i : Issue) : Mapping :=
  Mapping.ofFields [("version", .str i.args.version), ("date", .str i.args.date),
    ("tag", .str ("v" ++ i.args.version)), ("summary", .str i.args.summary),
    ("entries", .list (i.entries.map fun (category, n) =>
      .dict (Mapping.ofFields [("category", .str category), ("title", .str n.title),
        ("body", .str n.description), ("change_id", .str n.id), ("components", .strs [n.component]),
        ("audience", .strs ["user"])]))),
    ("breaking_changes", .list []), ("upgrade_notes", .list []),
    ("artifacts", .list (artifactsFor i.args.version false)),
    ("source_notes", .strs ["CHANGELOG.md", "changes/archive/" ++ i.args.version ++ "/"]),
    ("internal_refs", .list [])]

end Issue

/-- The first release. -/
def first : Issue := ⟨⟨"1.0.0", "2025-01-02", "The first release.", false⟩,
  [("Added", addConsole), ("Fixed", fixOne)]⟩

/-- The second release. -/
def second : Issue := ⟨⟨"1.1.0", "2025-02-03", "The second release.", false⟩, [("Fixed", fixTwo)]⟩

mutual

/-- `json.dumps` with an indent of two and sorted keys, for texts without escapes. -/
def json (indent : String) : Value → String
  | .null => "null"
  | .bool b => if b then "true" else "false"
  | .int n => toString n
  | .str s => "\"" ++ s ++ "\""
  | .other s _ _ => s
  | .list [] => "[]"
  | .list (v :: l) =>
    "[\n" ++ Text.join ",\n" (jsons (indent ++ "  ") (v :: l)) ++ "\n" ++ indent ++ "]"
  | .dict [] => "\x7b\x7d"
  | .dict (e :: d) =>
    let entries := (jsonEntries (indent ++ "  ") (e :: d)).insertionSort fun a b => a.1 ≤ b.1
    "\x7b\n" ++ Text.join ",\n" (entries.map Prod.snd) ++ "\n" ++ indent ++ "\x7d"

/-- The elements of a list, a line each. -/
def jsons (indent : String) : List Value → List String
  | [] => []
  | v :: l => (indent ++ json indent v) :: jsons indent l

/-- The entries of a mapping by their keys. -/
def jsonEntries (indent : String) : List (Key × Value) → List (String × String)
  | [] => []
  | (.str k, v) :: d | (.other k, v) :: d =>
    (k, indent ++ "\"" ++ k ++ "\": " ++ json indent v) :: jsonEntries indent d

end

/-- What the libraries make of the texts of both releases; no JSON is read. -/
def library : Runtime where
  loadYaml text :=
    match notes.find? fun n => n.text = text with
    | some n => .ok (.dict n.doc)
    | none =>
      match [first, second].find? fun i => i.text = text with
      | some i => .ok (.dict i.doc)
      | none => .ok .null
  dumpYaml
    | .dict d =>
      match [first, second].find? fun i => (Mapping.get d "version").isOneOf [i.args.version] with
      | some i => i.text
      | none => "null\n...\n"
    | _ => "null\n...\n"
  loadJson _ := .error "Expecting value: line 1 column 1 (char 0)"
  dumpJson := json ""
  sha256 text :=
    match notes.find? fun n => n.text = text with
    | some n => n.digest
    | none => "e3b0c44298fc1c149afbf4c8996fb92427ae41e4649b934ca495991b7852b855"
  casefold s := .ofList (s.toList.map Char.toLower)
  fromisoformat date :=
    if date = "2025-01-02" then some 739253 else if date = "2025-02-03" then some 739285 else none
  fill initial _ text := initial ++ text

/-- Before the first release, three fragments are pending, one of them internal. -/
def firstTree : Tree := Dict.ofList [(.changelog, changelog), (addConsole.path, addConsole.text),
  (fixOne.path, fixOne.text), (tidyUp.path, tidyUp.text)]

/-- The file operations of the first release. -/
def firstOps : List Op := (commandRelease library none first.args "tmp" firstTree).1

/-- After the first release, a fragment is added. -/
def secondTree : Tree := (applyAll firstOps firstTree).set fixTwo.path fixTwo.text

/-- The file operations of the second release. -/
def secondOps : List Op := (commandRelease library none second.args "tmp" secondTree).1

theorem pending_first :
    glob firstTree Path.isPending = [addConsole.path, fixOne.path, tidyUp.path] := by
  decide +kernel

/-- The fragments of the first release. -/
def firstLoaded : List (Path × Mapping) :=
  [(addConsole.path, addConsole.doc), (fixOne.path, fixOne.doc), (tidyUp.path, tidyUp.doc)]

set_option maxRecDepth 20000 in
theorem loads_first :
    loadFragments library firstTree (glob firstTree Path.isPending) = .ok firstLoaded := by
  rw [pending_first]
  rfl

theorem valid_first : validateAll library firstTree none = .ok () := by
  have hfragments : glob firstTree Path.isFragment = glob firstTree Path.isPending := by
    decide +kernel
  have hreleases : releasePaths firstTree = [] := by decide +kernel
  obtain ⟨hnames, hreads⟩ := exists_loadFragments.1 ⟨_, loads_first⟩
  rw [← hfragments] at hnames hreads
  refine validateAll_eq_ok.2 ⟨⟨by decide +kernel, hnames, hreads, fun p hp => ?_, [], changelog,
    by rw [loadManifests, hreleases]; rfl, by rw [renderChangelog]; rfl, rfl⟩, fun s hs => nomatch hs⟩
  rw [hreleases] at hp
  exact absurd hp List.not_mem_nil

set_option maxRecDepth 20000 in
theorem released_first :
    commandRelease library none first.args "tmp" firstTree = (firstOps, .ok ()) :=
  Prod.ext rfl (toOption_eq_some.1 (by decide +kernel))

theorem pending_first_ne : glob firstTree Path.isPending ≠ [] :=
  pending_first ▸ List.cons_ne_nil _ _

set_option maxRecDepth 20000 in
theorem manifestReads_first : ManifestReads library first.args firstTree := by
  intro loaded h
  cases loads_first.symm.trans h
  rw [show first.args.manifest library firstLoaded = first.doc from rfl]
  rfl

/-- The first release: both public fragments are in the manifest, and the internal one is not,
    whatever the order in which they are listed. -/
theorem validates_first :
    validateAll library (applyAll firstOps firstTree) (some "v1.0.0") = .ok () ∧
      ∀ order, order.Perm firstLoaded →
        loadYamlFile library (applyAll firstOps firstTree) first.args.manifestPath =
            .ok (first.args.manifest library order) ∧
          (changeIds (first.args.manifest library order)).Perm ["add-console", "fix-one"] := by
  obtain ⟨hvalid, loaded, hloads, horders⟩ :=
    validates valid_first pending_first_ne manifestReads_first released_first
  cases loads_first.symm.trans hloads
  exact ⟨hvalid, horders⟩

theorem pending_second : glob secondTree Path.isPending = [fixTwo.path] := by decide +kernel

set_option maxRecDepth 20000 in
theorem loads_second : loadFragments library secondTree (glob secondTree Path.isPending) =
    .ok [(fixTwo.path, fixTwo.doc)] := by
  rw [pending_second]
  rfl

theorem same_second (p : Path) (hp : p.isPending = false) :
    secondTree.get? p = (applyAll firstOps firstTree).get? p := by
  refine Dict.get?_set_of_ne _ _ fun heq => ?_
  rw [heq] at hp
  exact absurd hp (by decide)

theorem valid_second : validateAll library secondTree none = .ok () := by
  obtain ⟨-, -, -, hvalid, -⟩ :=
    exists_released valid_first pending_first_ne manifestReads_first released_first
  exact validateAll_eq_ok.2 ⟨hvalid.edit same_second (by decide +kernel)
    (exists_loadFragments.1 ⟨_, loads_second⟩).2, fun s hs => nomatch hs⟩

set_option maxRecDepth 20000 in
theorem released_second :
    commandRelease library none second.args "tmp" secondTree = (secondOps, .ok ()) :=
  Prod.ext rfl (toOption_eq_some.1 (by decide +kernel))

theorem pending_second_ne : glob secondTree Path.isPending ≠ [] :=
  pending_second ▸ List.cons_ne_nil _ _

set_option maxRecDepth 20000 in
theorem manifestReads_second : ManifestReads library second.args secondTree := by
  intro loaded h
  cases loads_second.symm.trans h
  rw [show second.args.manifest library [(fixTwo.path, fixTwo.doc)] = second.doc from rfl]
  rfl

end Sample

open Sample in
/-- After two releases with a new fragment in between, both tags are valid. -/
theorem History.tags_valid_second :
    validateAll library (applyAll secondOps secondTree) (some ("v" ++ "1.1.0")) = .ok () ∧
      validateAll library (applyAll secondOps secondTree) (some ("v" ++ "1.0.0")) = .ok () := by
  obtain ⟨N, hreleased, -, hvalid, -⟩ := exists_released valid_second pending_second_ne
    manifestReads_second released_second
  have hfirst : History library none ["1.0.0"] (applyAll firstOps firstTree) :=
    .release "tmp" (.start firstTree) valid_first pending_first_ne manifestReads_first
      released_first
  have htags := History.tags_valid (.release "tmp" (.change hfirst same_second) valid_second
    pending_second_ne manifestReads_second released_second)
    (validateAll_eq_ok.2 ⟨hvalid, fun s hs => nomatch hs⟩) hreleased.glob_pending
  exact ⟨htags "1.1.0" (by decide), htags "1.0.0" (by decide)⟩

end Dnlab.Changes
