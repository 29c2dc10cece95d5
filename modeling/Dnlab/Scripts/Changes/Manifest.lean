import Dnlab.Scripts.Changes.Fragment
import Mathlib.Data.Prod.Lex
import Mathlib.Data.String.Basic

/-!
# Release manifests

A release is described by a manifest, after `scripts/changes.py`: its entries
are the public fragments, in the order of their category, title and id
(`buildManifest`). The changelog and the release notes are rendered from the
manifests (`renderChangelog`, `renderReleaseNotes`), and a manifest is validated
when it is written and whenever it is read again (`validateReleaseManifest`).

* `buildManifest_perm`: the manifest does not depend on the order in which the
  fragments are listed;
* `changeIds_buildManifest`: its entries are the public fragments.
-/

namespace Dnlab.Changes

/-- What the script gets from its language and its libraries. -/
structure Runtime where
  /-- `yaml.safe_load`. -/
  loadYaml : String → Except String Value
  /-- `dump_yaml`. -/
  dumpYaml : Value → String
  /-- `json.loads`. -/
  loadJson : String → Except String Value
  /-- `json.dumps` with sorted keys. -/
  dumpJson : Value → String
  /-- `hashlib.sha256(…).hexdigest()`. -/
  sha256 : String → String
  /-- `str.casefold`. -/
  casefold : String → String
  /-- The day of a date in ISO format, if it is one: `dt.date.fromisoformat`. -/
  fromisoformat : String → Option ℕ
  /-- `textwrap.fill` at 80 columns, with the first and the other indents. -/
  fill : String → String → String → String

/-! ## Versions -/

/-- `0|[1-9]\d*`. -/
def versionPart? (s : String) : Option ℕ :=
  match s.toList with
  | [] => none
  | c :: l =>
    if c = '0' ∧ l = [] then some 0
    else if '1' ≤ c ∧ c ≤ '9' ∧ l.all Text.isDecimal then
      some ((c :: l).foldl (fun n d => 10 * n + Text.decimalValue d) 0)
    else none

/-- `version_key`. Keys are compared part by part. -/
def versionKey (version : String) : Except String (List ℕ) :=
  match (Text.split '.' version).map versionPart? with
  | [some a, some b, some c] => .ok [a, b, c]
  | _ => .error ("invalid semantic version: " ++ Text.repr version)

section Build

variable (R : Runtime)

/-! ## Building a manifest -/

/-- What public fragments are sorted by. -/
def fragmentKey (f : Fragment) : ℕ ×ₗ String ×ₗ String :=
  toLex (categoryOrder.idxOf f.type.category, toLex (R.casefold f.title, f.id))

/-- Whether a fragment is published. -/
def Fragment.published (f : Fragment) : Bool :=
  f.isPublic && f.type ≠ .internal && f.type ≠ .none

/-- `public_fragments`. -/
def publicFragments (fragments : List Fragment) : List Fragment :=
  (fragments.filter Fragment.published).insertionSort fun f g => fragmentKey R f ≤ fragmentKey R g

/-- `fragment_entry`. -/
def fragmentEntry (f : Fragment) : Mapping :=
  Mapping.ofFields ([("category", .str f.type.category), ("title", .str f.title),
    ("body", .str f.description), ("change_id", .str f.id), ("components", .strs f.components),
    ("audience", .strs f.audience)] ++
    (if f.references ≠ [] then [("references", .strs f.references)] else []) ++
    if f.vd.truthy then [("vd", f.vd)] else [])

/-- An artifact of a release. -/
def artifact (name type path channel notes : String) : Value :=
  .dict (Mapping.ofFields [("name", .str name), ("type", .str type), ("path", .str path),
    ("channel", .str channel), ("notes", .str notes)])

/-- `artifacts_for`. -/
def artifactsFor (version : String) (withLxc : Bool) : List Value :=
  [artifact "Source archives" "github-release" ("*-" ++ version ++ "-source.tar.gz")
      "GitHub Release" "Corresponding source archives for the published GHCR images.",
    artifact "Source checksums" "github-release" "SHA256SUMS" "GitHub Release"
      "Checksums for downloadable release assets."] ++
  if withLxc then
    [artifact "Proxmox LXC template" "lxc-proxmox"
        ("dnlab-lxc-proxmox-" ++ version ++ "-amd64.tar.zst") "GHCR and GitHub Release mirror"
        ("Canonical OCI artifact ghcr.io/scaci/dnlab-lxc-proxmox:" ++ version ++ "."),
      artifact "Proxmox LXC release notes" "lxc-proxmox"
        ("LXC-RELEASE-NOTES-" ++ version ++ ".md") "GHCR and GitHub Release mirror"
        "Browser-friendly release note mirror for the LXC artifact."]
  else []

/-- The upgrade notes of some fragments, each once. -/
def upgradeNotes (fragments : List Fragment) : List String :=
  (fragments.flatMap Fragment.upgradeNotes).foldl
    (fun notes note => if note ∈ notes then notes else notes ++ [note]) []

/-- `build_manifest`. -/
def buildManifest (version date summary : String) (fragments : List Fragment) (withLxc : Bool) :
    Mapping :=
  let public_ := publicFragments R fragments
  Mapping.ofFields [("version", .str version), ("date", .str date), ("tag", .str ("v" ++ version)),
    ("summary", .str summary),
    ("entries", .list (public_.map fun f => .dict (fragmentEntry f))),
    ("breaking_changes", .list ((public_.filter Fragment.breaking).map fun f =>
      .dict (Mapping.ofFields [("title", .str f.title), ("body", .str f.description)]))),
    ("upgrade_notes", .strs (upgradeNotes public_)),
    ("artifacts", .list (artifactsFor version withLxc)),
    ("source_notes", .strs ["CHANGELOG.md", "changes/archive/" ++ version ++ "/"]),
    ("internal_refs", .list [])]

variable {R} {fragments fragments' : List Fragment}

theorem mem_publicFragments {f : Fragment} :
    f ∈ publicFragments R fragments ↔ f ∈ fragments ∧ f.published := by
  rw [publicFragments, List.mem_insertionSort, List.mem_filter]

/-- The order of the public fragments does not depend on how they are listed. -/
theorem publicFragments_perm (h : fragments.Perm fragments')
    (hid : (fragments.map Fragment.id).Nodup) :
    publicFragments R fragments = publicFragments R fragments' := by
  have hsorted (l : List Fragment) :
      (publicFragments R l).Pairwise fun f g => fragmentKey R f ≤ fragmentKey R g := by
    have : Std.Total fun f g : Fragment => fragmentKey R f ≤ fragmentKey R g :=
      ⟨fun f g => le_total _ _⟩
    have : IsTrans Fragment fun f g => fragmentKey R f ≤ fragmentKey R g :=
      ⟨fun _ _ _ => le_trans⟩
    exact List.pairwise_insertionSort _ _
  have hperm : (publicFragments R fragments).Perm (publicFragments R fragments') :=
    ((List.perm_insertionSort _ _).trans (h.filter _)).trans (List.perm_insertionSort _ _).symm
  refine hperm.eq_of_pairwise (fun f g hf hg hfg hgf => ?_) (hsorted _) (hsorted _)
  -- of two fragments with one key, the ids are the same
  have hkey : f.id = g.id := congrArg (fun k => (ofLex (ofLex k).2).2) (le_antisymm hfg hgf)
  have hf := (mem_publicFragments.1 hf).1
  have hg := h.mem_iff.2 (mem_publicFragments.1 hg).1
  exact List.inj_on_of_nodup_map hid hf hg hkey

/-- The manifest does not depend on how the fragments are listed. -/
theorem buildManifest_perm (version date summary : String) (withLxc : Bool)
    (h : fragments.Perm fragments') (hid : (fragments.map Fragment.id).Nodup) :
    buildManifest R version date summary fragments withLxc =
      buildManifest R version date summary fragments' withLxc := by
  rw [buildManifest, buildManifest, publicFragments_perm h hid]

end Build

/-- The ids of the changes that a manifest has entries for. -/
def changeIds (manifest : Mapping) : List String :=
  match manifest.get "entries" with
  | .list entries => entries.filterMap fun
    | .dict entry => (Mapping.get entry "change_id").str?
    | _ => none
  | _ => []

/-- The entries of a manifest are the public fragments. -/
theorem changeIds_buildManifest (R : Runtime) (version date summary : String)
    (fragments : List Fragment) (withLxc : Bool) :
    (changeIds (buildManifest R version date summary fragments withLxc)).Perm
      ((fragments.filter Fragment.published).map Fragment.id) := by
  have hids : changeIds (buildManifest R version date summary fragments withLxc) =
      (publicFragments R fragments).map Fragment.id := by
    have hentries : Mapping.get (buildManifest R version date summary fragments withLxc) "entries" =
        .list ((publicFragments R fragments).map fun f => .dict (fragmentEntry f)) := rfl
    rw [changeIds, hentries]
    dsimp only
    rw [List.filterMap_map, ← List.filterMap_eq_map]
    rfl
  rw [hids]
  exact (List.perm_insertionSort _ _).map _

/-! ## Reading a manifest -/

/-- `for x in v`. -/
def iter : Value → Except String (List Value)
  | .list l => .ok l
  | .str s => .ok (s.toList.map fun c => .str (String.ofList [c]))
  | .dict d => .ok (d.map fun e => match e.1 with
    | .str s => .str s
    | .other r => .other r r true)
  | _ => .error "TypeError: object is not iterable"

/-- `for x in v or []`. -/
def elements (v : Value) : Except String (List Value) := if v.truthy then iter v else .ok []

/-- A value that must have a `get`. -/
def asMapping : Value → Except String Mapping
  | .dict d => .ok d
  | _ => .error "AttributeError: object has no attribute 'get'"

/-- Whether some artifact is of type `lxc-proxmox`. -/
def anyLxc : List Value → Except String Bool
  | [] => .ok false
  | v :: l => do
    let item ← asMapping v
    if (item.get "type").isOneOf ["lxc-proxmox"] then pure true else anyLxc l

/-! ## Validation -/

/-- The fields that a manifest must have. -/
def requiredFields : List String :=
  ["version", "date", "tag", "summary", "entries", "breaking_changes", "upgrade_notes", "artifacts",
    "source_notes", "internal_refs"]

/-- Whether a value is a mapping with texts in some fields. -/
def hasTexts (fields : List String) : Value → Bool
  | .dict d => fields.all fun field => nonemptyString (Mapping.get d field)
  | _ => false

/-- The elements of a field of a manifest that lack something. -/
def itemProblems (field : String) (fields : List String) (requires : String) (items : List Value) :
    List String :=
  items.zipIdx.flatMap fun e =>
    check (hasTexts fields e.1) (field ++ "[" ++ toString e.2 ++ "] requires " ++ requires)

/-- What is wrong with a manifest, without the name of its file. -/
def manifestProblems (R : Runtime) (stem : String) (manifest : Mapping) :
    Except String (List String) := do
  let missing := sorted (requiredFields.filter (!manifest.has ·))
  let version := (manifest.getD "version" (.str "")).print
  let entries ← elements (manifest.getD "entries" (.list []))
  let breaking ← elements (manifest.getD "breaking_changes" (.list []))
  let artifacts ← elements (manifest.getD "artifacts" (.list []))
  pure (check missing.isEmpty ("missing fields: " ++ Text.join ", " missing) ++
    (match versionKey version with
    | .ok _ => []
    | .error e => [e]) ++
    check (stem = version) "filename/version mismatch" ++
    check ((manifest.get "tag").isOneOf ["v" ++ version]) ("tag must be v" ++ version) ++
    check (R.fromisoformat (manifest.getD "date" (.str "")).print).isSome "date must use YYYY-MM-DD" ++
    check (nonemptyString (manifest.get "summary")) "summary must be a non-empty string" ++
    (["entries", "breaking_changes", "artifacts"].flatMap fun field =>
      check (manifest.get field matches .list _) (field ++ " must be a list")) ++
    (["upgrade_notes", "source_notes", "internal_refs"].flatMap fun field =>
      check (stringList (manifest.get field) false) (field ++ " must be a string list")) ++
    itemProblems "entries" ["category", "title", "body"] "category, title and body" entries ++
    itemProblems "breaking_changes" ["title", "body"] "title and body" breaking ++
    itemProblems "artifacts" ["name", "type", "path", "channel", "notes"]
      "name, type, path, channel and notes" artifacts)

/-- `validate_release_manifest`. -/
def validateReleaseManifest (R : Runtime) (name stem : String) (manifest : Mapping) :
    Except String (List String) :=
  (manifestProblems R stem manifest).map fun l => l.map (name ++ ": " ++ ·)

section Render

variable (R : Runtime)

/-! ## Rendering -/

/-- `_wrap`. -/
def wrap (text initial subsequent : String) : String :=
  R.fill initial subsequent (Text.join " " (Text.words text))

/-- An item of a list in a rendered text. -/
def bullet (text : String) : String := wrap R text "- " "  "

/-- A section with its heading, if there is something in it. -/
def renderSection (heading : String) (lines : List String) : List String :=
  ["### " ++ heading, ""] ++ lines ++ [""]

/-- `render_release_sections`. -/
def renderReleaseSections (manifest : Mapping) (includeArtifacts : Bool) : Except String String := do
  let entries ← (← elements (manifest.getD "entries" (.list []))).mapM asMapping
  let categories := (entries.map fun e => (e.get "category").print).dedup
  let ordered := categoryOrder.filter categories.contains ++
    sorted (categories.filter (!categoryOrder.contains ·))
  let entryLines := ordered.flatMap fun category =>
    renderSection category ((entries.filter fun e => (e.get "category").isOneOf [category]).map
      fun e => bullet R (Text.stripSpaces (e.getD "title" (.str "")).print ++ ": " ++
        Text.stripSpaces (e.getD "body" (.str "")).print))
  let breaking ← elements (manifest.getD "breaking_changes" (.list []))
  let breakingLines ←
    if breaking ≠ [] ∧ "Breaking" ∉ categories then do
      let items ← breaking.mapM asMapping
      pure (renderSection "Breaking Changes" (items.map fun item =>
        bullet R ((item.getD "title" (.str "")).print ++ ": " ++ (item.getD "body" (.str "")).print)))
    else pure []
  let notes ← elements (manifest.getD "upgrade_notes" (.list []))
  let noteLines :=
    if notes ≠ [] then renderSection "Upgrade Notes" (notes.map fun note => bullet R note.print)
    else []
  let artifacts ← elements (manifest.getD "artifacts" (.list []))
  let artifactLines ←
    if includeArtifacts ∧ artifacts ≠ [] then do
      let items ← artifacts.mapM asMapping
      pure (renderSection "Artifacts" (items.map fun item =>
        let channel := item.get "channel"
        bullet R ((item.getD "name" (.str "")).print ++ ": " ++ (item.getD "path" (.str "")).print ++
          if channel.truthy then " (" ++ channel.print ++ ")" else "")))
    else pure []
  pure (Text.rstripSpaces
    (Text.join "\n" (entryLines ++ breakingLines ++ noteLines ++ artifactLines)))

/-- The part of the changelog about one release. -/
def renderChangelogRelease (manifest : Mapping) : Except String (List String) := do
  let version ← manifest.item "version"
  let sections ← renderReleaseSections R manifest true
  pure (["## " ++ version.print ++ " - " ++ (manifest.getD "date" (.str "")).print, "",
    wrap R (manifest.getD "summary" (.str "")).print "" "", ""] ++
    if sections ≠ "" then [sections, ""] else [])

/-- `render_changelog`. -/
def renderChangelog (manifests : List Mapping) : Except String String := do
  let releases ← manifests.mapM (renderChangelogRelease R)
  pure (Text.rstripSpaces (Text.join "\n" (["# Changelog", "",
    "All notable public changes to dNLab are recorded in this file.", "",
    "This changelog is generated from the structured release sources in",
    "`docs/releases/`. Internal bug-tracking references stay in the private",
    "operational repository and are not published here.", ""] ++ releases.flatten)) ++ "\n")

/-- `render_release_notes`. -/
def renderReleaseNotes (manifest : Mapping) : Except String String := do
  let version ← manifest.item "version"
  let sections ← renderReleaseSections R manifest true
  pure (Text.rstripSpaces (Text.join "\n" ["# dNLab " ++ version.print, "",
    wrap R (manifest.getD "summary" (.str "")).print "" "", "", sections, ""]) ++ "\n")

end Render

end Dnlab.Changes
