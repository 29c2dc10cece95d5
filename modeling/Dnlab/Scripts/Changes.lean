import Dnlab.Lib.Dict
import Dnlab.Scripts.Changes.Manifest

/-!
# Releases

The commands `validate` and `release` of `scripts/changes.py`, on the tree of the
files they are about. A release is a transaction over many files: what it reads
and checks (`plan`) comes before the first file operation, and what it does
(`transact`) is a list of file operations, so that a release that is interrupted
has done the first ones of them.

The outputs are staged in a temporary directory; with the marker of the
transaction, fragments are archived, then the staged outputs put in place, then
the pending fragments and the marker deleted. `selectPaths` tells from the
files that it finds whether a release begins or goes on.
-/

namespace Dnlab.Changes

/-! ## The tree -/

/-- The files that the commands are about. -/
inductive Path
  /-- In `changes/pending`. -/
  | pending (name : String)
  /-- In `changes/archive/<version>`. -/
  | archive (version name : String)
  /-- In `docs/releases`. -/
  | release (name : String)
  /-- `CHANGELOG.md`. -/
  | changelog
  /-- In `dist/release/<version>`. -/
  | dist (version name : String)
  /-- In a temporary directory. -/
  | staged (dir name : String)
  deriving DecidableEq

namespace Path

/-- The parts of a path, by which paths are compared. -/
def parts : Path → List String
  | .pending name => ["changes", "pending", name]
  | .archive version name => ["changes", "archive", version, name]
  | .release name => ["docs", "releases", name]
  | .changelog => ["CHANGELOG.md"]
  | .dist version name => ["dist", "release", version, name]
  | .staged dir name => [dir, name]

/-- The path from the root. -/
def relative (p : Path) : String := Text.join "/" p.parts

/-- The name of a file. -/
def name : Path → String
  | .pending name | .archive _ name | .release name | .dist _ name | .staged _ name => name
  | .changelog => "CHANGELOG.md"

/-- The name of a YAML file without its suffix. -/
def stem (p : Path) : String :=
  if p.name = ".yml" then p.name else Text.removeEnd p.name ".yml"

/-- `*.yml`. -/
def isYml (p : Path) : Bool := Text.endsWith p.name ".yml"

/-- A pending fragment. -/
def isPending (p : Path) : Bool := p matches .pending _ && p.isYml

/-- An archived fragment. -/
def isArchived (p : Path) : Bool := p matches .archive _ _ && p.isYml

/-- A fragment in the archive of a version. -/
def isArchivedIn (version : String) : Path → Bool
  | .archive v name => v = version && (Path.archive v name).isYml
  | _ => false

/-- A release manifest, perhaps of no version. -/
def isRelease (p : Path) : Bool := p matches .release _ && p.isYml

/-- A file in a temporary directory. -/
def isStaged (p : Path) : Bool := p matches .staged _ _

/-- A file in this temporary directory. -/
def isStagedIn (dir : String) : Path → Bool
  | .staged d _ => d = dir
  | _ => false

/-- The marker of a transaction. -/
def isMarker (p : Path) : Bool := p matches .archive _ ".release-transaction.json"

/-- The marker of the transaction of a version. -/
def marker (version : String) : Path := .archive version ".release-transaction.json"

end Path

/-- Files with their contents. -/
abbrev Tree := Dict Path String

/-- The files that satisfy `p`, sorted. -/
def glob (tree : Tree) (p : Path → Bool) : List Path :=
  (tree.keys.filter p).insertionSort fun q r => q.parts ≤ r.parts

/-- A step that fails with a message unless all is well. -/
def require (ok : Prop) [Decidable ok] (message : String) : Except String Unit :=
  if ok then .ok () else .error message

section Read

variable (R : Runtime) (tree : Tree)

/-- The digest of a file: `_file_sha256`. -/
def fileSha256 (p : Path) : Option String := (tree.get? p).map R.sha256

/-- `load_yaml`. -/
def loadYamlFile (p : Path) : Except String Mapping :=
  match tree.get? p with
  | none => .error (p.relative ++ ": cannot read YAML: [Errno 2] No such file or directory")
  | some text =>
    match R.loadYaml text with
    | .error e => .error (p.relative ++ ": cannot read YAML: " ++ e)
    | .ok (.dict d) => .ok d
    | .ok _ => .error (p.relative ++ ": document must be a mapping")

/-! ## Fragments -/

/-- The state of `load_fragments`. -/
structure Loading where
  loaded : List (Path × Mapping)
  errors : List String
  seen : Dict String Path

/-- The id of a fragment is entered, and reported if it was seen before. -/
def Loading.enter (l : Loading) (p : Path) (data : Mapping) : Loading :=
  match (data.get "id").str? with
  | none => l
  | some id =>
    match l.seen.get? id with
    | some q => { l with errors := l.errors ++ ["duplicate id " ++ Text.repr id ++ ": " ++
        q.relative ++ " and " ++ p.relative] }
    | none => { l with seen := l.seen.set id p }

/-- The body of the loop of `load_fragments`. -/
def Loading.visit (l : Loading) (p : Path) : Except String Loading :=
  match loadYamlFile R tree p with
  | .error e => .ok { l with errors := l.errors ++ [e] }
  | .ok data => do
    let problems ← validateFragment p.relative p.stem data
    let l := Loading.enter { l with errors := l.errors ++ problems } p data
    pure { l with loaded := l.loaded ++ [(p, data)] }

/-- `load_fragments`. -/
def loadFragments (paths : List Path) : Except String (List (Path × Mapping)) := do
  let l ← paths.foldlM (Loading.visit R tree) ⟨[], [], ∅⟩
  require (l.errors = []) (Text.join "\n" l.errors)
  pure l.loaded

/-! ## Manifests -/

/-- `release_paths`: the release manifests, the latest version first. -/
def releasePaths : List Path :=
  (((glob tree Path.isRelease).filterMap fun p => (versionKey p.stem).toOption.map (·, p)).insertionSort
    fun a b => b.1 < a.1 ∨ b.1 = a.1 ∧ b.2.parts ≤ a.2.parts).map Prod.snd

/-- A release manifest with its version. -/
def loadManifest (p : Path) : Except String (String × Mapping) := do
  let manifest ← loadYamlFile R tree p
  let version := (manifest.getD "version" (.str p.stem)).print
  let _ ← versionKey version
  pure (version, manifest)

/-- `load_manifests`. -/
def loadManifests (extra : Option Mapping) : Except String (List Mapping) := do
  let loaded ← (releasePaths tree).mapM (loadManifest R tree)
  let manifests ← match extra with
    | none => pure (Dict.ofList loaded)
    | some manifest => do
      let version ← manifest.item "version"
      pure ((Dict.ofList loaded).set version.print manifest)
  let keyed ← manifests.items.mapM fun e => do
    let key ← versionKey e.1
    pure (key, e.2)
  pure ((keyed.insertionSort fun a b => b.1 ≤ a.1).map Prod.snd)

/-! ## Validation -/

/-- The fields of a manifest that are built from its fragments. -/
def generatedFields : List String :=
  ["version", "date", "tag", "summary", "entries", "breaking_changes", "upgrade_notes", "artifacts",
    "source_notes"]

/-- `validate_tag`. -/
def validateTag (tag : String) : Except String Unit := do
  let version := Text.removeStart tag "v"
  let _ ← versionKey version
  let manifestPath := Path.release (version ++ ".yml")
  require (tree.contains manifestPath) ("missing release manifest " ++ manifestPath.relative)
  let manifest ← loadYamlFile R tree manifestPath
  require ((manifest.get "tag").isOneOf ["v" ++ version])
    ("release manifest tag does not match v" ++ version)
  require (glob tree Path.isPending = []) "tag validation failed: pending change fragments remain"
  require (¬tree.contains (Path.marker version))
    "tag validation failed: release transaction is incomplete"
  let archivePaths := glob tree (Path.isArchivedIn version)
  require (archivePaths ≠ []) ("tag validation failed: missing changes/archive/" ++ version ++ "/")
  let loaded ← loadFragments R tree archivePaths
  let artifacts ← manifest.item "artifacts"
  let withLxc ← anyLxc (← iter artifacts)
  let date ← manifest.item "date"
  let summary ← manifest.item "summary"
  let rebuilt := buildManifest R version date.print summary.print
    (loaded.map fun e => Fragment.ofDoc e.2) withLxc
  require (∀ field ∈ generatedFields, (manifest.get field).beq (rebuilt.get field))
    "release manifest does not match its archived change fragments"
  let expected ← renderChangelog R (← loadManifests R tree none)
  require (tree.get? .changelog = some expected)
    "CHANGELOG.md is not the deterministic manifest rendering"

/-- `validate_all`, without a base revision. -/
def validateAll (tag : Option String) : Except String Unit := do
  let partialTransactions := glob tree Path.isMarker
  require (partialTransactions = []) ("incomplete release transaction found: " ++
    Text.join ", " (partialTransactions.map Path.relative) ++ "; rerun the matching release command")
  let _ ← loadFragments R tree (glob tree fun p => p.isPending || p.isArchived)
  let errors ← (releasePaths tree).mapM fun p => do
    let manifest ← loadYamlFile R tree p
    validateReleaseManifest R p.relative p.stem manifest
  require (errors.flatten = []) (Text.join "\n" errors.flatten)
  let expected ← renderChangelog R (← loadManifests R tree none)
  require (tree.contains .changelog) "missing generated CHANGELOG.md"
  require (tree.get? .changelog = some expected)
    ("CHANGELOG.md differs from the deterministic release-manifest rendering; " ++
      "do not edit it manually")
  match tag with
  | none => pure ()
  | some tag => if tag ≠ "" then validateTag R tree tag else pure ()

end Read

/-! ## The transaction of a release -/

/-- What a release is called with. -/
structure Args where
  version : String
  date : String
  summary : String
  withLxc : Bool

/-- The summary with single spaces. -/
def Args.canonicalSummary (args : Args) : String := Text.join " " (Text.words args.summary)

/-- The names of fragments with their digests. -/
abbrev Inventory := List (String × String)

/-- The document of a transaction; its keys are in the order in which they are written. -/
def transactionDoc (args : Args) (fragments : Inventory) : Value :=
  .dict (Mapping.ofFields [("date", .str args.date),
    ("fragments", .dict (Mapping.ofFields (fragments.map fun e => (e.1, .str e.2)))),
    ("summary", .str args.canonicalSummary), ("version", .str args.version),
    ("with_lxc", .bool args.withLxc)])

/-- The texts of a mapping to texts. -/
def inventory? (d : Mapping) : Option Inventory :=
  d.mapM fun
    | (.str name, .str digest) => some (name, digest)
    | _ => none

/-- The path of a name, as in `{path.name: path for path in paths}`. -/
def byName (paths : List Path) (name : String) : Option Path := paths.find? fun p => p.name = name

section Plan

variable (R : Runtime) (git : Option (Tree → Except String (List String))) (args : Args) (tree : Tree)

/-- The manifest of the release. -/
def Args.manifestPath : Path := .release (args.version ++ ".yml")

/-- `_release_transaction_payload`, its fragments. -/
def payload (paths : List Path) : Inventory :=
  paths.map fun p => (p.name, R.sha256 (tree.getD p ""))

/-- `_load_release_transaction`. -/
def loadReleaseTransaction (text : String) : Except String Mapping :=
  match R.loadJson text with
  | .error e => .error ("cannot read partial release transaction " ++
      (Path.marker args.version).relative ++ ": " ++ e)
  | .ok (.dict d) => do
    require (Mapping.get d "fragments" matches .dict _)
      ("invalid partial release transaction " ++ (Path.marker args.version).relative)
    pure d
  | .ok _ => .error ("invalid partial release transaction " ++ (Path.marker args.version).relative)

/-- The file that an expected fragment is taken from: its archived copy, if there is one. -/
def resumePath (pendingPaths archivedPaths : List Path) (e : String × String) : Except String Path :=
  let candidates := (byName archivedPaths e.1).toList ++ (byName pendingPaths e.1).toList
  match candidates.head? with
  | none => .error ("cannot resume release: missing fragment " ++ e.1)
  | some p => do
    require (∀ q ∈ candidates, fileSha256 R tree q = some e.2)
      ("cannot resume release: fragment content changed for " ++ e.1)
    pure p

/-- `_resume_release_paths`, with the inventory of the transaction. -/
def resumeReleasePaths (transaction : Mapping) (pendingPaths archivedPaths : List Path) :
    Except String (Inventory × List Path) := do
  require ((transaction.get "version").beq (.str args.version) ∧
      (transaction.get "date").beq (.str args.date) ∧
      (transaction.get "summary").beq (.str args.canonicalSummary) ∧
      (transaction.get "with_lxc").beq (.bool args.withLxc))
    "cannot resume release with different version, date, summary, or LXC profile"
  let expected ← match transaction.get "fragments" with
    | .dict d =>
      match inventory? d with
      | some (e :: l) => pure (e :: l)
      | _ => throw "partial release transaction has an invalid fragment inventory"
    | _ => throw "partial release transaction has an invalid fragment inventory"
  let unexpected := sorted (((pendingPaths ++ archivedPaths).map Path.name).dedup.filter
    fun name => name ∉ expected.map Prod.fst)
  require (unexpected = [])
    ("cannot resume release with unexpected fragments: " ++ Text.join ", " unexpected)
  let selected ← (expected.insertionSort fun a b => a.1 ≤ b.1).mapM
    (resumePath R tree pendingPaths archivedPaths)
  pure (expected, selected)

/-- `ensure_clean_release_worktree`; there may be no repository. -/
def ensureClean : Except String Unit :=
  match git with
  | none => pure ()
  | some status => do
    let dirty ← status tree
    require (dirty = []) ("new releases require a clean git worktree; outstanding paths: " ++
      Text.join ", " ((dirty.take 5).map fun line =>
        if line.toList.length > 3 then String.ofList (line.toList.drop 3) else line) ++
      if dirty.length > 5 then " ..." else "")

/-- The day of an existing release. -/
def releaseDay (p : Path) : Except String ℕ := do
  let manifest ← loadYamlFile R tree p
  let date ← manifest.item "date"
  match R.fromisoformat date.print with
  | some day => pure day
  | none => throw ("ValueError: Invalid isoformat string: " ++ Text.repr date.print)

/-- The fragments of the release, and the transaction that goes on: the first part of
    `command_release`. -/
def selectPaths (key : List ℕ) (day : ℕ) : Except String (Option Inventory × List Path) := do
  let pendingPaths := glob tree Path.isPending
  let archivedPaths := glob tree (Path.isArchivedIn args.version)
  match tree.get? (Path.marker args.version) with
  | some text => do
    let transaction ← loadReleaseTransaction R args text
    let (expected, selected) ← resumeReleasePaths R args tree transaction pendingPaths archivedPaths
    pure (some expected, selected)
  | none =>
    if tree.contains args.manifestPath ∧ archivedPaths = [] then
      throw (args.manifestPath.relative ++ " already exists without a matching fragment archive")
    else if archivedPaths ≠ [] then do
      -- both lists are sorted by name
      require (pendingPaths = [] ∨ pendingPaths.map (fun p => (p.name, tree.get? p)) =
          archivedPaths.map fun p => (p.name, tree.get? p))
        "cannot resume release: pending fragments differ from the partial archive"
      pure (none, archivedPaths)
    else do
      require (pendingPaths ≠ []) "no pending fragments to release"
      ensureClean git tree
      let existingVersions ← (releasePaths tree).mapM fun p => versionKey p.stem
      require (∀ k ∈ existingVersions, k < key)
        "new release version must be greater than every existing release"
      let existingDays ← (releasePaths tree).mapM (releaseDay R tree)
      require (∀ d ∈ existingDays, d ≤ day)
        "new release date must not precede an existing release date"
      pure (none, pendingPaths)

/-- A manifest that exists already is for the same release. -/
def checkExisting : Except String Unit :=
  if tree.contains args.manifestPath then do
    let existing ← loadYamlFile R tree args.manifestPath
    let hasLxc ← anyLxc (← iter (existing.getD "artifacts" (.list [])))
    require ((existing.get "version").print = args.version ∧
        (existing.get "date").print = args.date ∧
        Text.join " " (Text.words (existing.getD "summary" (.str "")).print) =
          args.canonicalSummary ∧ hasLxc = args.withLxc)
      ("release metadata is immutable; repeat with the original date, summary, " ++
        "and LXC profile")
  else pure ()

/-- The asset that lists all changes of the release, internal ones included. -/
def releaseManifest (manifest : Mapping) (fragments : List Fragment) : Value :=
  .dict (Mapping.ofFields [("version", .str args.version), ("tag", .str ("v" ++ args.version)),
    ("date", .str args.date), ("changes", .strs (fragments.map Fragment.id)),
    ("artifacts", manifest.get "artifacts")])

/-- The path of the asset that lists all changes. -/
def Args.assetPath : Path := .dist args.version ("RELEASE-MANIFEST-" ++ args.version ++ ".json")

/-- What a release writes. -/
def outputs (manifest : Mapping) (fragments : List Fragment) (changelog snapshot notes : String) :
    List (Path × String) :=
  [(args.manifestPath, R.dumpYaml (.dict manifest)), (.changelog, changelog),
    (.dist args.version ("CHANGELOG-" ++ args.version ++ ".md"), snapshot),
    (.dist args.version ("RELEASE_NOTES-" ++ args.version ++ ".md"), notes),
    (args.assetPath, R.dumpJson (releaseManifest args manifest fragments) ++ "\n")]

/-- What a release of some fragments writes: the middle part of `command_release`. -/
def composeOutputs (selectedPaths : List Path) : Except String (List (Path × String)) := do
  let loaded ← loadFragments R tree selectedPaths
  let fragments := loaded.map fun e => Fragment.ofDoc e.2
  let manifest :=
    buildManifest R args.version args.date args.canonicalSummary fragments args.withLxc
  let errors ← validateReleaseManifest R args.manifestPath.relative args.manifestPath.stem manifest
  require (errors = []) (Text.join "\n" errors)
  let changelog ← renderChangelog R (← loadManifests R tree (some manifest))
  let notes ← renderReleaseNotes R manifest
  let snapshot ← renderChangelog R [manifest]
  pure (outputs R args manifest fragments changelog snapshot notes)

/-- What a release is going to do. -/
structure Plan where
  transaction : Option Inventory
  outputs : List (Path × String)

/-- `command_release`, up to the first file operation. -/
def plan : Except String Plan := do
  let key ← versionKey args.version
  let day ← match R.fromisoformat args.date with
    | some day => pure day
    | none => throw "release date must use YYYY-MM-DD"
  let (transaction, selectedPaths) ← selectPaths R git args tree key day
  checkExisting R args tree
  let outputs ← composeOutputs R args tree selectedPaths
  pure ⟨transaction, outputs⟩

end Plan

/-! ## File operations -/

/-- A file operation. A file is written by creating it and filling it. -/
inductive Op
  | create (p : Path)
  | fill (p : Path) (content : String)
  | rename (source target : Path)
  | unlink (p : Path)
  deriving DecidableEq

/-- What an operation does. -/
def Op.apply (tree : Tree) : Op → Tree
  | .create p => tree.set p ""
  | .fill p content => tree.set p content
  | .rename source target =>
    match tree.get? source with
    | some content => (tree.erase source).set target content
    | none => tree
  | .unlink p => tree.erase p

/-- What operations do, one after the other. -/
def applyAll (ops : List Op) (tree : Tree) : Tree := ops.foldl Op.apply tree

/-- `write_text`, or a copy of a file with this content. -/
def writeText (p : Path) (content : String) : List Op := [.create p, .fill p content]

section Transact

variable (R : Runtime) (git : Option (Tree → Except String (List String))) (args : Args)
  (dir : String)

/-- Where the outputs are staged. -/
def stagedOutputs (outputs : List (Path × String)) : List (Path × Path × String) :=
  outputs.zipIdx.map fun e => (.staged dir ("output-" ++ toString e.2), e.1)

/-- The copies into the archive, with the tree as it is when the loop comes to a fragment. -/
def archiveFragments (sources : String → Option Path) :
    Inventory → Tree → List Op × Except String Unit
  | [], _ => ([], .ok ())
  | (name, digest) :: rest, tree =>
    let target := Path.archive args.version name
    if tree.contains target then
      if fileSha256 R tree target = some digest then archiveFragments sources rest tree
      else ([], .error ("archived fragment content changed for " ++ name))
    else
      match (sources name).bind tree.get? with
      | some content =>
        if R.sha256 content = digest then
          let copy := writeText target content
          let (ops, result) := archiveFragments sources rest (applyAll copy tree)
          (copy ++ ops, result)
        else ([], .error ("cannot archive expected fragment " ++ name))
      | none => ([], .error ("cannot archive expected fragment " ++ name))

/-- The marker of a transaction that begins. -/
def writeMarker (fragments : Inventory) : List Op :=
  writeText (.staged dir "release-transaction.json")
    (R.dumpJson (transactionDoc args fragments) ++ "\n") ++
  [.rename (.staged dir "release-transaction.json") (Path.marker args.version)]

/-- The file operations of a release. When it fails, the temporary directory is deleted. -/
def transact (p : Plan) (tree : Tree) : List Op × Except String Unit :=
  let pendingPaths := glob tree Path.isPending
  let archivedPaths := glob tree (Path.isArchivedIn args.version)
  let staged := stagedOutputs dir p.outputs
  let stage := staged.flatMap fun e => writeText e.1 e.2.2
  let transaction := p.transaction.getD (payload R tree pendingPaths)
  let mark := if pendingPaths ≠ [] ∧ p.transaction = none then writeMarker R args dir transaction
    else []
  let sources := fun name => (byName archivedPaths name).or (byName pendingPaths name)
  let (copies, result) :=
    if pendingPaths ≠ [] then
      archiveFragments R args sources transaction (applyAll (stage ++ mark) tree)
    else ([], .ok ())
  let ops := stage ++ mark ++ copies
  match result with
  | .error e => (ops ++ ((applyAll ops tree).keys.filter (Path.isStagedIn dir)).map .unlink, .error e)
  | .ok () => (ops ++ (staged.map fun e => .rename e.1 e.2.1) ++ pendingPaths.map .unlink ++
      [.unlink (Path.marker args.version)], .ok ())

/-- `command_release`: the file operations, and how it ends. -/
def commandRelease (tree : Tree) : List Op × Except String Unit :=
  match plan R git args tree with
  | .error e => ([], .error e)
  | .ok p => transact R args dir p tree

end Transact

end Dnlab.Changes
