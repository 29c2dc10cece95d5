import Dnlab.Services.Generator
import Dnlab.Services.Remote
import Mathlib.Logic.Function.Basic

/-!
# Overlays of persistent devices

Where the data of persistent devices lies on the hosts, and how it is brought to the
hosts that they are scheduled on, after `_prepare_local_sticky` in
`services/persistence.py`. The hosts do what the commands say: a command only fails
when the overlay that it is to copy is not there. Directories are told apart by their
paths, and none lies inside another. Left out are the shared backend, the size of what
is copied, and what `tar` prints.
-/

namespace Dnlab.Persistence

open Function (update)

/-- The files of a directory: their contents by their paths in it. -/
abbrev Files := Dict String String

/-- What is done to an overlay. -/
inductive Move
  /-- On a host, from one path to another. -/
  | adopted (host legacy stable : String)
  /-- From one host to another. -/
  | migrated (path oldHost newHost : String)
  deriving DecidableEq

/-- `progress.emit(phase, status, host=host, detail=detail, data=data)`. -/
structure Progress where
  phase : String
  status : String
  host : String
  detail : String
  data : List (String × String)
  deriving DecidableEq

/-- What the preparation finds and changes. -/
structure Site where
  /-- The directories of each host, by their paths. -/
  overlays : String → String → Option Files
  /-- The names that `docker ps` prints on each host. -/
  containers : String → List String
  /-- The path of the state file of the lab, if there is one. -/
  stateFile : Option String
  progress : List Progress := []
  /-- What was done to overlays, which no command reads. -/
  moves : List Move := []

/-- A program that works on the overlays. -/
abbrev Task (α : Type) := Prog Site Err α

/-- `PersistenceError(message)`. -/
def persistenceError (message : String) : Err := ⟨.other, message⟩

/-- `test -d path && find path -mindepth 1 -print -quit` prints something. -/
def hasContent : Option Files → Bool
  | some files => files.items ≠ []
  | none => false

namespace Site

/-- Make a directory what it is to be. -/
def put (site : Site) (host path : String) (files : Option Files) : Site :=
  { site with overlays := update site.overlays host (update (site.overlays host) path files) }

def note (site : Site) (move : Move) : Site := { site with moves := site.moves ++ [move] }

/-- `rm -rf -- stable; mv -- legacy stable`. -/
def adopt (site : Site) (host legacy stable : String) : Site :=
  ((site.put host stable (site.overlays host legacy)).put host legacy none).note
    (.adopted host legacy stable)

/-- Unpack what is packed on the old host, over what is there, and remove it on the old host. -/
def migrate (site : Site) (path oldHost newHost : String) (files : Files) : Site :=
  ((site.put newHost path (some (((site.overlays newHost path).getD ∅).update files.items))).put
    oldHost path none).note (.migrated path oldHost newHost)

end Site

/-! ## Devices -/

/-- `_persist_key(topo, vd_name)`. -/
def persistKey (vdName : String) (node : VDNode) : String := Text.orElse node.persistId vdName

/-- The directory of a device. -/
def overlayPath (topo : DistributedTopology) (vdName : String) (node : VDNode) : String :=
  Generator.persistDirForNode topo.name vdName node.persistId topo.persistenceRoot

/-- The directory that a device had before it had an identity of its own. -/
def legacyPath (topo : DistributedTopology) (vdName : String) : String :=
  Generator.persistDirForNode topo.name vdName "" topo.persistenceRoot

/-- `_persistent_vds(topo)`, with the nodes. -/
def persistentVds (topo : DistributedTopology) : List (String × VDNode) :=
  topo.nodes.items.filter fun (_, node) => Generator.needsPersistBind node.image

/-- The host that the history has for a device. -/
def oldHostOf (history : Dict String String) (vdName : String) (node : VDNode) : Option String :=
  ((history.get? (persistKey vdName node)).filter (· ≠ "")).or
    ((history.get? vdName).filter (· ≠ ""))

/-- The host that a device is scheduled on. -/
def newHostOf (plan : SchedulePlan) (vdName : String) : Option String :=
  (plan.hostForVd vdName).filter (· ≠ "")

/-- Whether a device has an identity of its own. -/
def adopts (topo : DistributedTopology) (vdName : String) (node : VDNode) : Bool :=
  node.persistId ≠ "" ∧ node.persistId ≠ vdName ∧ legacyPath topo vdName ≠ overlayPath topo vdName node

/-- `_adopt_legacy_overlay_paths`: the command on one host. -/
def adoptOn (topo : DistributedTopology) (vdName : String) (node : VDNode) (host : String) :
    Task Unit := do
  let legacy := legacyPath topo vdName
  let stable := overlayPath topo vdName node
  let site ← .get
  if hasContent (site.overlays host legacy) then
    if hasContent (site.overlays host stable) then
      .raise (persistenceError ("Overlay for " ++ vdName ++ " exists in both legacy path " ++
        legacy ++ " and stable path " ++ stable ++ " on " ++ host ++
        "; manual reconciliation is required"))
    else .modify fun site => site.adopt host legacy stable
  else pure ()

/-- `_adopt_legacy_overlay_paths(topo, vd_name, clients)`. -/
def adoptLegacyOverlayPaths (topo : DistributedTopology) (clients : Clients) (vdName : String)
    (node : VDNode) : Task Unit :=
  (Prog.forEach clients.keys (adoptOn topo vdName node)).when (adopts topo vdName node)

/-- `_find_existing_overlay_hosts(topo, vd_name, clients)`. -/
def findExistingOverlayHosts (clients : Clients) (path : String) (site : Site) : List String :=
  clients.keys.filter fun host => hasContent (site.overlays host path)

/-- An overlay that is to be moved. -/
structure Migration where
  vdName : String
  node : VDNode
  oldHost : String
  newHost : String

/-- The directory that is to be moved. -/
def Migration.path (topo : DistributedTopology) (migration : Migration) : String :=
  overlayPath topo migration.vdName migration.node

/-- The body of the first loop of `_prepare_local_sticky`. -/
def planMigration (topo : DistributedTopology) (plan : SchedulePlan) (history : Dict String String)
    (clients : Clients) (vd : String × VDNode) : Task (List Migration) :=
  let (vdName, node) := vd
  match newHostOf plan vdName with
  | none => pure []
  | some newHost => do
    adoptLegacyOverlayPaths topo clients vdName node
    let site ← .get
    let path := overlayPath topo vdName node
    match (oldHostOf history vdName node).filter (· ≠ newHost) with
    | some oldHost =>
      if clients.get? oldHost = none then
        .raise (persistenceError ("Overlay for " ++ vdName ++ " was last placed on " ++ oldHost ++
          ", but that host is not in the current inventory"))
      else if hasContent (site.overlays oldHost path) then pure [⟨vdName, node, oldHost, newHost⟩]
      else
        .raise (persistenceError ("Overlay for " ++ vdName ++ " was last placed on " ++ oldHost ++
          ", but no overlay data was found there"))
    | none =>
      match findExistingOverlayHosts clients path site with
      | [] => pure []
      | [host] => pure (if host = newHost then [] else [⟨vdName, node, host, newHost⟩])
      | found =>
        .raise (persistenceError ("Overlay for " ++ vdName ++ " exists on multiple hosts (" ++
          Text.join ", " found ++ "); manual reconciliation is required before deploy"))

/-- The first loop of `_prepare_local_sticky`. -/
def planMigrations (topo : DistributedTopology) (plan : SchedulePlan) (history : Dict String String)
    (clients : Clients) : Task (List Migration) := do
  let migrations ← .mapEach (persistentVds topo) (planMigration topo plan history clients)
  pure migrations.flatten

/-! ## Migrations -/

/-- `_assert_lab_offline(topo, clients, directory)`. -/
def assertLabOffline (topo : DistributedTopology) (clients : Clients) : Task Unit := do
  let site ← .get
  match site.stateFile with
  | some path =>
    .raise (persistenceError ("Lab " ++ topo.name ++ " appears deployed (" ++ path ++
      " exists); destroy it before migrating persistent overlays"))
  | none =>
    let names := (persistentVds topo).map fun (vd, _) => Naming.vdContainerName topo.name vd
    .forEach clients.keys fun host =>
      match names.find? (· ∈ site.containers host) with
      | some running =>
        .raise (persistenceError ("Lab " ++ topo.name ++ " is still running on " ++ host ++ " (" ++
          running ++ "); destroy it before migrating persistent overlays"))
      | none => pure ()

/-- `_migrate_overlay(topo, vd_name, src, dst)`. -/
def migrateOverlay (topo : DistributedTopology) (migration : Migration) : Task Unit := do
  let site ← .get
  match site.overlays migration.oldHost (migration.path topo) with
  | none => .raise (persistenceError ("source tar failed on " ++ migration.oldHost))
  | some files =>
    .modify fun site =>
      site.migrate (migration.path topo) migration.oldHost migration.newHost files

/-- `clients[host]` -/
def clientOf (clients : Clients) (host : String) : Task InfraHost :=
  match clients.get? host with
  | some client => pure client
  | none => .raise (Clients.missing host)

/-- `progress.emit("overlay-migration", status, host=new_host, …)`. -/
def emit (migration : Migration) (status detail : String) : Task Unit :=
  .modify fun site =>
    { site with
      progress := site.progress ++
        [{ phase := "overlay-migration"
           status
           host := migration.newHost
           detail
           data := [("node", migration.vdName), ("from", migration.oldHost),
             ("to", migration.newHost)] }] }

/-- The body of the second loop of `_prepare_local_sticky`. -/
def runMigration (topo : DistributedTopology) (clients : Clients) (migration : Migration) :
    Task Unit := do
  emit migration "start" ("Migrating overlay " ++ migration.vdName ++ ": " ++ migration.oldHost ++
    " -> " ++ migration.newHost)
  (do
    let _ ← clientOf clients migration.oldHost
    let _ ← clientOf clients migration.newHost
    migrateOverlay topo migration).rescue fun e => do
      emit migration "error" ("Overlay migration failed for " ++ migration.vdName ++ ": " ++
        e.message)
      .raise e
  emit migration "ok" ("Overlay " ++ migration.vdName ++ " migrated from " ++ migration.oldHost ++
    " to " ++ migration.newHost)

/-- `_prepare_local_sticky(topo, plan, clients, directory, progress)`. -/
def prepareLocalSticky (topo : DistributedTopology) (plan : SchedulePlan)
    (history : Dict String String) (clients : Clients) : Task Unit :=
  (do
    let migrations ← planMigrations topo plan history clients
    (do
      assertLabOffline topo clients
      .forEach migrations (runMigration topo clients)).when (migrations ≠ [])).when
    (persistentVds topo ≠ [])

end Dnlab.Persistence
