import Dnlab.ImageBuild.Logs
import Dnlab.Lib.Dict
import Dnlab.Lib.Text

/-!
# The sources of builds

After `image-build/api.py`. An image is uploaded to a directory of its own, and jobs
refer to it by its path; a job that has ended removes the directory. Nothing keeps two
jobs from naming the same upload, or a job from naming one that is gone.
-/

namespace Dnlab.ImageBuild

/-- A file, by the directory of its upload and its name. -/
abbrev UploadedFile := String × String

/-- `ImageBuildRequest`. -/
structure ImageBuildRequest where
  kind : String
  sourcePath : Option String
  deriving DecidableEq

structure Job where
  kind : String
  sourcePath : Option String
  status : Status
  deriving DecidableEq

/-- The files under `UPLOADS_DIR`, and the jobs by their ids. -/
structure Service where
  files : List UploadedFile
  /-- All files that were ever uploaded. -/
  uploaded : List UploadedFile
  jobs : Dict String Job

/-- `CONTAINER_NATIVE_KINDS`. -/
def containerNativeKinds : List String :=
  ["nokia_srlinux", "arista_ceos", "cisco_xrd", "juniper_crpd", "cisco_c8000",
    "juniper_cjunosevolved", "cumulus_cvx", "6wind_vsr", "keysight_ixia-c-one", "spirent_stc",
    "fdio_vpp", "rare", "vyosnetworks_vyos", "veesix_osvbng", "arrcus_arcos",
    "checkpoint_cloudguard", "nokia_srsim", "generic_vm", "linux"]

/-- `SELF_BUILDING_KINDS`. -/
def selfBuildingKinds : List String := ["dnlab_frr"]

/-- What the service finds around it. -/
structure Surroundings where
  /-- `str(UPLOADS_DIR.resolve())`. -/
  root : String
  /-- The components of `Path(source_path).resolve()` below that, if it is there. -/
  resolve : String → Option (List String)
  /-- `_validate_image_filename(kind, Path(source_path).name)`, by the files of the kind. -/
  checkFilename : (kind sourcePath : String) → Except String Unit

/-- Jobs and uploads come and go: a file was uploaded to a new directory, a job with a new id was
    asked for, was begun or has ended, and jobs that ended are cleared. -/
inductive Event
  | upload (uploadId name : String)
  | create (id : String) (req : ImageBuildRequest)
  | start (id : String)
  | finish (id : String) (returncode : ℤ)
  | clear

section Steps

variable (world : Surroundings)

/-- `_validate_image_format(kind, source_path)`. -/
def validateImageFormat (kind : String) (sourcePath : Option String) : Except String Unit :=
  match sourcePath.filter (· ≠ "") with
  | none =>
    if kind ∈ selfBuildingKinds then .ok ()
    else .error ("kind '" ++ kind ++ "' requires an uploaded source image")
  | some source =>
    if kind ∈ selfBuildingKinds then
      .error ("self-building kind '" ++ kind ++ "' does not accept source_path")
    else if kind ∈ containerNativeKinds then .ok ()
    else if (world.resolve source).isSome then world.checkFilename kind source
    else .error ("source_path must reference an uploaded image (under " ++ world.root ++
      "); got '" ++ source ++ "'.")

/-- The file of an upload that a path names: `source.parent.parent == root`. -/
def uploadedFile (sourcePath : Option String) : Option UploadedFile :=
  match (sourcePath.filter (· ≠ "")).bind world.resolve with
  | some [uploadId, name] => some (uploadId, name)
  | _ => none

/-- `_cleanup_uploaded_source(source_path)`: the directory is removed, with all that is in it. -/
def cleanupUploadedSource (sourcePath : Option String) (files : List UploadedFile) :
    List UploadedFile :=
  match uploadedFile world sourcePath with
  | some source => files.filter (·.1 ≠ source.1)
  | none => files

/-- `create_job(req)`, with the id that was drawn. -/
def createJob (id : String) (req : ImageBuildRequest) (s : Service) : Except String Service := do
  validateImageFormat world req.kind req.sourcePath
  pure { s with jobs := s.jobs.set id ⟨req.kind, req.sourcePath, .queued⟩ }

/-- An event. `mkdir` fails for a directory that is there. The id of a job is drawn once: one that is
    taken, which the code does not look for, is left out. -/
def Service.step (s : Service) : Event → Service
  | .upload uploadId name =>
    if uploadId ∈ s.files.map Prod.fst then s
    else { s with
      files := s.files ++ [(uploadId, name)]
      uploaded := s.uploaded ++ [(uploadId, name)] }
  | .create id req =>
    if s.jobs.contains id then s
    else match createJob world id req s with
      | .ok s' => s'
      | .error _ => s
  | .start id =>
    match s.jobs.get? id with
    | some job =>
      if job.status = .queued then
        { s with jobs := s.jobs.set id { job with status := .running } }
      else s
    | none => s
  | .finish id returncode =>
    match s.jobs.get? id with
    | some job =>
      if job.status = .running then
        { s with
          jobs := s.jobs.set id
            { job with status := if returncode = 0 then .success else .failed }
          files := cleanupUploadedSource world job.sourcePath s.files }
      else s
    | none => s
  | .clear => { s with jobs := s.jobs.filter fun _ job => !job.status.isFinal }

/-- `_load_jobs`: jobs that were not ended when the service stopped have failed. Of the files that were
    uploaded before, some are there and some are gone. -/
def Service.load (files gone : List UploadedFile) (saved : Dict String Job) : Service where
  files
  uploaded := files ++ gone
  jobs := saved.map fun _ job =>
    if job.status.isFinal then job else { job with status := .failed }

/-! ## What jobs refer to -/

/-- A job that has not ended refers to a file that was uploaded. -/
def Service.Refers (s : Service) (id : String) (f : UploadedFile) : Prop :=
  ∃ job, s.jobs.get? id = some job ∧ ¬job.status.isFinal ∧
    uploadedFile world job.sourcePath = some f ∧ f ∈ s.uploaded

/-- The files that jobs refer to are there. -/
def Service.SourcesKept (s : Service) : Prop := ∀ id f, s.Refers world id f → f ∈ s.files

/-- A new job names an upload that is still there, and a job ends after the others that refer to its
    upload. -/
def Service.Welcome (s : Service) : Event → Prop
  | .create id req =>
    s.jobs.contains id = false → validateImageFormat world req.kind req.sourcePath = .ok () →
      ∀ f, uploadedFile world req.sourcePath = some f → f ∈ s.uploaded → f ∈ s.files
  | .finish id _ =>
    ∀ job, s.jobs.get? id = some job → job.status = .running →
      ∀ f, uploadedFile world job.sourcePath = some f →
        ∀ id' f', id' ≠ id → s.Refers world id' f' → f'.1 ≠ f.1
  | .upload _ _ | .start _ | .clear => True

end Steps

end Dnlab.ImageBuild
