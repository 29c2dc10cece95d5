import Dnlab.ImageBuild.Uploads

/-!
# How long sources last

A source that a job refers to is there until the job has ended, all the way in a run,
just when every event of the run is `Welcome` (`sources_kept_iff`): a new job names an
upload that is still there, and no job ends while another one needs its upload.
-/

namespace Dnlab.ImageBuild

open Machine (run GuardedRun)

namespace Service

variable {world : Surroundings} {s : Service}

theorem sourcesKept_load (files gone : List UploadedFile) (saved : Dict String Job) :
    (load files gone saved).SourcesKept world := by
  rintro id f ⟨job, hjob, hfinal, _⟩
  rw [load, Dict.get?_map, Option.map_eq_some_iff] at hjob
  obtain ⟨job', _, rfl⟩ := hjob
  split at hfinal
  · exact absurd ‹_› hfinal
  · exact absurd rfl hfinal

theorem sourcesKept_upload (h : s.SourcesKept world) (uploadId name : String) :
    (s.step world (.upload uploadId name)).SourcesKept world := by
  rw [step]
  split
  · exact h
  · rintro id f ⟨job, hjob, hfinal, hfile, hmem⟩
    rcases List.mem_append.1 hmem with hmem | hmem
    · exact List.mem_append_left _ (h id f ⟨job, hjob, hfinal, hfile, hmem⟩)
    · exact List.mem_append_right _ hmem

/-- With one more job that is queued, its file must be there. -/
theorem sourcesKept_queued (h : s.SourcesKept world) {id : String} {req : ImageBuildRequest} :
    ({ s with jobs := s.jobs.set id ⟨req.kind, req.sourcePath, .queued⟩ } : Service).SourcesKept
      world ↔ ∀ f, uploadedFile world req.sourcePath = some f → f ∈ s.uploaded → f ∈ s.files := by
  constructor
  · exact fun hkept f hfile hmem =>
      hkept id f ⟨_, Dict.get?_set_self .., Bool.false_ne_true, hfile, hmem⟩
  · rintro hnew id' f ⟨job, hjob, hfinal, hfile, hmem⟩
    rcases eq_or_ne id' id with rfl | hne
    · obtain rfl := Option.some.inj ((Dict.get?_set_self ..).symm.trans hjob)
      exact hnew f hfile hmem
    · exact h id' f ⟨job, (Dict.get?_set_of_ne _ _ hne).symm.trans hjob, hfinal, hfile, hmem⟩

theorem sourcesKept_create (h : s.SourcesKept world) (id : String) (req : ImageBuildRequest) :
    (s.step world (.create id req)).SourcesKept world ↔ s.Welcome world (.create id req) := by
  rw [step, Welcome]
  by_cases hid : s.jobs.contains id
  · rw [if_pos hid]
    exact iff_of_true h fun hnot => by rw [hid] at hnot; cases hnot
  · rw [if_neg hid, createJob]
    rcases hvalid : validateImageFormat world req.kind req.sourcePath with text | _
    · exact iff_of_true h fun _ hok => by cases hok
    · exact (sourcesKept_queued h).trans
        ⟨fun hnew _ _ => hnew, fun hnew => hnew (Bool.not_eq_true _ ▸ hid) rfl⟩

theorem sourcesKept_start (h : s.SourcesKept world) (id : String) :
    (s.step world (.start id)).SourcesKept world := by
  rw [step]
  rcases hget : s.jobs.get? id with _ | job
  · exact h
  · dsimp only
    split
    · rename_i hqueued
      rintro id' f ⟨job', hjob, hfinal, hfile, hmem⟩
      rcases eq_or_ne id' id with rfl | hne
      · obtain rfl := Option.some.inj ((Dict.get?_set_self ..).symm.trans hjob)
        exact h id' f ⟨job, hget, by rw [hqueued]; exact Bool.false_ne_true, hfile, hmem⟩
      · exact h id' f ⟨job', (Dict.get?_set_of_ne _ _ hne).symm.trans hjob, hfinal, hfile, hmem⟩
    · exact h

/-- What is left when an upload is removed. -/
theorem mem_cleanupUploadedSource {sourcePath : Option String} {files : List UploadedFile}
    {f : UploadedFile} : f ∈ cleanupUploadedSource world sourcePath files ↔
      f ∈ files ∧ ∀ source, uploadedFile world sourcePath = some source → f.1 ≠ source.1 := by
  rw [cleanupUploadedSource]
  rcases uploadedFile world sourcePath with _ | source
  · simp
  · simp [List.mem_filter]

theorem sourcesKept_finish (h : s.SourcesKept world) (id : String) (returncode : ℤ) :
    (s.step world (.finish id returncode)).SourcesKept world ↔
      s.Welcome world (.finish id returncode) := by
  rw [step, Welcome]
  rcases hget : s.jobs.get? id with _ | job
  · exact iff_of_true h fun job hjob => by cases hjob
  · dsimp only
    by_cases hrunning : job.status = .running
    · rw [if_pos hrunning]
      have hended : (if returncode = 0 then Status.success else .failed).isFinal := by
        split <;> rfl
      constructor
      · rintro hkept job' hjob' _ f hf id' f' hne ⟨other, hother, hfinal, hfile, hmem⟩
        obtain rfl := Option.some.inj hjob'
        have hleft := hkept id' f'
          ⟨other, (Dict.get?_set_of_ne _ _ hne).trans hother, hfinal, hfile, hmem⟩
        exact (mem_cleanupUploadedSource.1 hleft).2 f hf
      · rintro hwelcome id' f' ⟨other, hother, hfinal, hfile, hmem⟩
        rcases eq_or_ne id' id with rfl | hne
        · -- The job itself has ended.
          obtain rfl := Option.some.inj ((Dict.get?_set_self ..).symm.trans hother)
          exact absurd hended hfinal
        · have hrefers : s.Refers world id' f' :=
            ⟨other, (Dict.get?_set_of_ne _ _ hne).symm.trans hother, hfinal, hfile, hmem⟩
          exact mem_cleanupUploadedSource.2 ⟨h id' f' hrefers,
            fun f hf => hwelcome job rfl hrunning f hf id' f' hne hrefers⟩
    · rw [if_neg hrunning]
      exact iff_of_true h fun job' hjob' hrunning' =>
        absurd (Option.some.inj hjob' ▸ hrunning') hrunning

theorem sourcesKept_clear (h : s.SourcesKept world) :
    (s.step world .clear).SourcesKept world := by
  rintro id f ⟨job, hjob, hfinal, hfile, hmem⟩
  exact h id f ⟨job, (Dict.get?_filter_eq_some_iff.1 hjob).1, hfinal, hfile, hmem⟩

/-- An event keeps the sources just when it is welcome. -/
theorem sourcesKept_step (h : s.SourcesKept world) (e : Event) :
    (s.step world e).SourcesKept world ↔ s.Welcome world e := by
  rcases e with ⟨uploadId, name⟩ | ⟨id, req⟩ | id | ⟨id, returncode⟩ | _
  · exact iff_of_true (sourcesKept_upload h uploadId name) trivial
  · exact sourcesKept_create h id req
  · exact iff_of_true (sourcesKept_start h id) trivial
  · exact sourcesKept_finish h id returncode
  · exact iff_of_true (sourcesKept_clear h) trivial

/-- The sources of jobs that have not ended are there all the way just in the runs in which every new
    job names an upload that is there, and every job that ends is the last one of its upload. -/
theorem sources_kept_iff (world : Surroundings) (files gone : List UploadedFile)
    (saved : Dict String Job) (es : List Event) :
    (∀ es', es' <+: es → (run (step world) (load files gone saved) es').SourcesKept world) ↔
      GuardedRun (step world) (Welcome world) (load files gone saved) es :=
  Machine.guardedRun_iff (sourcesKept_load files gone saved) fun _ e h => sourcesKept_step h e

/-! ## Two jobs of one upload -/

/-- The paths below a directory, and no check of names. -/
def plainWorld : Surroundings where
  root := "/uploads"
  resolve source :=
    if Text.startsWith source "/uploads/" then
      some (Text.split '/' (Text.removeStart source "/uploads/"))
    else none
  checkFilename _ _ := .ok ()

/-- An image is uploaded and built twice. -/
def twice : List Event :=
  [.upload "u1" "vios.qcow2", .create "j1" ⟨"cisco_vios", some "/uploads/u1/vios.qcow2"⟩,
    .create "j2" ⟨"cisco_vios", some "/uploads/u1/vios.qcow2"⟩, .start "j1", .finish "j1" 0]

theorem sources_not_kept : ¬∀ es', es' <+: twice →
    (run (step plainWorld) (load [] [] ∅) es').SourcesKept plainWorld := by
  intro h
  have hkept := h twice (List.prefix_refl _) "j2" ("u1", "vios.qcow2")
    ⟨⟨"cisco_vios", some "/uploads/u1/vios.qcow2", .queued⟩, by decide +kernel, by decide,
      by decide +kernel, by decide +kernel⟩
  exact absurd hkept (by decide +kernel)

end Service

end Dnlab.ImageBuild
