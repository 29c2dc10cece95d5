import Dnlab.Lib.Machine
import Mathlib.Data.List.Basic
import Mathlib.Order.Lattice

/-!
# The log of a build

After `image-build/api.py`. A job keeps the last lines of its log; all of them are in a
file. A subscriber is sent, once a second, the lines that are new to it, until the job has
ended. It counts the lines that are kept, and not all those that were written, so that
beyond the limit it is sent no more; nor is it sent what is written while the last message
is on its way.
-/

namespace Dnlab.ImageBuild

/-- `LOG_LIMIT`. -/
def logLimit : ℕ := 1200

/-- `"queued"`, `"running"`, `"success"` or `"failed"`. -/
inductive Status
  | queued | running | success | failed
  deriving DecidableEq

/-- `job.status in ("success", "failed")`. -/
def Status.isFinal : Status → Bool
  | .success | .failed => true
  | .queued | .running => false

/-- What is kept of a `deque(maxlen=LOG_LIMIT)`. -/
def lastLines (lines : List String) : List String := lines.drop (lines.length - logLimit)

/-- A job, with the lines that are kept of its log file. -/
structure LoggedJob where
  status : Status
  returncode : Option ℤ
  log : List String
  /-- The lines of the file. -/
  file : List String
  log_eq : log = lastLines file

theorem length_lastLines (lines : List String) :
    (lastLines lines).length = min lines.length logLimit := by
  rw [lastLines, List.length_drop]
  omega

theorem lastLines_concat (lines : List String) (line : String) :
    lastLines (lastLines lines ++ [line]) = lastLines (lines ++ [line]) := by
  have hkept : lastLines lines ++ [line] = (lines ++ [line]).drop (lines.length - logLimit) :=
    (List.drop_append_of_le_length (Nat.sub_le _ _)).symm
  have hlength : lines.length - logLimit + (lines.length + 1 - (lines.length - logLimit) - logLimit) =
      lines.length + 1 - logLimit := by omega
  rw [hkept]
  simp only [lastLines, List.length_drop, List.drop_drop, List.length_append, List.length_singleton,
    hlength]

namespace LoggedJob

/-- `_append_log(job, line)`. -/
def appendLog (job : LoggedJob) (line : String) : LoggedJob where
  status := job.status
  returncode := job.returncode
  log := lastLines (job.log ++ [line])
  file := job.file ++ [line]
  log_eq := by rw [job.log_eq, lastLines_concat]

/-- A job that was just created. -/
def created : LoggedJob := ⟨.queued, none, [], [], rfl⟩

end LoggedJob

/-- What `_run_job` does between two points where it waits: it starts the build, appends a line of
    its output, ends with its return code, or ends with a line about what went wrong. -/
inductive JobEvent
  | start (cmd : List String)
  | line (text : String)
  | exit (returncode : ℤ)
  | abort (text : String)

/-- A step of `_run_job`. -/
def LoggedJob.step (job : LoggedJob) : JobEvent → LoggedJob
  | .start cmd =>
    if job.status = .queued then
      { job with status := .running }.appendLog ("$ " ++ " ".intercalate cmd)
    else job
  | .line text => if job.status = .running then job.appendLog text else job
  | .exit returncode =>
    if job.status = .running then
      { job with
        status := if returncode = 0 then .success else .failed
        returncode := some returncode }
    else job
  | .abort text =>
    if job.status = .running then
      { job.appendLog text with
        status := .failed
        returncode := some (-1) }
    else job

/-- What is sent. -/
structure Message where
  status : Status
  lines : List String
  returncode : Option ℤ
  deriving DecidableEq

/-- Where the loop of `job_logs` is: before it looks at the job, at `send_json`, or at its end. -/
inductive Phase
  | waiting | sending | ended
  deriving DecidableEq

/-- A job, and the loop of `job_logs` for one subscriber. -/
structure Subscribed where
  job : LoggedJob
  phase : Phase
  sent : ℕ
  messages : List Message
  /-- How many lines there were in the file each time. -/
  polls : List ℕ

/-- The job goes on, the subscriber looks at it, or its message was sent. -/
inductive LogEvent
  | job (e : JobEvent)
  | poll
  | check

namespace Subscribed

/-- `lines = log[sent:]`, `sent = len(log)`. -/
def step (s : Subscribed) : LogEvent → Subscribed
  | .job e => { s with job := s.job.step e }
  | .poll =>
    if s.phase = .waiting then
      { s with
        phase := .sending
        sent := s.job.log.length
        messages := s.messages ++ [⟨s.job.status, s.job.log.drop s.sent, s.job.returncode⟩]
        polls := s.polls ++ [s.job.file.length] }
    else s
  | .check =>
    if s.phase = .sending then
      { s with phase := if s.job.status.isFinal then .ended else .waiting }
    else s

/-- A subscriber to a job. -/
def start (job : LoggedJob) : Subscribed := ⟨job, .waiting, 0, [], []⟩

/-- The lines that were sent. -/
def received (s : Subscribed) : List String := s.messages.flatMap Message.lines

/-- How many lines there were when the subscriber first looked. -/
def first (s : Subscribed) : ℕ := s.polls.headD 0

/-- How many lines there were when the subscriber last looked. -/
def last (s : Subscribed) : ℕ := s.polls.getLastD 0

/-- All lines were sent that are kept when the subscriber first looks or written after that. -/
def Complete (s : Subscribed) : Prop := s.received = s.job.file.drop (s.first - logLimit)

/-- No line was written after the subscriber last looked, and not more than the limit in all, unless
    the subscriber first looked after that. -/
def InTime (s : Subscribed) : Prop :=
  s.last = s.job.file.length ∧ (s.job.file.length ≤ logLimit ∨ s.first = s.job.file.length)

end Subscribed

/-! ## Steps -/

namespace LoggedJob

variable (job : LoggedJob) (e : JobEvent)

/-- Lines are only ever appended. -/
theorem exists_file_step : ∃ new, (job.step e).file = job.file ++ new := by
  rcases e with cmd | text | returncode | text <;> rw [step] <;> split
  · exact ⟨_, rfl⟩
  · exact ⟨[], (List.append_nil _).symm⟩
  · exact ⟨_, rfl⟩
  · exact ⟨[], (List.append_nil _).symm⟩
  · exact ⟨[], (List.append_nil _).symm⟩
  · exact ⟨[], (List.append_nil _).symm⟩
  · exact ⟨_, rfl⟩
  · exact ⟨[], (List.append_nil _).symm⟩

/-- A job that has ended does nothing any more. -/
theorem step_of_isFinal (h : job.status.isFinal) : job.step e = job := by
  have hqueued : job.status ≠ .queued := fun h' => by rw [h'] at h; cases h
  have hrunning : job.status ≠ .running := fun h' => by rw [h'] at h; cases h
  rcases e with cmd | text | returncode | text
  · exact if_neg hqueued
  · exact if_neg hrunning
  · exact if_neg hrunning
  · exact if_neg hrunning

end LoggedJob

end Dnlab.ImageBuild
