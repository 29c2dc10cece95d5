import Mathlib.Data.Int.Notation
import Mathlib.Data.List.Basic
import Mathlib.Logic.Function.Basic

/-!
# Captures

The sessions that capture packets, after `gui/app/services/capture_service.py`. A
stream reserves its session in the table (`reserve`), has its command made
(`command`), starts the process (`create`) and then tells the table of it
(`attach`); in the end it stops the process (`leave`, `stopped`) and gives the
session back (`release`). A session may also be stopped from elsewhere
(`stopBegin`, `stopEnd`), or be removed as stale (`cleanup`). Each section under
the lock is one step. A session and its stream are known by a number.
-/

namespace Dnlab.Gui.Capture

/-- Nanoseconds of `time.monotonic()`. -/
def second : ℕ := 1000000000

/-- `MAX_CAPTURE_SECONDS` -/
def maxCapture : ℕ := 30 * 60 * second

/-- `CAPTURE_STARTUP_GRACE_SECONDS` -/
def captureStartupGrace : ℕ := 15 * second

/-- `MAX_USER_CAPTURES` -/
def maxUserCaptures : ℕ := 3

/-- `MAX_LAB_CAPTURES` -/
def maxLabCaptures : ℕ := 10

/-- An entry of the table. The process is that of the stream, and here or not. -/
structure ActiveCapture where
  sessionId : ℕ
  userId : ℤ
  labId : String
  startedAt : ℕ
  deadline : ℕ
  process : Bool

/-- A process runs until it has an exit status. -/
inductive Process
  | none | running | exited
  deriving DecidableEq

/-- Where a stream is, from `open_stream` to the end of `_stream_process`. -/
inductive Phase
  /-- The command is being made. -/
  | reserved
  /-- The process has yet to be started. -/
  | ready
  /-- The table has yet to be told of the process. -/
  | created
  | attached
  /-- The process is stopped. -/
  | stopping
  /-- The session has yet to be released. -/
  | releasing
  | over
  deriving DecidableEq

structure Stream where
  userId : ℤ
  labId : String
  phase : Phase
  process : Process

/-- The service with its streams, and the calls of `stop_capture` that have yet to release their
    session, with whether they have a process to stop. -/
structure CaptureService where
  clock : ℕ
  active : List ActiveCapture
  streams : ℕ → Stream
  count : ℕ
  stops : List (ℕ × Bool)

namespace CaptureService

open Function (update)

def new : CaptureService where
  clock := 0
  active := []
  streams _ := ⟨0, "", .over, .none⟩
  count := 0
  stops := []

variable (s : CaptureService)

/-! ## The table -/

/-- What `_cleanup_active_locked` removes. If it terminates the process, that has yet to exit. -/
def stale (active : ActiveCapture) : Bool :=
  if active.process ∧ (s.streams active.sessionId).process = .exited then true
  else if ¬active.process ∧ captureStartupGrace < s.clock - active.startedAt then true
  else active.deadline + captureStartupGrace < s.clock

/-- `_cleanup_active_locked()` -/
def cleanup : CaptureService := { s with active := s.active.filter fun active => !s.stale active }

def activeUser (userId : ℤ) : ℕ := (s.active.filter (·.userId = userId)).length

def activeLab (labId : String) : ℕ := (s.active.filter (·.labId = labId)).length

/-- `_reserve(user_id, lab_id, …)`. It raises an error at the limits; `secrets.token_hex` gives a new
    number otherwise. -/
def reserve (userId : ℤ) (labId : String) : CaptureService :=
  let s := s.cleanup
  if maxUserCaptures ≤ s.activeUser userId ∨ maxLabCaptures ≤ s.activeLab labId then s
  else
    { s with
      active := s.active ++ [{
        sessionId := s.count
        userId
        labId
        startedAt := s.clock
        deadline := s.clock + maxCapture
        process := false }]
      streams := update s.streams s.count ⟨userId, labId, .reserved, .none⟩
      count := s.count + 1 }

/-- `self._active.pop(session_id, None)` -/
def pop (id : ℕ) : CaptureService := { s with active := s.active.filter (·.sessionId ≠ id) }

/-! ## Streams -/

/-- A stream goes from one phase to another. -/
def move (id : ℕ) (before after : Phase) : CaptureService :=
  if (s.streams id).phase = before then
    { s with streams := update s.streams id { s.streams id with phase := after } }
  else s

/-- `_stream_process`: `await asyncio.create_subprocess_exec(*cmd, …)`. -/
def create (id : ℕ) : CaptureService :=
  if (s.streams id).phase = .ready then
    { s with streams := update s.streams id { s.streams id with phase := .created, process := .running } }
  else s

/-- `_attach_process(session_id, proc)` -/
def attach (id : ℕ) : CaptureService :=
  if (s.streams id).phase = .created then
    { s.move id .created .attached with
      active := s.active.map fun active =>
        if active.sessionId = id then { active with process := true } else active }
  else s

/-- `_stop_process(proc)` is over, which it is when the process has exited. -/
def stopped (id : ℕ) : CaptureService :=
  if (s.streams id).process = .exited then s.move id .stopping .releasing else s

/-- `_release(session_id)` -/
def release (id : ℕ) : CaptureService :=
  if (s.streams id).phase = .releasing then (s.move id .releasing .over).pop id else s

/-- A process exits, by itself or because of a signal. -/
def exit (id : ℕ) : CaptureService :=
  if (s.streams id).process = .running then
    { s with streams := update s.streams id { s.streams id with process := .exited } }
  else s

/-! ## Stopping from elsewhere -/

/-- `stop_capture(lab_id, user_id, session_id)`, under the lock. -/
def stopBegin (labId : String) (userId : ℤ) (id : ℕ) : CaptureService :=
  match s.active.find? (·.sessionId = id) with
  | some active =>
    if active.labId = labId ∧ active.userId = userId then
      { s with stops := s.stops ++ [(id, active.process)] }
    else s
  | none => s

/-- `stop_capture(…)`: `_stop_process(proc)`, if there is a process, and `_release(session_id)`. -/
def stopEnd (id : ℕ) (process : Bool) : CaptureService :=
  if (id, process) ∈ s.stops ∧ (process → (s.streams id).process = .exited) then
    { s.pop id with stops := s.stops.erase (id, process) }
  else s

/-! ## Runs -/

inductive Event
  | advance (time : ℕ)
  | exit (id : ℕ)
  /-- `active_captures`, `_ensure_capacity` -/
  | cleanup
  | reserve (userId : ℤ) (labId : String)
  | commandFails (id : ℕ)
  | command (id : ℕ)
  /-- The request is gone, and `_stream_process` never begins. -/
  | abandon (id : ℕ)
  | create (id : ℕ)
  | createFails (id : ℕ)
  | attach (id : ℕ)
  /-- The listener is gone, or the stream at its end, perhaps before it could attach. -/
  | leave (id : ℕ)
  | stopped (id : ℕ)
  | release (id : ℕ)
  | stopBegin (labId : String) (userId : ℤ) (id : ℕ)
  | stopEnd (id : ℕ) (process : Bool)

def step : Event → CaptureService
  | .advance time => { s with clock := s.clock + time }
  | .exit id => s.exit id
  | .cleanup => s.cleanup
  | .reserve userId labId => s.reserve userId labId
  | .commandFails id => s.move id .reserved .releasing
  | .command id => s.move id .reserved .ready
  | .abandon id => (s.move id .reserved .over).move id .ready .over
  | .create id => s.create id
  | .createFails id => s.move id .ready .releasing
  | .attach id => s.attach id
  | .leave id => (s.move id .created .stopping).move id .attached .stopping
  | .stopped id => s.stopped id
  | .release id => s.release id
  | .stopBegin labId userId id => s.stopBegin labId userId id
  | .stopEnd id process => s.stopEnd id process

end CaptureService

end Dnlab.Gui.Capture
