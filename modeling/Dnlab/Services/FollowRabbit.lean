import Mathlib.Data.Finset.Basic
import Mathlib.Data.Finset.Range
import Mathlib.Logic.Function.Basic

/-!
# Sessions of Follow the Rabbit

The life of the sessions of `FollowRabbitManager`, after
`dnlab_multinode/services/follow_rabbit.py`. A start makes its session visible
(`insert`), creates its tasks (`create`) and registers them (`register`): a probe
for each capture point and direction, and one task that waits for them
(`finishBegin`, `finishEnd`). A session ends with that task, or by a stop
(`stopBegin`, `stopEnd`). Each section under the lock is one step, and so is each
stretch between awaits. Of a session we keep what decides over its life, and not
what its probes find; time is left out, as a timeout may come at any moment.
-/

namespace Dnlab.FollowRabbit

inductive Status
  | running | stopped | done
  deriving DecidableEq

/-- How far the start of a session has come. -/
inductive Starting
  | visible | created | registered
  deriving DecidableEq

/-- The task of `_finish_after_timeout`. -/
inductive Finish
  | absent
  | begun
  /-- It waits, for the tasks that it has seen, or for none. -/
  | waiting (tasks : Bool)
  | over
  deriving DecidableEq

/-- A call of `stop`, when it has set the status: whether it found tasks, which it then has
    cancelled, whether it has an `emit`, and whether it ended the session. -/
structure Stop where
  tasks : Bool
  emit : Bool
  ended : Bool
  deriving DecidableEq

/-- A session with its tasks: those in `_tasks`, if they are registered, and which of the probes
    have yet to end. Besides its status, we note all that it was given after the first, the
    `session_done` events, and whether the call that ended it has returned. -/
structure Session where
  status : Status
  statuses : List Status
  points : ℕ
  starting : Starting
  tasks : Bool
  probes : Finset ℕ
  finish : Finish
  stops : List Stop
  doneEvents : ℕ
  returned : Bool

namespace Session

/-- `FollowRabbitSession(…)`, for the capture points that will be watched. -/
def new (points : ℕ) : Session where
  status := .running
  statuses := []
  points
  starting := .visible
  tasks := false
  probes := ∅
  finish := .absent
  stops := []
  doneEvents := 0
  returned := false

variable (session : Session)

/-- `session.status = status` -/
def setStatus (status : Status) : Session :=
  { session with status, statuses := session.statuses ++ [status] }

/-- `start(…)`: two probes are created for each point, and the task that waits for them. -/
def create : Session :=
  if session.starting = .visible then
    { session with
      starting := .created
      probes := Finset.range (session.points * 2)
      finish := .begun }
  else session

/-- `start(…)`: `self._tasks[session.session_id] = tasks`, under the lock. -/
def register : Session :=
  if session.starting = .created then { session with starting := .registered, tasks := true }
  else session

/-- `_watch_point(…)` ends, by itself or as it is cancelled. -/
def probeEnds (probe : ℕ) : Session := { session with probes := session.probes.erase probe }

/-- `stop(session_id, emit)`, under the lock, and the `cancel()` of what it found. -/
def stopBegin (emit : Bool) : Session :=
  { session.setStatus .stopped with
    tasks := false
    finish := if session.tasks then .over else session.finish
    stops := session.stops ++ [⟨session.tasks, emit, session.status = .running⟩] }

/-- `stop(session_id, emit)`: `asyncio.gather(*tasks)`, if there are tasks, and `emit`. -/
def stopEnd (stop : Stop) : Session :=
  if stop ∈ session.stops ∧ (stop.tasks → session.probes = ∅) then
    { session with
      stops := session.stops.erase stop
      doneEvents := if stop.emit then session.doneEvents + 1 else session.doneEvents
      returned := session.returned || stop.ended }
  else session

/-- `_finish_after_timeout(session, emit)`: the first section under the lock. -/
def finishBegin : Session :=
  match session.finish with
  | .begun =>
    if session.status ≠ .running then { session with finish := .over }
    else { session with finish := .waiting session.tasks }
  | _ => session

/-- `_finish_after_timeout(session, emit)`: the second section under the lock. Before it, the probes
    that were seen have ended, if need be because they were cancelled. -/
def finishEnd : Session :=
  match session.finish with
  | .waiting tasks =>
    if tasks ∧ session.probes ≠ ∅ then session
    else if session.status ≠ .running then { session with finish := .over }
    else
      { session.setStatus .done with
        tasks := false
        finish := .over
        doneEvents := session.doneEvents + 1
        returned := true }
  | _ => session

end Session

/-- The sessions, by their numbers, and how many may run. -/
structure Manager where
  maxSessions : ℕ
  sessions : ℕ → Session
  count : ℕ

namespace Manager

open Function (update)

def new (maxSessions : ℕ) : Manager := ⟨maxSessions, fun _ => Session.new 0, 0⟩

variable (manager : Manager)

/-- The sessions that run. -/
def running : List ℕ :=
  (List.range manager.count).filter fun id => (manager.sessions id).status = .running

/-- `start(…)`, under the lock, unless there are `too many active Follow the Rabbit sessions`. -/
def insert (points : ℕ) : Manager :=
  if manager.maxSessions ≤ manager.running.length then manager
  else
    { manager with
      sessions := update manager.sessions manager.count (Session.new points)
      count := manager.count + 1 }

/-- Something that happens to one session, if it is there. -/
def onSession (id : ℕ) (f : Session → Session) : Manager :=
  if id < manager.count then
    { manager with sessions := update manager.sessions id (f (manager.sessions id)) }
  else manager

/-! ## Runs -/

inductive Event
  | insert (points : ℕ)
  | create (id : ℕ)
  | register (id : ℕ)
  | probeEnds (id : ℕ) (probe : ℕ)
  | stopBegin (id : ℕ) (emit : Bool)
  | stopEnd (id : ℕ) (stop : Stop)
  | finishBegin (id : ℕ)
  | finishEnd (id : ℕ)

def step : Event → Manager
  | .insert points => manager.insert points
  | .create id => manager.onSession id Session.create
  | .register id => manager.onSession id Session.register
  | .probeEnds id probe => manager.onSession id (·.probeEnds probe)
  | .stopBegin id emit => manager.onSession id (·.stopBegin emit)
  | .stopEnd id stop => manager.onSession id (·.stopEnd stop)
  | .finishBegin id => manager.onSession id Session.finishBegin
  | .finishEnd id => manager.onSession id Session.finishEnd

end Manager

end Dnlab.FollowRabbit
