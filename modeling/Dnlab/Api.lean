import Dnlab.Controllers.Node

/-!
# Starting and stopping a device through the API

Two requests for one device, after `api.py`: `lab_node_start`, which runs a
controller in a thread, under the lock of everything that changes a lab, and
`lab_node_stop`, which cancels a start that is not done yet.

The two share the cancel event of the start and nothing else: the thread looks
at the event between its commands, and a stop may be served between any two of
these looks, before the first and after the last. So where a thread is, is what
its looks have found so far (`Scripted`): under these it either looks once more
or ends. `request_cancel` also breaks off the commands that are running, which
is one of the ways in which a command may end anyway.
-/

namespace Dnlab.Api

open Node (Lab)

/-! ## The looks of a thread -/

/-- The hosts, with what the looks of a thread at its cancel event find. -/
structure Scripted (ρ : Type) where
  env : ρ
  /-- What the looks to come find. -/
  looks : List Bool
  /-- Whether there was a look after these. -/
  spent : Bool

section Scripted

variable {ρ : Type}

/-- What does not look at the event. -/
def onEnv {α : Type} (f : ρ → α × ρ) (r : Scripted ρ) : α × Scripted ρ :=
  ((f r.env).1, { r with env := (f r.env).2 })

/-- `event.is_set()`. -/
def isSet (r : Scripted ρ) : Bool × Scripted ρ :=
  match r.looks with
  | found :: looks => (found, { r with looks := looks })
  | [] => (false, { r with spent := true })

/-- The hosts of a thread. -/
def backend (B : Backend ρ) : Backend (Scripted ρ) where
  exec host cmd := onEnv (B.exec host cmd)
  cancelled := isSet
  patience r := B.patience r.env
  now r := B.now r.env

/-- What the controller of a thread calls. -/
def services (S : Services ρ) : Services (Scripted ρ) where
  backend := backend S.backend
  parseLabels := S.parseLabels
  assignStickyMgmtIpv4 := S.assignStickyMgmtIpv4
  extractResources topo vd := onEnv (S.extractResources topo vd)
  allocateWebuiPort cfg usedExtra preferred := onEnv (S.allocateWebuiPort cfg usedExtra preferred)
  mgmtAnchorTopology := S.mgmtAnchorTopology
  renderNodeFeatureFiles := S.renderNodeFeatureFiles
  renderNodeAsset := S.renderNodeAsset
  generateApiKey := onEnv S.generateApiKey
  reconcileRuntimeRelays topo plan underlayIps apiKey relays :=
    onEnv (S.reconcileRuntimeRelays topo plan underlayIps apiKey relays)
  refreshDns labName entries := onEnv (S.refreshDns labName entries)
  refreshJumphostInventory labName vdMap relayMap :=
    onEnv (S.refreshJumphostInventory labName vdMap relayMap)

/-- A lab for a thread whose looks find `looks`. -/
def withLooks (looks : List Bool) (lab : Lab ρ) : Lab (Scripted ρ) where
  saved := lab.saved
  remote := ⟨⟨lab.remote.env, looks, false⟩, lab.remote.log⟩
  placed := lab.placed

/-- The lab that a thread leaves. -/
def withoutLooks (lab : Lab (Scripted ρ)) : Lab ρ where
  saved := lab.saved
  remote := ⟨lab.remote.env.env, lab.remote.log⟩
  placed := lab.placed

end Scripted

/-! ## Requests -/

/-- `_ActiveNodeStart`, without the phase that the status shows; it is registered until it is
    done. -/
structure ActiveNodeStart where
  cancel : Bool := false

/-- How `lab_node_start` answers: with the outcome of the operation, or an error. -/
inductive StartAnswer
  | completed
  | cancelled
  | unprocessable (e : Err)
  | conflict
  deriving DecidableEq

/-- How `lab_node_stop` answers. -/
inductive StopAnswer
  | stopped
  | cancelled
  | unprocessable (e : Err)
  deriving DecidableEq

/-- Where a start is. -/
inductive StartPhase
  | idle
  /-- It is registered, and waits for the lock. -/
  | queued
  /-- Its thread runs; `looks` is what it has found so far. -/
  | running (topo : DistributedTopology) (looks : List Bool)
  /-- Its thread has ended, and it still has the lock. -/
  | ended (result : Except Err Unit)
  | answered (answer : StartAnswer)

/-- The answer, when there is one. -/
def StartPhase.answer? : StartPhase → Option StartAnswer
  | answered answer => some answer
  | _ => none

theorem StartPhase.answer?_eq_some {phase : StartPhase} {answer : StartAnswer} :
    phase.answer? = some answer ↔ phase = .answered answer := by
  cases phase <;> simp [StartPhase.answer?]

/-- Where a stop is. -/
inductive StopPhase
  | idle
  /-- There is no start to cancel, and it waits for the lock. -/
  | waiting
  | answered (answer : StopAnswer)
  deriving DecidableEq

/-- A start and a stop of one device. -/
structure State (ρ : Type) where
  /-- The lab between the operations that change it. -/
  lab : Lab ρ
  /-- `_active_node_starts.get(key)`. -/
  operation : Option ActiveNodeStart := none
  start : StartPhase := .idle
  stop : StopPhase := .idle

section Requests

variable {ρ : Type} (S : Services ρ) (node : String)

/-- `operation.cancel.is_set()`. -/
def State.cancel (s : State ρ) : Bool := s.operation.any (·.cancel)

/-- Whether the start has the lock; a stop has it only while it does everything it does. -/
def State.locked (s : State ρ) : Bool :=
  match s.start with
  | .running _ _ | .ended _ => true
  | _ => false

/-- `_run()`, whose looks find `looks`. -/
def runStart (topo : DistributedTopology) (looks : List Bool) (lab : Lab ρ) :
    Except Err Unit × Lab (Scripted ρ) :=
  (withLooks looks lab).perform (services S) topo (.start node)

/-- Whether a thread that has found `looks` looks once more. -/
def looksAgain (topo : DistributedTopology) (looks : List Bool) (lab : Lab ρ) : Bool :=
  (runStart S node topo looks lab).2.remote.env.spent

/-- What a start answers when its thread has ended. -/
def startAnswer (cancel : Bool) (result : Except Err Unit) : StartAnswer :=
  if cancel then .cancelled
  else match result with
    | .ok () => .completed
    | .error e => .unprocessable e

/-- What a stop answers that was run. -/
def stopAnswer : Except Err Unit → StopAnswer
  | .ok () => .stopped
  | .error e => .unprocessable e

/-- The steps of a start. -/
inductive StartStep
  | register
  /-- It gets the lock, makes a controller from the topology, and looks for the first time. -/
  | enter (parsed : Except Err DistributedTopology)
  | look
  | finish
  | answer

/-- The steps of a stop. -/
inductive StopStep
  | serve
  /-- It gets the lock, makes a controller and stops the device. -/
  | run (parsed : Except Err DistributedTopology)

/-- `lab_node_start(req)`. -/
def labNodeStart (s : State ρ) (step : StartStep) : Option (State ρ) :=
  match step, s.start with
  | .register, .idle =>
    if s.operation.isSome then some { s with start := .answered .conflict }
    else some { s with operation := some {}, start := .queued }
  | .enter (.error e), .queued => some { s with start := .ended (.error e) }
  | .enter (.ok topo), .queued => some { s with start := .running topo [s.cancel] }
  | .look, .running topo looks =>
    if looksAgain S node topo looks s.lab then
      some { s with start := .running topo (looks ++ [s.cancel]) }
    else none
  | .finish, .running topo looks =>
    let (result, lab) := runStart S node topo looks s.lab
    if lab.remote.env.looks = [] ∧ lab.remote.env.spent = false then
      some { s with lab := withoutLooks lab, start := .ended result }
    else none
  | .answer, .ended result =>
    some { s with operation := none, start := .answered (startAnswer s.cancel result) }
  | _, _ => none

/-- `lab_node_stop(req)`. -/
def labNodeStop (s : State ρ) (step : StopStep) : Option (State ρ) :=
  match step, s.stop with
  | .serve, .idle =>
    match s.operation with
    | some operation =>
      some
        { s with
          operation := some { operation with cancel := true }
          stop := .answered .cancelled }
    | none => some { s with stop := .waiting }
  | .run parsed, .waiting =>
    if s.locked then none
    else match parsed with
      | .error e => some { s with stop := .answered (.unprocessable e) }
      | .ok topo =>
        let (result, lab) := s.lab.perform S topo (.stop node true)
        some { s with lab := lab, stop := .answered (stopAnswer result) }
  | _, _ => none

/-- A step of one of the two. -/
inductive Act
  | start (step : StartStep)
  | stop (step : StopStep)

/-- What an act does, where it can happen. -/
def State.step (s : State ρ) : Act → Option (State ρ)
  | .start step => labNodeStart S node s step
  | .stop step => labNodeStop S node s step

/-- The interleavings from `s` in which `P` holds of every act and the state before it. -/
inductive Run (P : State ρ → Act → Prop) (s : State ρ) : State ρ → Prop
  | refl : Run P s s
  | tail {s' s'' : State ρ} (act : Act) : Run P s s' → P s' act → s'.step S node act = some s'' →
      Run P s s''

/-- What every act keeps holds after every interleaving. -/
theorem Run.invariant {S : Services ρ} {node : String} {P : State ρ → Act → Prop}
    {I : State ρ → Prop} (hstep : ∀ s act s', P s act → s.step S node act = some s' → I s → I s')
    {s s' : State ρ} (h : Run S node P s s') (hI : I s) : I s' := by
  induction h with
  | refl => exact hI
  | tail act _ hP hs ih => exact hstep _ act _ hP hs ih

end Requests

end Dnlab.Api
