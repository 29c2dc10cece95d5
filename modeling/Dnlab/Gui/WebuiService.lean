import Mathlib.Data.Int.Notation
import Mathlib.Data.List.Basic
import Mathlib.Logic.Function.Basic

/-!
# Tunnels to web UIs

The tunnels to the web UIs of devices, after `gui/app/services/webui_service.py`. An
open looks for a tunnel to reuse (`reuse`), then at the limit (`limit`), starts its
ssh process (`spawn`) and waits for it to bind its port (`bind`), and registers the
tunnel (`register`); or it gives up on the process (`bindFails`, `terminated`). Each
section under the lock is one step. A call of open, its process and its token are
known by one number.
-/

namespace Dnlab.Gui.Webui

/-- `MAX_TUNNELS` -/
def maxTunnels : ℕ := 32

/-- `(lab_id, node_name, vd_port)` -/
structure Key where
  labId : String
  nodeName : String
  vdPort : ℤ
  deriving DecidableEq

structure Tunnel where
  token : ℕ
  key : Key
  userId : ℤ
  deriving DecidableEq

/-- A process runs until it has an exit status. -/
inductive Process
  | none | running | exited
  deriving DecidableEq

/-- `terminate()`, and `kill()` if that takes too long. -/
def Process.kill : Process → Process
  | none => none
  | _ => exited

/-- What a call of open does next, or how it ended. -/
inductive Phase
  | reuse | limit | spawn | bind | register
  /-- The process that did not bind was terminated. -/
  | terminate
  | returned | failed
  deriving DecidableEq

structure Open where
  key : Key
  userId : ℤ
  phase : Phase
  process : Process

/-- The service, with the calls of open, and the tunnels that a `close_lab` or a `shutdown` has yet
    to close. -/
structure WebUIService where
  tunnels : List Tunnel
  byKey : Key → Option ℕ
  opens : ℕ → Open
  count : ℕ
  closing : List ℕ

namespace WebUIService

open Function (update)

def new : WebUIService where
  tunnels := []
  byKey _ := none
  opens _ := ⟨⟨"", "", 0⟩, 0, .failed, .none⟩
  count := 0
  closing := []

variable (s : WebUIService)

/-- `self._tunnels.get(token)` -/
def get (token : ℕ) : Option Tunnel := s.tunnels.find? (·.token = token)

/-- `_alive(t.process)` -/
def alive (token : ℕ) : Bool := (s.opens token).process = .running

def setPhase (id : ℕ) (phase : Phase) : WebUIService :=
  { s with opens := update s.opens id { s.opens id with phase } }

/-- `_close_locked(token)` -/
def closeLocked (token : ℕ) : WebUIService :=
  match s.get token with
  | none => s
  | some t =>
    { s with
      tunnels := s.tunnels.filter (·.token ≠ token)
      byKey := if s.byKey t.key = some token then update s.byKey t.key none else s.byKey
      opens := update s.opens token { s.opens token with process := (s.opens token).process.kill } }

/-! ## Opening -/

/-- `open(…)`: the check of the arguments. -/
def begin (key : Key) (scheme : String) (userId : ℤ) : WebUIService :=
  if scheme ∉ ["http", "https"] ∨ ¬(1 ≤ key.vdPort ∧ key.vdPort ≤ 65535) then s
  else
    { s with
      opens := update s.opens s.count ⟨key, userId, .reuse, .none⟩
      count := s.count + 1 }

/-- `open(…)`: the first section, which returns a tunnel of the user that is alive, and closes
    another one. -/
def reuse (id : ℕ) : WebUIService :=
  if (s.opens id).phase = .reuse then
    match (s.byKey (s.opens id).key).bind s.get with
    | some t =>
      if t.userId = (s.opens id).userId ∧ s.alive t.token then s.setPhase id .returned
      else (s.closeLocked t.token).setPhase id .limit
    | none => s.setPhase id .limit
  else s

/-- `open(…)`: the second section. -/
def limit (id : ℕ) : WebUIService :=
  if (s.opens id).phase = .limit then
    s.setPhase id (if maxTunnels ≤ s.tunnels.length then .failed else .spawn)
  else s

/-- `open(…)`: `subprocess.Popen(ssh_cmd, …)`, which may fail. -/
def spawn (id : ℕ) (succeeds : Bool) : WebUIService :=
  if (s.opens id).phase = .spawn then
    if succeeds then
      { s with opens := update s.opens id { s.opens id with phase := .bind, process := .running } }
    else s.setPhase id .failed
  else s

/-- `open(…)`: `_wait_for_bind(…)`. If it fails, the process is terminated. -/
def bind (id : ℕ) (succeeds : Bool) : WebUIService :=
  if (s.opens id).phase = .bind then s.setPhase id (if succeeds then .register else .terminate)
  else s

/-- `open(…)`: `proc.wait(timeout=2.0)` is over, and the error is raised. -/
def terminated (id : ℕ) : WebUIService :=
  if (s.opens id).phase = .terminate then s.setPhase id .failed else s

/-- `open(…)`: the third section. -/
def register (id : ℕ) : WebUIService :=
  if (s.opens id).phase = .register then
    { s.setPhase id .returned with
      tunnels := s.tunnels ++ [⟨id, (s.opens id).key, (s.opens id).userId⟩]
      byKey := update s.byKey (s.opens id).key (some id) }
  else s

/-- A process exits, by itself or because of a signal. -/
def exit (id : ℕ) : WebUIService :=
  if (s.opens id).process = .running then
    { s with opens := update s.opens id { s.opens id with process := .exited } }
  else s

/-! ## Closing -/

/-- `close_by_key(lab_id, node_name, vd_port)` -/
def closeByKey (key : Key) : WebUIService :=
  match s.byKey key with
  | none => s
  | some token => s.closeLocked token

/-- `close_lab(lab_id)`, under the lock. -/
def closeLab (labId : String) : WebUIService :=
  { s with closing := s.closing ++ (s.tunnels.filter (·.key.labId = labId)).map Tunnel.token }

/-- `shutdown()`, under the lock. -/
def shutdown : WebUIService := { s with closing := s.closing ++ s.tunnels.map Tunnel.token }

/-- `close_lab(lab_id)` or `shutdown()`: `self.close(token)` for one of the tokens. -/
def closeNext (token : ℕ) : WebUIService :=
  if token ∈ s.closing then { s.closeLocked token with closing := s.closing.erase token } else s

/-! ## Runs -/

inductive Event
  | begin (key : Key) (scheme : String) (userId : ℤ)
  | reuse (id : ℕ)
  | limit (id : ℕ)
  | spawn (id : ℕ) (succeeds : Bool)
  | bind (id : ℕ) (succeeds : Bool)
  | terminated (id : ℕ)
  | register (id : ℕ)
  | exit (id : ℕ)
  /-- By a request, or by the cleanup of what is dead or idle. -/
  | close (token : ℕ)
  | closeByKey (key : Key)
  | closeLab (labId : String)
  | shutdown
  | closeNext (token : ℕ)

def step : Event → WebUIService
  | .begin key scheme userId => s.begin key scheme userId
  | .reuse id => s.reuse id
  | .limit id => s.limit id
  | .spawn id succeeds => s.spawn id succeeds
  | .bind id succeeds => s.bind id succeeds
  | .terminated id => s.terminated id
  | .register id => s.register id
  | .exit id => s.exit id
  | .close token => s.closeLocked token
  | .closeByKey key => s.closeByKey key
  | .closeLab labId => s.closeLab labId
  | .shutdown => s.shutdown
  | .closeNext token => s.closeNext token

end WebUIService

end Dnlab.Gui.Webui
