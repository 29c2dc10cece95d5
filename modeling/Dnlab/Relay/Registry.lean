import Mathlib.Data.Nat.Notation
import Mathlib.Logic.Function.Basic

/-!
# The brokers of a container

How `runtime-relay/relay.py` opens and closes the process behind the console of one
container: `_wait_for_upstream`, `_start_upstream` and `close` of `_ConsoleBroker`, and
`_get_console_broker` and `_remove_console_broker`. Each section under a lock is one
step, and so is each thing that goes on outside: asking the container for its console,
starting the process, waiting for its end, the cleanup in the container. Anyone may
close a broker at any time: its timer, the thread that reads from the process, the one
that polls, and the relay when it ends. Brokers and requests are known by numbers.
-/

namespace Dnlab.Relay

/-- Where the thread `_wait_for_upstream` of a broker stands. -/
inductive Poll
  /-- It is to look whether the broker is closed. -/
  | checking
  /-- It asks the container for its console. -/
  | probing
  /-- The console is there; the process is to be started. -/
  | ready
  /-- The process is started, but the broker does not have it. -/
  | spawned
  /-- The broker was closed when it was to have the process, which was told to end. -/
  | terminated
  | finished
  deriving DecidableEq

/-- What `_connect_cmd` and `_container_running` say. With `gone`, the thread closes the broker. -/
inductive Answer
  | ready | waiting | gone
  deriving DecidableEq

inductive Process
  | unborn | alive | ended
  deriving DecidableEq

/-- How far `close()` is. -/
inductive Closing
  | unclosed
  /-- The process, if the broker has one, is being ended. -/
  | stopping (proc : Bool)
  | cleaning
  | removing
  | signalling
  | cleanupDone
  deriving DecidableEq

/-- A broker, as far as its process is concerned: `proc` is whether it has it. -/
structure Upstream where
  closed : Bool
  proc : Bool
  poll : Poll
  process : Process
  closing : Closing
  deriving DecidableEq

namespace Upstream

/-- `_ConsoleBroker(container)`, started. -/
def new : Upstream := ⟨false, false, .checking, .unborn, .unclosed⟩

/-- `_wait_for_upstream`: `if self._closed`. -/
def check (upstream : Upstream) : Upstream :=
  match upstream.poll with
  | .checking => { upstream with poll := if upstream.closed then .finished else .probing }
  | _ => upstream

/-- `_wait_for_upstream`: what the container answers. -/
def probe (upstream : Upstream) (answer : Answer) : Upstream :=
  match upstream.poll with
  | .probing =>
    { upstream with
      poll := match answer with
        | .ready => .ready
        | .waiting => .checking
        | .gone => .finished }
  | _ => upstream

/-- `_start_upstream`: `subprocess.Popen`, which may fail. -/
def spawn (upstream : Upstream) (succeeds : Bool) : Upstream :=
  match upstream.poll with
  | .ready =>
    if succeeds then { upstream with poll := .spawned, process := .alive }
    else { upstream with poll := .finished }
  | _ => upstream

/-- `_start_upstream`, under the lock. -/
def register (upstream : Upstream) : Upstream :=
  match upstream.poll with
  | .spawned =>
    if upstream.closed then { upstream with poll := .terminated }
    else { upstream with poll := .finished, proc := true }
  | _ => upstream

/-- The process ends. -/
def exit (upstream : Upstream) : Upstream :=
  match upstream.process with
  | .alive => { upstream with process := .ended }
  | _ => upstream

/-- `close()`, under the lock. -/
def close (upstream : Upstream) : Upstream :=
  if upstream.closed then upstream
  else { upstream with closed := true, proc := false, closing := .stopping upstream.proc }

/-- `close()`: the process has ended, on its own or by a signal. -/
def stop (upstream : Upstream) : Upstream :=
  match upstream.closing with
  | .stopping true => { upstream.exit with closing := .cleaning }
  | .stopping false => { upstream with closing := .cleaning }
  | _ => upstream

/-- `close()`: `_cleanup_container_telnet`. -/
def cleanup (upstream : Upstream) : Upstream :=
  match upstream.closing with
  | .cleaning => { upstream with closing := .removing }
  | _ => upstream

/-- `close()`: `_remove_console_broker` has returned. -/
def removed (upstream : Upstream) : Upstream :=
  match upstream.closing with
  | .removing => { upstream with closing := .signalling }
  | _ => upstream

/-- `close()`: `self._cleanup_done.set()`. -/
def signal (upstream : Upstream) : Upstream :=
  match upstream.closing with
  | .signalling => { upstream with closing := .cleanupDone }
  | _ => upstream

end Upstream

/-- A request for the console: it waits for the cleanup of a broker, or has a broker. -/
inductive Request
  | asking
  | blocked (id : ℕ)
  | served (id : ℕ)
  deriving DecidableEq

/-- The entry of `_CONSOLE_BROKERS` for the container, with all brokers there ever were. -/
structure Registry where
  broker : Option ℕ
  upstreams : ℕ → Option Upstream
  count : ℕ
  requests : ℕ → Request

namespace Registry

open Function (update)

def new : Registry where
  broker := none
  upstreams _ := none
  count := 0
  requests _ := .asking

/-- Something that only concerns one broker. -/
def onBroker (registry : Registry) (id : ℕ) (f : Upstream → Upstream) : Registry :=
  { registry with upstreams := update registry.upstreams id ((registry.upstreams id).map f) }

/-- `_CONSOLE_BROKERS[container] = _ConsoleBroker(container)`, started. -/
def create (registry : Registry) : Registry :=
  { registry with
    broker := some registry.count
    upstreams := update registry.upstreams registry.count (some .new)
    count := registry.count + 1 }

/-- Whether a broker is closed. -/
def isClosed (registry : Registry) (id : ℕ) : Bool :=
  match registry.upstreams id with
  | some upstream => upstream.closed
  | none => true

/-- `_get_console_broker`, under the lock. -/
def get (registry : Registry) (request : ℕ) : Registry :=
  match registry.requests request with
  | .asking =>
    let registry := if registry.broker = none then registry.create else registry
    match registry.broker with
    | none => registry
    | some id =>
      { registry with
        requests := update registry.requests request
          (if registry.isClosed id then .blocked id else .served id) }
  | _ => registry

/-- `_get_console_broker`: `broker._cleanup_done.wait()` returns. -/
def wake (registry : Registry) (request : ℕ) : Registry :=
  match registry.requests request with
  | .blocked id =>
    if (registry.upstreams id).map Upstream.closing = some .cleanupDone then
      { registry with requests := update registry.requests request .asking }
    else registry
  | _ => registry

/-- `_remove_console_broker`, which a broker calls that is being closed. -/
def remove (registry : Registry) (id : ℕ) : Registry :=
  if (registry.upstreams id).map Upstream.closing = some .removing then
    { registry.onBroker id Upstream.removed with
      broker := if registry.broker = some id then none else registry.broker }
  else registry

/-- What may happen, by any of the threads. -/
inductive Event
  | get (request : ℕ)
  | wake (request : ℕ)
  | check (id : ℕ)
  | probe (id : ℕ) (answer : Answer)
  | spawn (id : ℕ) (succeeds : Bool)
  | register (id : ℕ)
  | exit (id : ℕ)
  | close (id : ℕ)
  | stop (id : ℕ)
  | cleanup (id : ℕ)
  | remove (id : ℕ)
  | signal (id : ℕ)
  deriving DecidableEq

def step (registry : Registry) : Event → Registry
  | .get request => registry.get request
  | .wake request => registry.wake request
  | .check id => registry.onBroker id Upstream.check
  | .probe id answer => registry.onBroker id (Upstream.probe · answer)
  | .spawn id succeeds => registry.onBroker id (Upstream.spawn · succeeds)
  | .register id => registry.onBroker id Upstream.register
  | .exit id => registry.onBroker id Upstream.exit
  | .close id => registry.onBroker id Upstream.close
  | .stop id => registry.onBroker id Upstream.stop
  | .cleanup id => registry.onBroker id Upstream.cleanup
  | .remove id => registry.remove id
  | .signal id => registry.onBroker id Upstream.signal

def run (registry : Registry) : List Event → Registry
  | [] => registry
  | event :: events => run (registry.step event) events

end Registry

end Dnlab.Relay
