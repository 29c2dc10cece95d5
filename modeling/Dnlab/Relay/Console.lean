import Mathlib.Data.Finset.Basic
import Mathlib.Data.List.DropRight
import Mathlib.Logic.Function.Basic

/-!
# The console of a container

A broker that shares one console among many clients, after `_ConsoleBroker` and
`_ConsoleSubscriber` in `runtime-relay/relay.py`. What comes from the console goes
into a history of bounded length and to a queue of each client, that a thread of
its own sends from. When the last client is gone, a timer is started that closes
the broker. Each section under a lock is one step; a client, and a timer, is known
by a number.
-/

namespace Dnlab.Relay

/-- Bytes of a console. -/
abbrev Bytes := List UInt8

/-- `CONSOLE_HISTORY_BYTES` -/
def consoleHistoryBytes : ℕ := 64 * 1024

/-- `CONSOLE_CLIENT_QUEUE_BYTES` -/
def consoleClientQueueBytes : ℕ := 256 * 1024

/-! ## Clients -/

/-- The thread that sends to a client. -/
inductive Sender
  | waiting
  | sending (data : Bytes)
  /-- It is over, with what it could not send. -/
  | stopped (lost : Bytes)
  deriving DecidableEq

/-- A client: its queue, the bytes that are accounted for it, and what was sent to it. In the
    queue, `none` is the end. -/
structure Subscriber where
  queue : List (Option Bytes)
  queuedBytes : ℕ
  closed : Bool
  sender : Sender
  sent : Bytes
  deriving DecidableEq

namespace Subscriber

/-- `_ConsoleSubscriber(sock)`. -/
def new : Subscriber := ⟨[], 0, false, .waiting, []⟩

/-- `enqueue(data)`: whether the client keeps up. -/
def enqueue (subscriber : Subscriber) (data : Bytes) : Bool × Subscriber :=
  if data = [] then (true, subscriber)
  else if subscriber.closed then (false, subscriber)
  else if consoleClientQueueBytes < subscriber.queuedBytes + data.length then (false, subscriber)
  else (true, { subscriber with
    queuedBytes := subscriber.queuedBytes + data.length
    queue := subscriber.queue ++ [some data] })

/-- `close()` -/
def close (subscriber : Subscriber) : Subscriber :=
  if subscriber.closed then subscriber
  else { subscriber with closed := true, queue := subscriber.queue ++ [none] }

/-- `_send_loop`: `self._queue.get()`. -/
def take (subscriber : Subscriber) : Subscriber :=
  match subscriber.sender, subscriber.queue with
  | .waiting, some data :: queue => { subscriber with queue, sender := .sending data }
  | .waiting, none :: queue => close { subscriber with queue, sender := .stopped [] }
  | _, _ => subscriber

/-- `_send_loop`: `self.sock.sendall(data)`, which may fail, and what follows. -/
def send (subscriber : Subscriber) (succeeds : Bool) : Subscriber :=
  match subscriber.sender with
  | .sending data =>
    if succeeds then
      { subscriber with
        sender := .waiting
        queuedBytes := subscriber.queuedBytes - data.length
        sent := subscriber.sent ++ data }
    else close { subscriber with sender := .stopped data }
  | _ => subscriber

end Subscriber

/-! ## Brokers -/

/-- A `threading.Timer`. It has fired when it is about to call its function, and nothing stops it
    any more. -/
inductive Timer
  | unused | waiting | cancelled | fired | over
  deriving DecidableEq

/-- `cancel()` -/
def Timer.cancel : Timer → Timer
  | waiting => cancelled
  | timer => timer

/-- A broker with its clients and timers. -/
structure Console where
  subscribers : Finset ℕ
  history : Bytes
  graceTimer : Option ℕ
  closed : Bool
  clients : ℕ → Option Subscriber
  timers : ℕ → Timer
  timerCount : ℕ

namespace Console

open Function (update)

/-- `_ConsoleBroker(container)`. -/
def new : Console where
  subscribers := ∅
  history := []
  graceTimer := none
  closed := false
  clients _ := none
  timers _ := .unused
  timerCount := 0

/-- `threading.Timer(CONSOLE_GRACE_SECONDS, self.close)`, started. -/
def startTimer (console : Console) : Console :=
  { console with
    timers := update console.timers console.timerCount .waiting
    graceTimer := some console.timerCount
    timerCount := console.timerCount + 1 }

/-- `self._grace_timer.cancel()`, if there is one. -/
def cancelTimer (console : Console) : Console :=
  match console.graceTimer with
  | none => console
  | some timer =>
    { console with
      timers := update console.timers timer (console.timers timer).cancel
      graceTimer := none }

/-- `attach(sock)`, up to the end of the lock, for a client that was not there before. -/
def attach (console : Console) (id : ℕ) : Console :=
  if console.clients id ≠ none ∨ console.closed then console
  else
    let console := console.cancelTimer
    let (queued, subscriber) :=
      if console.history = [] then (true, Subscriber.new)
      else Subscriber.new.enqueue console.history
    { console with
      subscribers := if queued then insert id console.subscribers else console.subscribers
      clients := update console.clients id (some subscriber) }

/-- Something that only one client does. -/
def onClient (console : Console) (id : ℕ) (f : Subscriber → Subscriber) : Console :=
  { console with clients := update console.clients id ((console.clients id).map f) }

/-- `detach(subscriber)`, under the lock, once the subscriber is closed. -/
def detach (console : Console) (id : ℕ) : Console :=
  if console.clients id = none then console
  else
    let console := { console with subscribers := console.subscribers.erase id }
    if console.closed ∨ console.subscribers ≠ ∅ ∨ console.graceTimer ≠ none then console
    else console.startTimer

/-- What is left of the history. -/
def trim (history : Bytes) : Bytes :=
  let overflow := history.length - consoleHistoryBytes
  history.drop overflow

/-- Whether a client takes data. -/
def accepts (console : Console) (data : Bytes) (id : ℕ) : Bool :=
  match console.clients id with
  | some subscriber => (subscriber.enqueue data).1
  | none => false

/-- `_fan_out(data)`, under the lock. The clients that are slow are closed afterwards. -/
def fanOut (console : Console) (data : Bytes) : Console :=
  if console.closed then console
  else
    let slow := console.subscribers.filter fun id => console.accepts data id = false
    let console : Console :=
      { console with
        history := trim (console.history ++ data)
        clients := fun id =>
          if id ∈ console.subscribers then
            (console.clients id).map fun subscriber => (subscriber.enqueue data).2
          else console.clients id
        subscribers := console.subscribers.filter fun id => console.accepts data id = true }
    if slow ≠ ∅ ∧ console.subscribers = ∅ ∧ console.graceTimer = none then console.startTimer
    else console

/-- `close()`, under the lock. -/
def close (console : Console) : Console :=
  if console.closed then console
  else { console.cancelTimer with closed := true, subscribers := ∅ }

/-- A timer runs out that was not cancelled. -/
def expire (console : Console) (timer : ℕ) : Console :=
  if console.timers timer = .waiting then
    { console with timers := update console.timers timer .fired }
  else console

/-- A timer that has fired closes the broker. -/
def timerClose (console : Console) (timer : ℕ) : Console :=
  if console.timers timer = .fired then
    { console.close with timers := update console.close.timers timer .over }
  else console

/-! ## Runs -/

/-- What may happen, by any of the threads. -/
inductive Event
  | attach (id : ℕ)
  | closeSubscriber (id : ℕ)
  | detach (id : ℕ)
  | take (id : ℕ)
  | send (id : ℕ) (succeeds : Bool)
  | fanOut (data : Bytes)
  | expire (timer : ℕ)
  | timerClose (timer : ℕ)
  | close
  deriving DecidableEq

def step (console : Console) : Event → Console
  | .attach id => console.attach id
  | .closeSubscriber id => console.onClient id Subscriber.close
  | .detach id => console.detach id
  | .take id => console.onClient id Subscriber.take
  | .send id succeeds => console.onClient id (Subscriber.send · succeeds)
  | .fanOut data => console.fanOut data
  | .expire timer => console.expire timer
  | .timerClose timer => console.timerClose timer
  | .close => console.close

def run (console : Console) : List Event → Console
  | [] => console
  | event :: events => run (console.step event) events

/-- The bytes of a chunk from the console. -/
def Event.chunk : Event → Bytes
  | fanOut data => data
  | _ => []

/-- What an open broker takes from the console. -/
def taken (console : Console) (event : Event) : Bytes :=
  if console.closed then [] else event.chunk

/-- What the broker receives in a run. -/
def received (console : Console) : List Event → Bytes
  | [] => []
  | event :: events => console.taken event ++ received (console.step event) events

end Console

end Dnlab.Relay
