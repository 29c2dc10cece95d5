import Mathlib.Data.Finset.Basic
import Mathlib.Logic.Function.Basic

/-!
# The events bus of the GUI

Progress events fan out to the subscribers of a lab, after
`gui/app/services/events_bus.py`. A publish, in any thread, appends its event to
the history of the lab (`publish`), then looks up the subscribers (`read`), and
then hands the event to the event loop for each of them (`send`), which puts it
into their queue later (`deliver`). A subscribe, on the thread of the loop, adds
its queue (`subscribe`) and then replays the history into it (`replay`).
-/

namespace Dnlab.Gui

open Function (update)

variable {δ : Type}

/-- What the WebSockets get. Only the lab matters to the bus. -/
structure BusEvent (δ : Type) where
  lab : String
  phase : String
  status : String
  host : Option String := none
  detail : String := ""
  elapsedMs : ℤ := 0
  data : δ
  deriving DecidableEq

/-! ## Queues -/

/-- The `asyncio.Queue` of a subscriber. Besides what is in it, we note the lab, what was taken
    from it, whether it refused an event, and where in what was published to the lab the history
    begins that was replayed. -/
structure Queue (δ : Type) where
  maxsize : ℕ
  contents : List (BusEvent δ)
  lab : String
  taken : List (BusEvent δ)
  dropped : Bool
  start : Option ℕ

namespace Queue

def new (maxsize : ℕ) (lab : String) : Queue δ := ⟨maxsize, [], lab, [], false, none⟩

/-- `full()`: without a `maxsize`, a queue is never full. -/
def full (q : Queue δ) : Prop := 0 < q.maxsize ∧ q.maxsize ≤ q.contents.length

instance (q : Queue δ) : Decidable q.full := inferInstanceAs (Decidable (_ ∧ _))

def put (q : Queue δ) (event : BusEvent δ) : Queue δ := { q with contents := q.contents ++ [event] }

/-- `_try_put(q, event)` -/
def tryPut (q : Queue δ) (event : BusEvent δ) : Queue δ :=
  if q.full then { q with dropped := true } else q.put event

/-- `for evt in events: q.put_nowait(evt)`, and whether no `QueueFull` was raised. -/
def putAll (q : Queue δ) : List (BusEvent δ) → Queue δ × Bool
  | [] => (q, true)
  | event :: events => if q.full then (q, false) else (q.put event).putAll events

/-- `get()`, which waits for an event. -/
def take (q : Queue δ) : Queue δ :=
  match q.contents with
  | [] => q
  | event :: contents => { q with contents, taken := q.taken ++ [event] }

/-- What has come out of the queue or will. -/
def received (q : Queue δ) : List (BusEvent δ) := q.taken ++ q.contents

end Queue

/-! ## The bus -/

/-- A call of `publish`, after its event is in the history: it has yet to look up the
    subscribers, or has yet to hand the event to the loop for some of them. -/
inductive Stage
  | appended
  | sending (owed : Finset ℕ)
  deriving DecidableEq

structure Publish (δ : Type) where
  event : BusEvent δ
  stage : Stage

/-- A bus, with its queues by their numbers, the calls of `publish` in the order in which they
    appended to the history, what the event loop has been handed, and the call of `subscribe` that
    is about to replay. -/
structure EventsBus (δ : Type) where
  bufferSize : ℕ
  history : String → List (BusEvent δ)
  subscribers : String → Finset ℕ
  loop : Bool
  queues : ℕ → Queue δ
  queueCount : ℕ
  publishes : List (Publish δ)
  ready : List (ℕ × BusEvent δ)
  subscribing : Option ℕ

namespace EventsBus

/-- `EventsBus(buffer_size)` -/
def new (bufferSize : ℕ) : EventsBus δ where
  bufferSize
  history _ := []
  subscribers _ := ∅
  loop := false
  queues _ := Queue.new 0 ""
  queueCount := 0
  publishes := []
  ready := []
  subscribing := none

/-- Everything that was published to a lab, in the order of the history. -/
def published (bus : EventsBus δ) (lab : String) : List (BusEvent δ) :=
  (bus.publishes.map Publish.event).filter (·.lab = lab)

def bindLoop (bus : EventsBus δ) : EventsBus δ := { bus with loop := true }

/-- `append` of a `deque` with a `maxlen`. -/
def append (maxlen : ℕ) (history : List (BusEvent δ)) (event : BusEvent δ) : List (BusEvent δ) :=
  (history ++ [event]).drop (history.length + 1 - maxlen)

/-- `publish(event)`: `self._history[event.lab].append(event)`. -/
def publish (bus : EventsBus δ) (event : BusEvent δ) : EventsBus δ :=
  { bus with
    history := update bus.history event.lab (append bus.bufferSize (bus.history event.lab) event)
    publishes := bus.publishes ++ [⟨event, .appended⟩] }

/-- `publish(event)`: the test for the loop, and `list(self._subscribers.get(event.lab, ()))`. -/
def read (bus : EventsBus δ) (i : ℕ) : EventsBus δ :=
  match bus.publishes[i]? with
  | some ⟨event, .appended⟩ =>
    let owed := if bus.loop then bus.subscribers event.lab else ∅
    { bus with publishes := bus.publishes.set i ⟨event, .sending owed⟩ }
  | _ => bus

/-- `publish(event)`: `self._loop.call_soon_threadsafe(self._try_put, q, event)`. The subscribers
    are in no particular order. -/
def send (bus : EventsBus δ) (i : ℕ) (id : ℕ) : EventsBus δ :=
  match bus.publishes[i]? with
  | some ⟨event, .sending owed⟩ =>
    if id ∈ owed then
      { bus with
        publishes := bus.publishes.set i ⟨event, .sending (owed.erase id)⟩
        ready := bus.ready ++ [(id, event)] }
    else bus
  | _ => bus

def onQueue (bus : EventsBus δ) (id : ℕ) (f : Queue δ → Queue δ) : EventsBus δ :=
  { bus with queues := update bus.queues id (f (bus.queues id)) }

/-- The loop calls what it was handed first. -/
def deliver (bus : EventsBus δ) : EventsBus δ :=
  match bus.ready with
  | [] => bus
  | (id, event) :: ready => { bus with ready }.onQueue id (·.tryPut event)

/-- `subscribe(lab, replay)`, up to the replay. -/
def subscribe (bus : EventsBus δ) (lab : String) (replay : Bool) : EventsBus δ :=
  { bus with
    queues := update bus.queues bus.queueCount (Queue.new (bus.bufferSize * 2) lab)
    queueCount := bus.queueCount + 1
    subscribers := update bus.subscribers lab (insert bus.queueCount (bus.subscribers lab))
    subscribing := if replay then some bus.queueCount else none }

/-- `subscribe(lab, replay)`: the replay. If that raises, nobody gets the queue. -/
def replay (bus : EventsBus δ) : EventsBus δ :=
  match bus.subscribing with
  | none => bus
  | some id =>
    let lab := (bus.queues id).lab
    let bus := { bus with subscribing := none }
    let (q, all) := (bus.queues id).putAll (bus.history lab)
    let start := (bus.published lab).length - (bus.history lab).length
    bus.onQueue id fun _ => if all then { q with start := some start } else q

/-- `unsubscribe(lab, q)` -/
def unsubscribe (bus : EventsBus δ) (lab : String) (id : ℕ) : EventsBus δ :=
  { bus with subscribers := update bus.subscribers lab ((bus.subscribers lab).erase id) }

/-! ## Runs -/

/-- What may happen. The first three are in any thread, the others on that of the loop. -/
inductive Event (δ : Type)
  | publish (event : BusEvent δ)
  | read (i : ℕ)
  | send (i : ℕ) (id : ℕ)
  | replay
  | bindLoop
  | deliver
  | take (id : ℕ)
  | subscribe (lab : String) (replay : Bool)
  | unsubscribe (lab : String) (id : ℕ)

/-- Something on the thread of the loop, which is busy during a subscribe. -/
def onLoop (bus : EventsBus δ) (f : EventsBus δ → EventsBus δ) : EventsBus δ :=
  if bus.subscribing = none then f bus else bus

def step (bus : EventsBus δ) : Event δ → EventsBus δ
  | .publish event => bus.publish event
  | .read i => bus.read i
  | .send i id => bus.send i id
  | .replay => bus.replay
  | .bindLoop => bus.onLoop bindLoop
  | .deliver => bus.onLoop deliver
  | .take id => bus.onLoop fun bus => bus.onQueue id Queue.take
  | .subscribe lab replay => bus.onLoop fun bus => bus.subscribe lab replay
  | .unsubscribe lab id => bus.onLoop fun bus => bus.unsubscribe lab id

end EventsBus

end Dnlab.Gui
