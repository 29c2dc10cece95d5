import Dnlab.Gui.EventsBus

/-!
# The bridge of remote events

A call of the controller's API brings the events of the controller to the bus of
the GUI, after `_api_post` and `_bridge_remote_events` of
`gui/app/services/multinode_service.py`, and `events_ws` and `_progress` of
`dnlab_multinode/api.py`. Each call has a stream of its own (`call`), which ends
with the response (`respond`). The controller adds the queue of a stream
(`accept`) and then sends its history (`replay`, `sendReplay`) and what comes into
the queue (`sendQueue`). An event that is emitted, in a thread of the controller,
goes into the history (`emit`), and then to the queues that are there (`read`,
`send`, `deliver`). All is for one topic; an event is known by its number.
-/

namespace Dnlab.Gui

variable {δ : Type}

/-- What the controller reports. The time is left out, as nothing reads it. -/
structure ProgressEvent (δ : Type) where
  phase : String
  status : String
  host : Option String := none
  detail : String := ""
  elapsedMs : ℤ := 0
  data : δ
  deriving DecidableEq

/-- `BusEvent(lab=topic, phase=…, …)` -/
def BusEvent.ofRemote (topic : String) (event : ProgressEvent δ) : BusEvent δ where
  lab := topic
  phase := event.phase
  status := event.status
  host := event.host
  detail := event.detail
  elapsedMs := event.elapsedMs
  data := event.data

namespace Bridge

/-- `maxlen` of `_events`. -/
def eventsMaxlen : ℕ := 500

/-- `maxsize` of the queue of a listener. -/
def queueMaxsize : ℕ := 500

/-- The stream of a call: what is left of the replay, once the controller has looked at its
    history; the queue at the controller; and what is on its way to the GUI. -/
structure Stream where
  replaying : Option (List ℕ)
  queue : List ℕ
  wire : List ℕ

def Stream.new : Stream := ⟨none, [], []⟩

/-- A topic, at the controller and at the GUI: the events that were emitted; those in the history;
    those that have yet to look for their queues; what has yet to be handed to the event loop of
    the controller, and what that has been handed; the calls so far, those without a response and
    those whose stream is read; and what was published on the bus. -/
structure Topic (δ : Type) where
  emitted : List (ProgressEvent δ)
  history : List ℕ
  unread : List ℕ
  due : List (ℕ × ℕ)
  ready : List (ℕ × ℕ)
  subscribers : Finset ℕ
  streams : ℕ → Stream
  calls : ℕ
  running : Finset ℕ
  live : Finset ℕ
  published : List ℕ

namespace Topic

open Function (update)

def new : Topic δ where
  emitted := []
  history := []
  unread := []
  due := []
  ready := []
  subscribers := ∅
  streams _ := Stream.new
  calls := 0
  running := ∅
  live := ∅
  published := []

/-- What is on the bus of the GUI. -/
def bus (topic : Topic δ) (lab : String) : List (BusEvent δ) :=
  topic.published.filterMap fun n => topic.emitted[n]?.map (BusEvent.ofRemote lab)

/-! ## The GUI -/

/-- `_api_post`: `asyncio.create_task(self._bridge_remote_events(topic))`, and the request. -/
def call (topic : Topic δ) : Topic δ :=
  { topic with
    calls := topic.calls + 1
    running := insert topic.calls topic.running
    live := insert topic.calls topic.live }

/-- `_bridge_remote_events`: `bus.publish(BusEvent(…))` for what was received. -/
def receive (topic : Topic δ) (k : ℕ) : Topic δ :=
  match (topic.streams k).wire with
  | n :: wire =>
    if k ∈ topic.live then
      { topic with
        streams := update topic.streams k { topic.streams k with wire }
        published := topic.published ++ [n] }
    else topic
  | [] => topic

/-- `_bridge_remote_events`: the connection fails, or is lost. -/
def fail (topic : Topic δ) (k : ℕ) : Topic δ := { topic with live := topic.live.erase k }

/-- `_api_post`: the response is here, and `bridge_task.cancel()`. -/
def respond (topic : Topic δ) (k : ℕ) : Topic δ :=
  { topic with running := topic.running.erase k, live := topic.live.erase k }

/-! ## The stream at the controller -/

/-- `events_ws`: `_subscribers[topic].add(subscriber)`. -/
def accept (topic : Topic δ) (k : ℕ) : Topic δ :=
  if k < topic.calls ∧ (topic.streams k).replaying = none then
    { topic with subscribers := insert k topic.subscribers }
  else topic

/-- `events_ws`: `list(_events[topic])`. -/
def replay (topic : Topic δ) (k : ℕ) : Topic δ :=
  if k ∈ topic.subscribers ∧ (topic.streams k).replaying = none then
    { topic with
      streams := update topic.streams k { topic.streams k with replaying := some topic.history } }
  else topic

/-- `events_ws`: `await ws.send_json(event)` for an event of the history. -/
def sendReplay (topic : Topic δ) (k : ℕ) : Topic δ :=
  match (topic.streams k).replaying with
  | some (n :: replaying) =>
    { topic with
      streams := update topic.streams k { topic.streams k with
        replaying := some replaying
        wire := (topic.streams k).wire ++ [n] } }
  | _ => topic

/-- `events_ws`: `await ws.send_json(await q.get())`. -/
def sendQueue (topic : Topic δ) (k : ℕ) : Topic δ :=
  match (topic.streams k).replaying, (topic.streams k).queue with
  | some [], n :: queue =>
    { topic with
      streams := update topic.streams k { topic.streams k with
        queue
        wire := (topic.streams k).wire ++ [n] } }
  | _, _ => topic

/-- `events_ws`: `_subscribers[topic].discard(subscriber)`, when the listener is gone. -/
def disconnect (topic : Topic δ) (k : ℕ) : Topic δ :=
  if (topic.streams k).replaying = some [] then
    { topic with subscribers := topic.subscribers.erase k }
  else topic

/-! ## The controller -/

/-- `_publish(evt)`: `_events[topic].append(event)`, while a call runs. -/
def emit (topic : Topic δ) (event : ProgressEvent δ) : Topic δ :=
  if topic.running = ∅ then topic
  else
    let n := topic.emitted.length
    { topic with
      emitted := topic.emitted ++ [event]
      history := (topic.history ++ [n]).drop (topic.history.length + 1 - eventsMaxlen)
      unread := topic.unread ++ [n] }

/-- `_publish(evt)`: `list(_subscribers[topic])`. -/
def read (topic : Topic δ) (n : ℕ) : Topic δ :=
  if n ∈ topic.unread then
    { topic with
      unread := topic.unread.erase n
      due := topic.due ++ ((List.range topic.calls).filter (· ∈ topic.subscribers)).map (·, n) }
  else topic

/-- `_publish(evt)`: `loop.call_soon_threadsafe(_queue_event, q, event)`. -/
def send (topic : Topic δ) (k n : ℕ) : Topic δ :=
  if (k, n) ∈ topic.due then
    { topic with due := topic.due.erase (k, n), ready := topic.ready ++ [(k, n)] }
  else topic

/-- `_queue_event(q, event)`: a queue that is full drops the event. -/
def deliver (topic : Topic δ) : Topic δ :=
  match topic.ready with
  | [] => topic
  | (k, n) :: ready =>
    if (topic.streams k).queue.length < queueMaxsize then
      { topic with
        ready
        streams := update topic.streams k { topic.streams k with
          queue := (topic.streams k).queue ++ [n] } }
    else { topic with ready }

/-! ## Runs -/

inductive Event (δ : Type)
  | call
  | receive (k : ℕ)
  | fail (k : ℕ)
  | respond (k : ℕ)
  | accept (k : ℕ)
  | replay (k : ℕ)
  | sendReplay (k : ℕ)
  | sendQueue (k : ℕ)
  | disconnect (k : ℕ)
  | emit (event : ProgressEvent δ)
  | read (n : ℕ)
  | send (k n : ℕ)
  | deliver

def step (topic : Topic δ) : Event δ → Topic δ
  | .call => topic.call
  | .receive k => topic.receive k
  | .fail k => topic.fail k
  | .respond k => topic.respond k
  | .accept k => topic.accept k
  | .replay k => topic.replay k
  | .sendReplay k => topic.sendReplay k
  | .sendQueue k => topic.sendQueue k
  | .disconnect k => topic.disconnect k
  | .emit event => topic.emit event
  | .read n => topic.read n
  | .send k n => topic.send k n
  | .deliver => topic.deliver

end Topic

end Bridge

end Dnlab.Gui
