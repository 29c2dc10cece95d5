import Dnlab.Relay.Console

/-!
# What a client gets

Whatever happens at a broker, a client that is still attached has been given the
history at its attach and every byte after it (`replay_gapless`): a client that
misses a chunk is not attached any more. The history is what was received last,
and what is queued for a client stays within its limit.
-/

namespace Dnlab.Relay

open Function (update)

/-! ## Clients -/

/-- What the sender has in hand. -/
def Sender.bytes : Sender → Bytes
  | waiting => []
  | sending data => data
  | stopped lost => lost

namespace Subscriber

variable {subscriber : Subscriber} {data : Bytes}

/-- What was put into the queue and not sent. -/
def pending (subscriber : Subscriber) : Bytes :=
  subscriber.sender.bytes ++ subscriber.queue.flatMap (·.getD [])

/-- What was put into the queue. -/
def enqueued (subscriber : Subscriber) : Bytes := subscriber.sent ++ subscriber.pending

/-- The account of a client is right, and within the limit. -/
structure Accounted (subscriber : Subscriber) : Prop where
  queuedBytes : subscriber.queuedBytes = subscriber.pending.length
  bounded : subscriber.queuedBytes ≤ consoleClientQueueBytes

theorem accounted_new : new.Accounted := ⟨rfl, Nat.zero_le _⟩

theorem pending_close (subscriber : Subscriber) : subscriber.close.pending = subscriber.pending := by
  rw [close]
  split_ifs
  · rfl
  · simp [pending]

theorem sent_close (subscriber : Subscriber) : subscriber.close.sent = subscriber.sent := by
  rw [close]
  split_ifs <;> rfl

theorem queuedBytes_close (subscriber : Subscriber) :
    subscriber.close.queuedBytes = subscriber.queuedBytes := by
  rw [close]
  split_ifs <;> rfl

/-- Something that a client does alone: nothing is put into its queue, or lost. -/
def Keeps (f : Subscriber → Subscriber) : Prop :=
  ∀ subscriber, (f subscriber).enqueued = subscriber.enqueued ∧
    (subscriber.Accounted → (f subscriber).Accounted)

theorem keeps_close : Keeps close := by
  intro subscriber
  refine ⟨?_, fun h => ⟨?_, ?_⟩⟩
  · rw [enqueued, sent_close, pending_close]
    rfl
  · rw [queuedBytes_close, pending_close]
    exact h.queuedBytes
  · rw [queuedBytes_close]
    exact h.bounded

theorem keeps_take : Keeps take := by
  rintro ⟨queue, queuedBytes, closed, sender, sent⟩
  rw [take]
  rcases sender with _ | data | lost
  · rcases queue with _ | ⟨_ | data, queue⟩
    · exact ⟨rfl, id⟩
    · -- The end of the queue holds no bytes.
      obtain ⟨henqueued, haccounted⟩ := keeps_close ⟨queue, queuedBytes, closed, .stopped [], sent⟩
      exact ⟨henqueued, fun h => haccounted ⟨h.queuedBytes, h.bounded⟩⟩
    · exact ⟨rfl, fun h => ⟨h.queuedBytes, h.bounded⟩⟩
  · exact ⟨rfl, id⟩
  · exact ⟨rfl, id⟩

theorem keeps_send (succeeds : Bool) : Keeps (send · succeeds) := by
  rintro ⟨queue, queuedBytes, closed, sender, sent⟩
  dsimp only
  rw [send]
  rcases sender with _ | data | lost
  · exact ⟨rfl, id⟩
  · rcases succeeds with _ | _
    · obtain ⟨henqueued, haccounted⟩ := keeps_close ⟨queue, queuedBytes, closed, .stopped data, sent⟩
      exact ⟨henqueued, fun h => haccounted ⟨h.queuedBytes, h.bounded⟩⟩
    · refine ⟨by simp [enqueued, pending, Sender.bytes], fun h => ⟨?_, ?_⟩⟩
      · have hall : queuedBytes = (data ++ queue.flatMap (·.getD [])).length := h.queuedBytes
        rw [List.length_append] at hall
        simp [pending, Sender.bytes, hall]
      · exact (Nat.sub_le _ _).trans h.bounded
  · exact ⟨rfl, id⟩

/-- A client that keeps up is given the data. -/
theorem enqueued_enqueue (h : (subscriber.enqueue data).1 = true) :
    (subscriber.enqueue data).2.enqueued = subscriber.enqueued ++ data := by
  rw [enqueue] at h ⊢
  split_ifs at h ⊢ with hnil hclosed hlimit
  · rw [hnil, List.append_nil]
  · simp [enqueued, pending]

theorem accounted_enqueue (h : subscriber.Accounted) (data : Bytes) :
    (subscriber.enqueue data).2.Accounted := by
  rw [enqueue]
  split_ifs with hnil hclosed hlimit
  · exact h
  · exact h
  · exact h
  · refine ⟨?_, not_lt.1 hlimit⟩
    rw [h.queuedBytes]
    simp [pending, Nat.add_assoc]

/-- A new client keeps up with a history. -/
theorem enqueue_new (h : data.length ≤ consoleClientQueueBytes) : (new.enqueue data).1 = true := by
  rw [enqueue]
  split_ifs with hnil hclosed hlimit
  · rfl
  · exact absurd hclosed (by decide)
  · have hzero : new.queuedBytes = 0 := rfl
    omega
  · rfl

end Subscriber

/-! ## Brokers -/

namespace Console

variable {console : Console} {id : ℕ} {event : Event} {data past : Bytes}

@[simp] theorem startTimer_clients (console : Console) : console.startTimer.clients = console.clients := rfl
@[simp] theorem startTimer_subscribers (console : Console) :
    console.startTimer.subscribers = console.subscribers := rfl
@[simp] theorem startTimer_history (console : Console) : console.startTimer.history = console.history := rfl
@[simp] theorem startTimer_closed (console : Console) : console.startTimer.closed = console.closed := rfl

@[simp] theorem cancelTimer_clients (console : Console) :
    console.cancelTimer.clients = console.clients := by
  rw [cancelTimer]
  split <;> rfl

@[simp] theorem cancelTimer_subscribers (console : Console) :
    console.cancelTimer.subscribers = console.subscribers := by
  rw [cancelTimer]
  split <;> rfl

@[simp] theorem cancelTimer_history (console : Console) :
    console.cancelTimer.history = console.history := by
  rw [cancelTimer]
  split <;> rfl

@[simp] theorem cancelTimer_closed (console : Console) :
    console.cancelTimer.closed = console.closed := by
  rw [cancelTimer]
  split <;> rfl

theorem trim_eq (history : Bytes) : trim history = history.rtake consoleHistoryBytes := rfl

/-- The last bytes of what is there and of what comes. -/
theorem rtake_append (l m : Bytes) (n : ℕ) : (l.rtake n ++ m).rtake n = (l ++ m).rtake n := by
  simp only [List.rtake_eq_reverse_take_reverse, List.reverse_append, List.reverse_reverse,
    List.take_append, List.take_take]
  congr 3
  omega

theorem length_rtake_le (l : Bytes) (n : ℕ) : (l.rtake n).length ≤ n := by
  rw [List.rtake, List.length_drop]
  omega

/-- What was put into the queue of a client. -/
def enqueued (console : Console) (id : ℕ) : Bytes :=
  ((console.clients id).map Subscriber.enqueued).getD []

/-- The history is what came last, the accounts of the clients are right, and who is attached is a
    client. -/
structure Sound (console : Console) (past : Bytes) : Prop where
  history : console.history = past.rtake consoleHistoryBytes
  accounted : ∀ id subscriber, console.clients id = some subscriber → subscriber.Accounted
  known : ∀ id ∈ console.subscribers, console.clients id ≠ none

theorem sound_new : new.Sound [] := by
  refine ⟨rfl, fun id subscriber h => ?_, fun id h => ?_⟩
  · exact absurd h (by simp [new])
  · exact absurd h (Finset.notMem_empty id)

/-- A new client of an open broker is attached, with the history in its queue. -/
theorem Sound.attach_eq (h : console.Sound past) (hnew : console.clients id = none)
    (hopen : console.closed = false) :
    ∃ subscriber : Subscriber, subscriber.Accounted ∧ subscriber.enqueued = console.history ∧
      console.attach id =
        { console.cancelTimer with
          subscribers := insert id console.subscribers
          clients := update console.clients id (some subscriber) } := by
  have hlength : console.history.length ≤ consoleClientQueueBytes := by
    rw [h.history]
    exact (length_rtake_le _ _).trans (by decide)
  rw [attach, if_neg (by simp [hnew, hopen])]
  simp only [cancelTimer_history, cancelTimer_subscribers, cancelTimer_clients]
  by_cases hnil : console.history = []
  · rw [if_pos hnil]
    exact ⟨.new, Subscriber.accounted_new, hnil.symm, rfl⟩
  · rw [if_neg hnil]
    have hqueued := Subscriber.enqueue_new hlength
    refine ⟨_, Subscriber.accounted_enqueue Subscriber.accounted_new console.history, ?_, ?_⟩
    · rw [Subscriber.enqueued_enqueue hqueued]
      rfl
    · rw [if_pos hqueued]

theorem attach_eq_self (h : console.clients id ≠ none ∨ console.closed = true) :
    console.attach id = console := if_pos h

/-! ## Steps -/

theorem taken_of_no_chunk (h : event.chunk = []) : console.taken event = [] := by
  rw [taken, h, ite_self]

theorem enqueued_of_clients_eq {console' : Console} (h : console'.clients id = console.clients id) :
    console'.enqueued id = console.enqueued id := by
  rw [enqueued, enqueued, h]

theorem enqueued_onClient {f : Subscriber → Subscriber} (hf : Subscriber.Keeps f) (console : Console)
    (id id' : ℕ) : (console.onClient id f).enqueued id' = console.enqueued id' := by
  rw [enqueued, enqueued, onClient]
  by_cases hid : id' = id
  · subst hid
    dsimp only
    rw [Function.update_self]
    rcases console.clients id' with _ | subscriber
    · rfl
    · exact (hf subscriber).1
  · dsimp only
    rw [Function.update_of_ne hid]

theorem Sound.onClient {f : Subscriber → Subscriber} (hf : Subscriber.Keeps f) (h : console.Sound past)
    (id : ℕ) : (console.onClient id f).Sound past := by
  refine ⟨h.history, fun id' subscriber hget => ?_, fun id' hid' => ?_⟩
  · rw [Console.onClient] at hget
    by_cases hid : id' = id
    · subst hid
      dsimp only at hget
      rw [Function.update_self] at hget
      obtain ⟨subscriber', hget', rfl⟩ := Option.map_eq_some_iff.1 hget
      exact (hf subscriber').2 (h.accounted id' subscriber' hget')
    · dsimp only at hget
      rw [Function.update_of_ne hid] at hget
      exact h.accounted id' subscriber hget
  · have hknown := h.known id' hid'
    rw [Console.onClient]
    by_cases hid : id' = id
    · subst hid
      dsimp only
      rw [Function.update_self]
      exact mt Option.map_eq_none_iff.1 hknown
    · dsimp only
      rw [Function.update_of_ne hid]
      exact hknown

/-- What an open broker does with a chunk. -/
theorem fanOut_of_open (hopen : console.closed = false) (data : Bytes) :
    (console.fanOut data).history = trim (console.history ++ data) ∧
      (∀ id, (console.fanOut data).clients id =
        if id ∈ console.subscribers then
          (console.clients id).map fun subscriber => (subscriber.enqueue data).2
        else console.clients id) ∧
      (console.fanOut data).subscribers =
        console.subscribers.filter fun id => console.accepts data id = true := by
  rw [fanOut, if_neg (by simp [hopen])]
  dsimp only
  split_ifs
  · rw [startTimer_history, startTimer_clients, startTimer_subscribers]
    dsimp only
    exact ⟨rfl, fun _ => rfl, rfl⟩
  · dsimp only
    exact ⟨rfl, fun _ => rfl, rfl⟩

theorem fanOut_of_closed (hclosed : console.closed = true) (data : Bytes) :
    console.fanOut data = console := if_pos hclosed

theorem Sound.fanOut (h : console.Sound past) (data : Bytes) :
    (console.fanOut data).Sound (past ++ console.taken (.fanOut data)) := by
  rcases hclosed : console.closed with _ | _
  · obtain ⟨hhistory, hclients, hsubscribers⟩ := fanOut_of_open hclosed data
    have htaken : console.taken (.fanOut data) = data := by simp [taken, hclosed, Event.chunk]
    refine ⟨?_, fun id subscriber hget => ?_, fun id hid => ?_⟩
    · rw [hhistory, trim_eq, h.history, rtake_append, htaken]
    · rw [hclients] at hget
      split_ifs at hget with hid
      · obtain ⟨subscriber', hget', rfl⟩ := Option.map_eq_some_iff.1 hget
        exact Subscriber.accounted_enqueue (h.accounted id subscriber' hget') data
      · exact h.accounted id subscriber hget
    · rw [hsubscribers] at hid
      have hmem := (Finset.mem_filter.1 hid).1
      rw [hclients, if_pos hmem]
      exact mt Option.map_eq_none_iff.1 (h.known id hmem)
  · rw [fanOut_of_closed hclosed, taken, if_pos hclosed, List.append_nil]
    exact h

/-- Steps that change no client, no history, and attach nobody. -/
theorem Sound.of_eq {console' : Console} (h : console.Sound past)
    (hhistory : console'.history = console.history) (hclients : console'.clients = console.clients)
    (hsubscribers : console'.subscribers ⊆ console.subscribers) : console'.Sound past :=
  ⟨hhistory ▸ h.history, hclients ▸ h.accounted, fun id hid => hclients ▸ h.known id (hsubscribers hid)⟩

theorem detach_eq (console : Console) (id : ℕ) :
    (console.detach id).history = console.history ∧ (console.detach id).clients = console.clients ∧
      (console.detach id).subscribers ⊆ console.subscribers := by
  rw [detach]
  split_ifs
  · exact ⟨rfl, rfl, fun _ h => h⟩
  · dsimp only
    split_ifs
    · exact ⟨rfl, rfl, Finset.erase_subset _ _⟩
    · exact ⟨rfl, rfl, Finset.erase_subset _ _⟩

theorem close_eq (console : Console) :
    console.close.history = console.history ∧ console.close.clients = console.clients ∧
      console.close.subscribers ⊆ console.subscribers := by
  rw [close]
  split_ifs
  · exact ⟨rfl, rfl, fun _ h => h⟩
  · exact ⟨cancelTimer_history _, cancelTimer_clients _, Finset.empty_subset _⟩

theorem expire_eq (console : Console) (timer : ℕ) :
    (console.expire timer).history = console.history ∧
      (console.expire timer).clients = console.clients ∧
      (console.expire timer).subscribers ⊆ console.subscribers := by
  rw [expire]
  split_ifs
  · exact ⟨rfl, rfl, fun _ h => h⟩
  · exact ⟨rfl, rfl, fun _ h => h⟩

theorem timerClose_eq (console : Console) (timer : ℕ) :
    (console.timerClose timer).history = console.history ∧
      (console.timerClose timer).clients = console.clients ∧
      (console.timerClose timer).subscribers ⊆ console.subscribers := by
  rw [timerClose]
  split_ifs
  · exact close_eq console
  · exact ⟨rfl, rfl, fun _ h => h⟩

theorem Sound.attach (h : console.Sound past) (id : ℕ) : (console.attach id).Sound past := by
  by_cases hnoop : console.clients id ≠ none ∨ console.closed = true
  · rw [attach_eq_self hnoop]
    exact h
  rw [not_or, not_not, Bool.not_eq_true] at hnoop
  obtain ⟨subscriber, haccounted, -, heq⟩ := h.attach_eq hnoop.1 hnoop.2
  rw [heq]
  refine ⟨(cancelTimer_history _).trans h.history, fun id' subscriber' hget => ?_, fun id' hid' => ?_⟩
  · dsimp only at hget
    by_cases hid : id' = id
    · subst hid
      rw [Function.update_self] at hget
      exact Option.some.inj hget ▸ haccounted
    · rw [Function.update_of_ne hid] at hget
      exact h.accounted id' subscriber' hget
  · dsimp only
    by_cases hid : id' = id
    · subst hid
      rw [Function.update_self]
      exact Option.some_ne_none _
    · rw [Function.update_of_ne hid]
      exact h.known id' (Finset.mem_of_mem_insert_of_ne hid' hid)

/-- One step keeps the history and the accounts. -/
theorem Sound.step (h : console.Sound past) (event : Event) :
    (console.step event).Sound (past ++ console.taken event) := by
  rcases event with id | id | id | id | ⟨id, succeeds⟩ | data | timer | timer | _
  case fanOut => exact h.fanOut data
  all_goals rw [taken_of_no_chunk rfl, List.append_nil]
  case attach => exact h.attach id
  case closeSubscriber => exact h.onClient Subscriber.keeps_close id
  case take => exact h.onClient Subscriber.keeps_take id
  case send => exact h.onClient (Subscriber.keeps_send succeeds) id
  case detach =>
    obtain ⟨hhistory, hclients, hsubscribers⟩ := detach_eq console id
    exact h.of_eq hhistory hclients hsubscribers
  case expire =>
    obtain ⟨hhistory, hclients, hsubscribers⟩ := expire_eq console timer
    exact h.of_eq hhistory hclients hsubscribers
  case timerClose =>
    obtain ⟨hhistory, hclients, hsubscribers⟩ := timerClose_eq console timer
    exact h.of_eq hhistory hclients hsubscribers
  case close =>
    obtain ⟨hhistory, hclients, hsubscribers⟩ := close_eq console
    exact h.of_eq hhistory hclients hsubscribers

/-- Only an attach adds to those that are attached, and only a client that was not there. -/
theorem mem_subscribers_of_step (h : id ∈ (console.step event).subscribers) :
    id ∈ console.subscribers ∨ console.clients id = none := by
  rcases event with id' | id' | id' | id' | ⟨id', succeeds⟩ | data | timer | timer | _
  case attach =>
    by_cases hnoop : console.clients id' ≠ none ∨ console.closed = true
    · rw [Console.step, attach_eq_self hnoop] at h
      exact .inl h
    · rw [Console.step, Console.attach, if_neg hnoop] at h
      rw [not_or, not_not] at hnoop
      simp only [cancelTimer_subscribers] at h
      split_ifs at h
      all_goals first
        | exact .inl h
        | exact (Finset.mem_insert.1 h).elim (fun heq => .inr (heq ▸ hnoop.1)) .inl
  case closeSubscriber => exact .inl h
  case take => exact .inl h
  case send => exact .inl h
  case fanOut =>
    rcases hclosed : console.closed with _ | _
    · rw [Console.step, (fanOut_of_open hclosed data).2.2] at h
      exact .inl (Finset.mem_filter.1 h).1
    · rw [Console.step, fanOut_of_closed hclosed] at h
      exact .inl h
  case detach => exact .inl ((detach_eq console id').2.2 h)
  case expire => exact .inl ((expire_eq console timer).2.2 h)
  case timerClose => exact .inl ((timerClose_eq console timer).2.2 h)
  case close => exact .inl ((close_eq console).2.2 h)

/-- A client stays one. -/
theorem clients_step_ne_none (h : console.clients id ≠ none) (event : Event) :
    (console.step event).clients id ≠ none := by
  -- A change of a client does not remove it.
  have honClient {f : Subscriber → Subscriber} (id' : ℕ) :
      (console.onClient id' f).clients id ≠ none := by
    rw [Console.onClient]
    by_cases hid : id = id'
    · subst hid
      dsimp only
      rw [Function.update_self]
      exact mt Option.map_eq_none_iff.1 h
    · dsimp only
      rw [Function.update_of_ne hid]
      exact h
  rcases event with id' | id' | id' | id' | ⟨id', succeeds⟩ | data | timer | timer | _
  case attach =>
    by_cases hnoop : console.clients id' ≠ none ∨ console.closed = true
    · rw [Console.step, attach_eq_self hnoop]
      exact h
    · rw [Console.step, Console.attach, if_neg hnoop]
      rw [not_or, not_not] at hnoop
      dsimp only
      rw [Function.update_of_ne, cancelTimer_clients]
      · exact h
      · rintro rfl
        exact h hnoop.1
  case closeSubscriber => exact honClient id'
  case take => exact honClient id'
  case send => exact honClient id'
  case fanOut =>
    rcases hclosed : console.closed with _ | _
    · rw [Console.step, (fanOut_of_open hclosed data).2.1]
      split_ifs
      · exact mt Option.map_eq_none_iff.1 h
      · exact h
    · rw [Console.step, fanOut_of_closed hclosed]
      exact h
  case detach => rw [Console.step, (detach_eq console id').2.1]; exact h
  case expire => rw [Console.step, (expire_eq console timer).2.1]; exact h
  case timerClose => rw [Console.step, (timerClose_eq console timer).2.1]; exact h
  case close => rw [Console.step, (close_eq console).2.1]; exact h

theorem closed_detach (console : Console) (id : ℕ) : (console.detach id).closed = console.closed := by
  rw [detach]
  split_ifs
  · rfl
  · dsimp only
    split_ifs
    · rfl
    · rfl

theorem close_of_closed (hclosed : console.closed = true) : console.close = console := if_pos hclosed

/-- A closed broker stays closed, and nobody is added to its clients. -/
theorem step_of_closed (hclosed : console.closed = true) (hnone : console.clients id = none)
    (event : Event) :
    (console.step event).closed = true ∧ (console.step event).clients id = none := by
  have honClient {f : Subscriber → Subscriber} (id' : ℕ) :
      (console.onClient id' f).clients id = none := by
    rw [Console.onClient]
    by_cases hid : id = id'
    · subst hid
      dsimp only
      rw [Function.update_self, hnone]
      rfl
    · dsimp only
      rw [Function.update_of_ne hid]
      exact hnone
  rcases event with id' | id' | id' | id' | ⟨id', succeeds⟩ | data | timer | timer | _
  case attach => rw [Console.step, attach_eq_self (.inr hclosed)]; exact ⟨hclosed, hnone⟩
  case closeSubscriber => exact ⟨hclosed, honClient id'⟩
  case take => exact ⟨hclosed, honClient id'⟩
  case send => exact ⟨hclosed, honClient id'⟩
  case fanOut => rw [Console.step, fanOut_of_closed hclosed]; exact ⟨hclosed, hnone⟩
  case detach =>
    exact ⟨(closed_detach console id').trans hclosed,
      (congrFun (detach_eq console id').2.1 id).trans hnone⟩
  case expire =>
    refine ⟨?_, (congrFun (expire_eq console timer).2.1 id).trans hnone⟩
    rw [Console.step, expire]
    split_ifs <;> exact hclosed
  case timerClose =>
    refine ⟨?_, (congrFun (timerClose_eq console timer).2.1 id).trans hnone⟩
    rw [Console.step, timerClose, close_of_closed hclosed]
    split_ifs <;> exact hclosed
  case close => rw [Console.step, close_of_closed hclosed]; exact ⟨hclosed, hnone⟩

/-- A client that stays attached is given what the broker takes from the console. -/
theorem Sound.enqueued_step (h : console.Sound past) (hid : id ∈ console.subscribers)
    (hid' : id ∈ (console.step event).subscribers) :
    (console.step event).enqueued id = console.enqueued id ++ console.taken event := by
  rcases event with id' | id' | id' | id' | ⟨id', succeeds⟩ | data | timer | timer | _
  case fanOut =>
    rcases hclosed : console.closed with _ | _
    · obtain ⟨-, hclients, hsubscribers⟩ := fanOut_of_open hclosed data
      -- Who is still attached has taken the chunk.
      rw [Console.step, hsubscribers] at hid'
      have haccepts := (Finset.mem_filter.1 hid').2
      have htaken : console.taken (.fanOut data) = data := by simp [taken, hclosed, Event.chunk]
      rw [Console.step, htaken, enqueued, enqueued, hclients, if_pos hid]
      rw [accepts] at haccepts
      rcases hget : console.clients id with _ | subscriber
      · exact absurd hget (h.known id hid)
      · rw [hget] at haccepts
        exact Subscriber.enqueued_enqueue haccepts
    · rw [Console.step, fanOut_of_closed hclosed, taken, if_pos hclosed, List.append_nil]
  all_goals rw [taken_of_no_chunk rfl, List.append_nil]
  case attach =>
    by_cases hnoop : console.clients id' ≠ none ∨ console.closed = true
    · rw [Console.step, attach_eq_self hnoop]
    · rw [not_or, not_not, Bool.not_eq_true] at hnoop
      obtain ⟨subscriber, -, -, heq⟩ := h.attach_eq hnoop.1 hnoop.2
      refine enqueued_of_clients_eq ?_
      rw [Console.step, heq]
      dsimp only
      rw [Function.update_of_ne]
      rintro rfl
      exact h.known id hid hnoop.1
  case closeSubscriber => exact enqueued_onClient Subscriber.keeps_close console id' id
  case take => exact enqueued_onClient Subscriber.keeps_take console id' id
  case send => exact enqueued_onClient (Subscriber.keeps_send succeeds) console id' id
  case detach => exact enqueued_of_clients_eq (congrFun (detach_eq console id').2.1 id)
  case expire => exact enqueued_of_clients_eq (congrFun (expire_eq console timer).2.1 id)
  case timerClose => exact enqueued_of_clients_eq (congrFun (timerClose_eq console timer).2.1 id)
  case close => exact enqueued_of_clients_eq (congrFun (close_eq console).2.1 id)

/-! ## Runs -/

variable {events before after : List Event}

theorem run_append (console : Console) (before after : List Event) :
    console.run (before ++ after) = (console.run before).run after := by
  induction before generalizing console with
  | nil => rfl
  | cons event before ih => exact ih _

theorem Sound.run (h : console.Sound past) (events : List Event) :
    (console.run events).Sound (past ++ console.received events) := by
  induction events generalizing console past with
  | nil =>
    rw [received, List.append_nil]
    exact h
  | cons event events ih =>
    rw [received, ← List.append_assoc]
    exact ih (h.step event)

theorem sound_run (events : List Event) : (new.run events).Sound (new.received events) :=
  sound_new.run events

/-- Who is attached at the end of a run and was a client was attached all along. -/
theorem mem_subscribers_of_run (hknown : console.clients id ≠ none)
    (h : id ∈ (console.run events).subscribers) : id ∈ console.subscribers := by
  induction events generalizing console with
  | nil => exact h
  | cons event events ih =>
    have hstep := ih (clients_step_ne_none hknown event) h
    exact (mem_subscribers_of_step hstep).resolve_right hknown

theorem Sound.enqueued_run (h : console.Sound past) (hid : id ∈ console.subscribers)
    (hid' : id ∈ (console.run events).subscribers) :
    (console.run events).enqueued id = console.enqueued id ++ console.received events := by
  induction events generalizing console past with
  | nil => exact (List.append_nil _).symm
  | cons event events ih =>
    have hstep := mem_subscribers_of_run (clients_step_ne_none (h.known id hid) event) hid'
    rw [Console.run, ih (h.step event) hstep hid', h.enqueued_step hid hstep, received,
      List.append_assoc]

theorem clients_run_of_closed (hclosed : console.closed = true) (hnone : console.clients id = none)
    (events : List Event) : (console.run events).clients id = none := by
  induction events generalizing console with
  | nil => exact hnone
  | cons event events ih =>
    obtain ⟨hclosed', hnone'⟩ := step_of_closed hclosed hnone event
    exact ih hclosed' hnone'

/-- Who is still attached has been given the history at the attach, that is the last bytes of all
    that was received by then, and every byte after it. The history is always what was received
    last, and what waits for a client is within its limit. -/
theorem replay_gapless :
    (∀ before id after, (new.run before).clients id = none →
      id ∈ (new.run (before ++ .attach id :: after)).subscribers →
      (new.run (before ++ .attach id :: after)).enqueued id =
        (new.received before).rtake consoleHistoryBytes ++
          ((new.run before).step (.attach id)).received after) ∧
    (∀ events, (new.run events).history = (new.received events).rtake consoleHistoryBytes) ∧
    ∀ events id subscriber, (new.run events).clients id = some subscriber →
      subscriber.pending.length ≤ consoleClientQueueBytes := by
  refine ⟨fun before id after hnew hid => ?_, fun events => (sound_run events).history,
    fun events id subscriber hget => ?_⟩
  · have hsound := sound_run before
    rw [run_append, Console.run] at hid ⊢
    rcases hclosed : (new.run before).closed with _ | _
    · obtain ⟨subscriber, -, henqueued, heq⟩ := hsound.attach_eq hnew hclosed
      have hattached : id ∈ ((new.run before).step (.attach id)).subscribers := by
        rw [Console.step, heq]
        exact Finset.mem_insert_self _ _
      have hreplay : ((new.run before).step (.attach id)).enqueued id = (new.run before).history := by
        rw [Console.step, heq, enqueued]
        dsimp only
        rw [Function.update_self]
        exact henqueued
      rw [(hsound.step (.attach id)).enqueued_run hattached hid, hreplay, hsound.history]
    · -- A closed broker attaches nobody.
      rw [Console.step, attach_eq_self (.inr hclosed)] at hid
      exact absurd (clients_run_of_closed hclosed hnew after) ((hsound.run after).known id hid)
  · have haccounted := (sound_run events).accounted id subscriber hget
    exact haccounted.queuedBytes ▸ haccounted.bounded

/-- A client that comes between two chunks. -/
theorem replay_gapless_between :
    (new.run ([.fanOut [1]] ++ .attach 0 :: [.fanOut [2]])).enqueued 0 = [1, 2] :=
  replay_gapless.1 [.fanOut [1]] 0 [.fanOut [2]] (by decide) (by decide)

end Console

end Dnlab.Relay
