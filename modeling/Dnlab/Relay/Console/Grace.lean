import Dnlab.Relay.Console.Replay

/-!
# When a console is closed for want of clients

An open broker that the last client has left has a timer that is to close it
(`Graced`). An attach cancels the timer, but not one that has fired and waits for
the lock: that closes the broker all the same. Unless a client attaches at such a
moment, the timer closes a broker only when nobody is attached (`grace_safe`).
-/

namespace Dnlab.Relay.Console

open Function (update)

variable {console : Console} {event : Event} {past : Bytes} {timer : ℕ}

/-! ## Timers -/

theorem Timer.cancel_ne_waiting (timer : Timer) : timer.cancel ≠ .waiting := by
  rcases timer with _ | _ | _ | _ | _ <;> exact Timer.noConfusion

@[simp] theorem cancelTimer_graceTimer (console : Console) : console.cancelTimer.graceTimer = none := by
  rw [cancelTimer]
  split
  · assumption
  · rfl

@[simp] theorem cancelTimer_timerCount (console : Console) :
    console.cancelTimer.timerCount = console.timerCount := by
  rw [cancelTimer]
  split <;> rfl

theorem cancelTimer_timers (console : Console) (timer : ℕ) :
    console.cancelTimer.timers timer =
      if console.graceTimer = some timer then (console.timers timer).cancel
      else console.timers timer := by
  rw [cancelTimer]
  split
  · rename_i hnone
    rw [hnone, if_neg (by simp)]
  · rename_i timer' hsome
    dsimp only
    rw [hsome]
    by_cases heq : timer = timer'
    · rw [heq, Function.update_self, if_pos rfl]
    · rw [Function.update_of_ne heq, if_neg fun h => heq (Option.some.inj h).symm]

/-- The timer is to close the broker. -/
def Pending (console : Console) (timer : ℕ) : Prop :=
  console.timers timer = .waiting ∨ console.timers timer = .fired

/-- The timers of a broker: only the current one waits, and it is there when the last client has
    left. -/
structure Graced (console : Console) : Prop where
  unused : ∀ timer, console.timerCount ≤ timer → console.timers timer = .unused
  current : ∀ timer, console.graceTimer = some timer →
    console.Pending timer ∧ console.subscribers = ∅ ∧ console.closed = false
  waiting : ∀ timer, console.timers timer = .waiting → console.graceTimer = some timer
  left : console.closed = false → console.subscribers = ∅ → (∃ id, console.clients id ≠ none) →
    console.graceTimer ≠ none

theorem graced_new : new.Graced :=
  ⟨fun _ _ => rfl, fun _ h => absurd h.symm (Option.some_ne_none _), fun _ h => Timer.noConfusion h,
    fun _ _ ⟨_, h⟩ => absurd rfl h⟩

/-- Steps that leave the timers alone. -/
theorem Graced.of_eq {console' : Console} (h : console.Graced)
    (htimers : console'.timers = console.timers) (hcount : console'.timerCount = console.timerCount)
    (hgrace : console'.graceTimer = console.graceTimer) (hclosed : console'.closed = console.closed)
    (hsubscribers : console'.subscribers ⊆ console.subscribers)
    (hleft : console'.closed = false → console'.subscribers = ∅ →
      (∃ id, console'.clients id ≠ none) → console'.graceTimer ≠ none) : console'.Graced := by
  refine ⟨?_, fun timer htimer => ?_, ?_, hleft⟩
  · rw [htimers, hcount]
    exact h.unused
  · rw [hgrace] at htimer
    obtain ⟨hpending, hempty, hopen⟩ := h.current timer htimer
    rw [hempty] at hsubscribers
    rw [Pending, htimers, hclosed]
    exact ⟨hpending, Finset.subset_empty.1 hsubscribers, hopen⟩
  · rw [htimers, hgrace]
    exact h.waiting

/-- A timer is started for an open broker without clients. -/
theorem graced_startTimer (hunused : ∀ timer, console.timerCount ≤ timer → console.timers timer = .unused)
    (hwaiting : ∀ timer, console.timers timer ≠ .waiting) (hempty : console.subscribers = ∅)
    (hopen : console.closed = false) : console.startTimer.Graced := by
  refine ⟨fun timer htimer => ?_, fun timer htimer => ?_, fun timer htimer => ?_, fun _ _ _ => ?_⟩
  · have hle : console.timerCount + 1 ≤ timer := htimer
    rw [startTimer]
    dsimp only
    rw [Function.update_of_ne (by omega)]
    exact hunused timer (by omega)
  · obtain rfl : console.timerCount = timer := Option.some.inj htimer
    exact ⟨.inl (Function.update_self _ _ _), hempty, hopen⟩
  · rw [startTimer] at htimer
    dsimp only at htimer
    by_cases heq : timer = console.timerCount
    · rw [heq]
      rfl
    · rw [Function.update_of_ne heq] at htimer
      exact absurd htimer (hwaiting timer)
  · exact Option.some_ne_none _

theorem Graced.no_waiting (h : console.Graced) (hnone : console.graceTimer = none) (timer : ℕ) :
    console.timers timer ≠ .waiting := fun hwaiting =>
  absurd ((h.waiting timer hwaiting).symm.trans hnone) (Option.some_ne_none _)

/-- Once the timer is cancelled, none waits. -/
theorem Graced.cancelled (h : console.Graced) :
    (∀ timer, console.timerCount ≤ timer → console.cancelTimer.timers timer = .unused) ∧
      ∀ timer, console.cancelTimer.timers timer ≠ .waiting := by
  refine ⟨fun timer htimer => ?_, fun timer hwaiting => ?_⟩
  · rw [cancelTimer_timers, h.unused timer htimer]
    split_ifs <;> rfl
  · rw [cancelTimer_timers] at hwaiting
    split_ifs at hwaiting with hgrace
    · exact Timer.cancel_ne_waiting _ hwaiting
    · exact hgrace (h.waiting timer hwaiting)

theorem Graced.attach (h : console.Graced) (hsound : console.Sound past) (id : ℕ) :
    (console.attach id).Graced := by
  by_cases hnoop : console.clients id ≠ none ∨ console.closed = true
  · rw [attach_eq_self hnoop]
    exact h
  rw [not_or, not_not, Bool.not_eq_true] at hnoop
  obtain ⟨subscriber, -, -, heq⟩ := hsound.attach_eq hnoop.1 hnoop.2
  rw [heq]
  refine ⟨fun timer htimer => ?_, fun timer htimer => ?_, fun timer hwaiting => ?_,
    fun _ hempty => absurd hempty (Finset.insert_ne_empty _ _)⟩
  · exact h.cancelled.1 timer ((cancelTimer_timerCount console).symm.trans_le htimer)
  · exact absurd (htimer.symm.trans (cancelTimer_graceTimer console)) (Option.some_ne_none _)
  · exact absurd hwaiting (h.cancelled.2 timer)

theorem Graced.close (h : console.Graced) : console.close.Graced := by
  rw [Console.close]
  split_ifs
  · exact h
  · refine ⟨fun timer htimer => ?_, fun timer htimer => ?_, fun timer hwaiting => ?_,
      fun hopen => Bool.noConfusion hopen⟩
    · exact h.cancelled.1 timer ((cancelTimer_timerCount console).symm.trans_le htimer)
    · exact absurd (htimer.symm.trans (cancelTimer_graceTimer console)) (Option.some_ne_none _)
    · exact absurd hwaiting (h.cancelled.2 timer)

theorem Graced.onClient (h : console.Graced) (id : ℕ) (f : Subscriber → Subscriber) :
    (console.onClient id f).Graced := by
  refine h.of_eq rfl rfl rfl rfl (fun _ h => h) fun hopen hempty ⟨id', hid'⟩ => ?_
  refine h.left hopen hempty ⟨id', fun hnone => hid' ?_⟩
  rw [Console.onClient]
  by_cases heq : id' = id
  · subst heq
    dsimp only
    rw [Function.update_self, hnone]
    rfl
  · dsimp only
    rw [Function.update_of_ne heq, hnone]

theorem Graced.detach (h : console.Graced) (id : ℕ) : (console.detach id).Graced := by
  rw [Console.detach]
  split_ifs with hnone
  · exact h
  · dsimp only
    split_ifs with hkeep
    · refine h.of_eq rfl rfl rfl rfl (Finset.erase_subset _ _) fun hopen hempty _ => ?_
      rcases hkeep with hclosed | hsome | hgrace
      · exact absurd hclosed (by simpa using hopen)
      · exact absurd hempty hsome
      · exact hgrace
    · rw [not_or, not_or, Bool.not_eq_true, not_not, not_not] at hkeep
      exact graced_startTimer h.unused (h.no_waiting hkeep.2.2) hkeep.2.1 hkeep.1

theorem Graced.fanOut (h : console.Graced) (data : Bytes) : (console.fanOut data).Graced := by
  rw [Console.fanOut]
  split_ifs with hclosed
  · exact h
  · dsimp only
    rw [Bool.not_eq_true] at hclosed
    split_ifs with hstart
    · exact graced_startTimer h.unused (h.no_waiting hstart.2.2) hstart.2.1 hclosed
    · refine h.of_eq rfl rfl rfl rfl (Finset.filter_subset _ _) fun hopen hempty hhad => ?_
      obtain ⟨id, hid⟩ := hhad
      -- Either some client was slow, or nobody was attached before.
      by_cases hslow : console.subscribers.filter (fun id => console.accepts data id = false) = ∅
      · refine h.left hopen ?_ ⟨id, fun hnone => hid ?_⟩
        · refine Finset.eq_empty_iff_forall_notMem.2 fun id hid => ?_
          rcases haccepts : console.accepts data id with _ | _
          · exact absurd (Finset.mem_filter.2 ⟨hid, haccepts⟩) (hslow ▸ Finset.notMem_empty id)
          · exact absurd (Finset.mem_filter.2 ⟨hid, haccepts⟩) (hempty ▸ Finset.notMem_empty id)
        · dsimp only
          rw [hnone, Option.map_none, ite_self]
      · exact fun hgrace => hstart ⟨hslow, hempty, hgrace⟩

theorem Graced.expire (h : console.Graced) (timer : ℕ) : (console.expire timer).Graced := by
  rw [Console.expire]
  split_ifs with hwaiting
  · refine ⟨fun timer' htimer' => ?_, fun timer' htimer' => ?_, fun timer' htimer' => ?_, h.left⟩
    · dsimp only
      rw [Function.update_of_ne]
      · exact h.unused timer' htimer'
      · rintro rfl
        exact Timer.noConfusion (hwaiting.symm.trans (h.unused timer' htimer'))
    · obtain ⟨hpending, hempty, hopen⟩ := h.current timer' htimer'
      refine ⟨?_, hempty, hopen⟩
      rw [Pending]
      by_cases heq : timer' = timer
      · rw [heq]
        exact .inr (Function.update_self _ _ _)
      · dsimp only
        rw [Function.update_of_ne heq]
        exact hpending
    · dsimp only at htimer'
      by_cases heq : timer' = timer
      · rw [heq, Function.update_self] at htimer'
        exact Timer.noConfusion htimer'
      · rw [Function.update_of_ne heq] at htimer'
        exact h.waiting timer' htimer'
  · exact h

theorem closed_close (console : Console) : console.close.closed = true := by
  rw [Console.close]
  split_ifs with hclosed
  · exact hclosed
  · rfl

theorem Graced.timerClose (h : console.Graced) (timer : ℕ) : (console.timerClose timer).Graced := by
  rw [Console.timerClose]
  split_ifs with hfired
  · have hclose := h.close
    have hclosed := closed_close console
    refine ⟨fun timer' htimer' => ?_, fun timer' htimer' => ?_, fun timer' htimer' => ?_,
      fun hopen => absurd (hclosed.symm.trans hopen) (by simp)⟩
    · dsimp only
      by_cases heq : timer' = timer
      · -- A timer that has fired was started.
        have hlt : timer < console.timerCount := by
          by_contra hle
          exact Timer.noConfusion (hfired.symm.trans (h.unused timer (not_lt.1 hle)))
        have hcount : console.close.timerCount = console.timerCount := by
          rw [Console.close]
          split_ifs
          · rfl
          · exact cancelTimer_timerCount console
        have hle : console.close.timerCount ≤ timer' := htimer'
        omega
      · rw [Function.update_of_ne heq]
        exact hclose.unused timer' htimer'
    · exact absurd (hclosed.symm.trans (hclose.current timer' htimer').2.2) (by simp)
    · dsimp only at htimer'
      by_cases heq : timer' = timer
      · rw [heq, Function.update_self] at htimer'
        exact Timer.noConfusion htimer'
      · rw [Function.update_of_ne heq] at htimer'
        exact hclose.waiting timer' htimer'
  · exact h

theorem Graced.step (h : console.Graced) (hsound : console.Sound past) (event : Event) :
    (console.step event).Graced := by
  rcases event with id | id | id | id | ⟨id, succeeds⟩ | data | timer | timer | _
  case attach => exact h.attach hsound id
  case closeSubscriber => exact h.onClient id _
  case detach => exact h.detach id
  case take => exact h.onClient id _
  case send => exact h.onClient id _
  case fanOut => exact h.fanOut data
  case expire => exact h.expire timer
  case timerClose => exact h.timerClose timer
  case close => exact h.close

theorem Graced.run (h : console.Graced) (hsound : console.Sound past) (events : List Event) :
    (console.run events).Graced := by
  induction events generalizing console past with
  | nil => exact h
  | cons event events ih => exact ih (h.step hsound event) (hsound.step event)

/-! ## Attaches at the wrong moment -/

/-- No client attaches to an open broker while a timer that has fired waits for the lock. -/
def Guarded (console : Console) : Event → Prop
  | .attach _ => console.closed = true ∨ ∀ timer, console.timers timer ≠ .fired
  | _ => True

def GuardedRun : Console → List Event → Prop
  | _, [] => True
  | console, event :: events => console.Guarded event ∧ GuardedRun (console.step event) events

/-- A timer that has fired is the current one, unless the broker is closed. -/
def Unwatched (console : Console) : Prop :=
  ∀ timer, console.timers timer = .fired → console.closed = true ∨ console.graceTimer = some timer

theorem Unwatched.of_eq {console' : Console} (h : console.Unwatched)
    (htimers : console'.timers = console.timers) (hgrace : console'.graceTimer = console.graceTimer)
    (hclosed : console'.closed = console.closed) : console'.Unwatched := by
  intro timer hfired
  rw [htimers] at hfired
  rw [hclosed, hgrace]
  exact h timer hfired

/-- Without a current timer, none has fired. -/
theorem Unwatched.startTimer (h : console.Unwatched) (hopen : console.closed = false)
    (hnone : console.graceTimer = none) : console.startTimer.Unwatched := by
  intro timer hfired
  rw [Console.startTimer] at hfired
  dsimp only at hfired
  by_cases heq : timer = console.timerCount
  · rw [heq, Function.update_self] at hfired
    exact Timer.noConfusion hfired
  · rw [Function.update_of_ne heq] at hfired
    rcases h timer hfired with hclosed | hgrace
    · exact absurd (hclosed.symm.trans hopen) (by simp)
    · exact absurd (hgrace.symm.trans hnone) (Option.some_ne_none _)

theorem unwatched_of_closed (hclosed : console.closed = true) : console.Unwatched :=
  fun _ _ => .inl hclosed

theorem Unwatched.step (h : console.Unwatched) (hgraced : console.Graced) (hsound : console.Sound past)
    (hguarded : console.Guarded event) : (console.step event).Unwatched := by
  rcases event with id | id | id | id | ⟨id, succeeds⟩ | data | timer | timer | _
  case attach =>
    by_cases hnoop : console.clients id ≠ none ∨ console.closed = true
    · rw [Console.step, attach_eq_self hnoop]
      exact h
    rw [not_or, not_not, Bool.not_eq_true] at hnoop
    obtain ⟨subscriber, -, -, heq⟩ := hsound.attach_eq hnoop.1 hnoop.2
    -- No timer has fired, and cancelling one does not make it.
    have hnone := hguarded.resolve_left (by simp [hnoop.2])
    intro timer hfired
    rw [Console.step, heq] at hfired
    dsimp only at hfired
    rw [cancelTimer_timers] at hfired
    split_ifs at hfired with hgrace
    · rcases (hgraced.current timer hgrace).1 with hwaiting | hpending
      · rw [hwaiting] at hfired
        exact Timer.noConfusion hfired
      · exact absurd hpending (hnone timer)
    · exact absurd hfired (hnone timer)
  case closeSubscriber => exact h.of_eq rfl rfl rfl
  case take => exact h.of_eq rfl rfl rfl
  case send => exact h.of_eq rfl rfl rfl
  case detach =>
    rw [Console.step, Console.detach]
    split_ifs with hnone
    · exact h
    · dsimp only
      split_ifs with hkeep
      · exact h.of_eq rfl rfl rfl
      · rw [not_or, not_or, Bool.not_eq_true, not_not, not_not] at hkeep
        refine Unwatched.startTimer ?_ hkeep.1 hkeep.2.2
        exact h.of_eq rfl rfl rfl
  case fanOut =>
    rw [Console.step, Console.fanOut]
    split_ifs with hclosed
    · exact h
    · dsimp only
      rw [Bool.not_eq_true] at hclosed
      split_ifs with hstart
      · refine Unwatched.startTimer ?_ hclosed hstart.2.2
        exact h.of_eq rfl rfl rfl
      · exact h.of_eq rfl rfl rfl
  case expire =>
    rw [Console.step, Console.expire]
    split_ifs with hwaiting
    · intro timer' hfired
      dsimp only at hfired
      by_cases heq : timer' = timer
      · exact .inr (heq ▸ hgraced.waiting timer hwaiting)
      · rw [Function.update_of_ne heq] at hfired
        exact h timer' hfired
    · exact h
  case timerClose =>
    rw [Console.step, Console.timerClose]
    split_ifs with hfired
    · exact unwatched_of_closed (closed_close console)
    · exact h
  case close => exact unwatched_of_closed (closed_close console)

theorem Unwatched.run {events : List Event} (h : console.Unwatched) (hgraced : console.Graced)
    (hsound : console.Sound past) (hguarded : GuardedRun console events) :
    (console.run events).Unwatched := by
  induction events generalizing console past with
  | nil => exact h
  | cons event events ih =>
    exact ih (h.step hgraced hsound hguarded.1) (hgraced.step hsound event) (hsound.step event)
      hguarded.2

/-- An open broker that the last client has left has a timer that is to close it; and unless clients
    attach while a timer that has fired waits for the lock, a timer closes an open broker only when
    nobody is attached. -/
theorem grace_safe {events : List Event} (hguarded : GuardedRun new events) :
    (∀ timer, (new.run events).closed = false →
      ((new.run events).step (.timerClose timer)).closed = true →
        (new.run events).subscribers = ∅) ∧
    ((new.run events).closed = false → (new.run events).subscribers = ∅ →
      (∃ id, (new.run events).clients id ≠ none) →
        ∃ timer, (new.run events).graceTimer = some timer ∧ (new.run events).Pending timer) := by
  have hgraced := graced_new.run sound_new events
  have hunwatched : (new.run events).Unwatched :=
    Unwatched.run (fun _ h => Timer.noConfusion h) graced_new sound_new hguarded
  refine ⟨fun timer hopen hcloses => ?_, fun hopen hempty hleft => ?_⟩
  · rw [Console.step, timerClose] at hcloses
    split_ifs at hcloses with hfired
    · rcases hunwatched timer hfired with hclosed | hgrace
      · exact absurd (hclosed.symm.trans hopen) (by simp)
      · exact (hgraced.current timer hgrace).2.1
    · exact absurd (hcloses.symm.trans hopen) (by simp)
  · obtain ⟨timer, hgrace⟩ := Option.ne_none_iff_exists'.1 (hgraced.left hopen hempty hleft)
    exact ⟨timer, hgrace, (hgraced.current timer hgrace).1⟩

/-- A client that leaves, and the timer that runs out. -/
def leaves : List Event := [.attach 0, .closeSubscriber 0, .detach 0, .expire 0]

theorem grace_safe_leaves :
    ((new.run leaves).step (.timerClose 0)).closed = true ∧ (new.run leaves).subscribers = ∅ := by
  have hguarded : GuardedRun new leaves := by
    rw [leaves, GuardedRun]
    exact ⟨.inr fun _ h => Timer.noConfusion h, trivial, trivial, trivial, trivial⟩
  have hcloses : ((new.run leaves).step (.timerClose 0)).closed = true := by decide
  exact ⟨hcloses, (grace_safe hguarded).1 0 (by decide) hcloses⟩

/-- A client that attaches while the timer waits for the lock is cut off. -/
theorem closed_while_watched :
    (new.run (leaves ++ [.attach 1])).closed = false ∧
      (new.run (leaves ++ [.attach 1])).subscribers = {1} ∧
        ((new.run (leaves ++ [.attach 1])).step (.timerClose 0)).closed = true := by
  decide

end Dnlab.Relay.Console
