import Dnlab.Lib.Machine
import Dnlab.Services.FollowRabbit

/-!
# The life of a session

A stop sets the status of its session whatever it was: a session that is done
becomes one that was stopped, and is reported once more (`not_lifecycle_late`). If
only sessions that run, with their tasks registered, are stopped, and the task that
waits finds the others registered, every session ends once, in one way, and leaves
no probe behind (`lifecycle_run`).
-/

namespace Dnlab.FollowRabbit

/-! ## One session -/

namespace Session

variable {session : Session}

/-- A session leaves `running` once, which is reported once, and without probes that go on. -/
structure Lifecycle (session : Session) : Prop where
  once : session.statuses = if session.status = .running then [] else [session.status]
  reported : session.doneEvents ≤ 1 ∧ (session.returned = true → session.doneEvents = 1)
  quiet : session.status ≠ .running → session.returned = true → session.probes = ∅

/-- What a session is like before and after it has ended. -/
structure Sound (session : Session) : Prop where
  registered : session.tasks = true → session.starting = .registered
  waiting : ∀ tasks, session.finish = .waiting tasks → tasks = true ∧ session.starting = .registered
  running : session.status = .running →
    session.statuses = [] ∧ session.stops = [] ∧ session.doneEvents = 0 ∧ session.returned = false
  ended : session.status ≠ .running →
    session.statuses = [session.status] ∧ session.starting = .registered ∧ session.tasks = false ∧
      session.finish = .over
  /-- The call that ended it has yet to return, or everything is over. -/
  returned : session.status ≠ .running →
    (session.stops = [⟨true, true, true⟩] ∧ session.doneEvents = 0 ∧ session.returned = false) ∨
      (session.stops = [] ∧ session.doneEvents = 1 ∧ session.returned = true ∧ session.probes = ∅)

theorem Sound.lifecycle (h : session.Sound) : session.Lifecycle := by
  by_cases hrunning : session.status = .running
  · obtain ⟨hstatuses, -, hdone, hreturned⟩ := h.running hrunning
    refine ⟨by rw [hstatuses, if_pos hrunning], ⟨by omega, fun hret => ?_⟩, fun hne => absurd hrunning hne⟩
    exact Bool.noConfusion (hreturned.symm.trans hret)
  · refine ⟨by rw [(h.ended hrunning).1, if_neg hrunning], ?_, fun _ hret => ?_⟩
    · rcases h.returned hrunning with ⟨-, hdone, hreturned⟩ | ⟨-, hdone, -⟩
      · exact ⟨by omega, fun hret => Bool.noConfusion (hreturned.symm.trans hret)⟩
      · exact ⟨hdone.le, fun _ => hdone⟩
    · rcases h.returned hrunning with ⟨-, -, hreturned⟩ | ⟨-, -, -, hprobes⟩
      · exact Bool.noConfusion (hreturned.symm.trans hret)
      · exact hprobes

theorem sound_new (points : ℕ) : (new points).Sound where
  registered h := Bool.noConfusion h
  waiting _ h := Finish.noConfusion h
  running _ := ⟨rfl, rfl, rfl, rfl⟩
  ended h := absurd rfl h
  returned h := absurd rfl h

/-- A session that is not registered has not ended. -/
theorem Sound.running_of_starting (h : session.Sound) (hstarting : session.starting ≠ .registered) :
    session.status = .running :=
  by_contra fun hne => hstarting (h.ended hne).2.1

theorem Sound.create (h : session.Sound) : session.create.Sound := by
  rw [Session.create]
  split_ifs with hvisible
  · have hne : session.starting ≠ .registered := by rw [hvisible]; exact nofun
    have hrunning := h.running_of_starting hne
    exact ⟨fun htasks => absurd (h.registered htasks) hne, fun _ hwait => Finish.noConfusion hwait,
      h.running, fun hnot => absurd hrunning hnot, fun hnot => absurd hrunning hnot⟩
  · exact h

theorem Sound.register (h : session.Sound) : session.register.Sound := by
  rw [Session.register]
  split_ifs with hcreated
  · have hrunning := h.running_of_starting (by rw [hcreated]; exact nofun)
    exact ⟨fun _ => rfl, fun tasks hwait => ⟨(h.waiting tasks hwait).1, rfl⟩, h.running,
      fun hnot => absurd hrunning hnot, fun hnot => absurd hrunning hnot⟩
  · exact h

theorem Sound.probeEnds (h : session.Sound) (probe : ℕ) : (session.probeEnds probe).Sound where
  registered := h.registered
  waiting := h.waiting
  running := h.running
  ended := h.ended
  returned hne := by
    refine (h.returned hne).imp_right fun ⟨hstops, hdone, hreturned, hprobes⟩ => ⟨hstops, hdone, hreturned, ?_⟩
    rw [Session.probeEnds]
    dsimp only
    rw [hprobes, Finset.erase_empty]

/-- A session that runs with its tasks is stopped. -/
theorem Sound.stopBegin (h : session.Sound) (hrunning : session.status = .running)
    (htasks : session.tasks = true) : (session.stopBegin true).Sound := by
  obtain ⟨hstatuses, hstops, hdone, hreturned⟩ := h.running hrunning
  have hfinish : (session.stopBegin true).finish = .over := if_pos htasks
  refine ⟨fun hnot => Bool.noConfusion hnot, fun tasks hwait => ?_, fun hrun => Status.noConfusion hrun,
    fun _ => ⟨?_, h.registered htasks, rfl, hfinish⟩, fun _ => .inl ⟨?_, hdone, hreturned⟩⟩
  · exact Finish.noConfusion (hfinish.symm.trans hwait)
  · rw [Session.stopBegin, setStatus]
    dsimp only
    rw [hstatuses]
    rfl
  · rw [Session.stopBegin]
    dsimp only
    rw [hstops, htasks, hrunning]
    rfl

theorem Sound.stopEnd (h : session.Sound) (stop : Stop) : (session.stopEnd stop).Sound := by
  by_cases hstop : stop ∈ session.stops ∧ (stop.tasks → session.probes = ∅)
  swap
  · rw [Session.stopEnd, if_neg hstop]
    exact h
  rw [Session.stopEnd, if_pos hstop]
  obtain ⟨hmem, hprobes⟩ := hstop
  have hne : session.status ≠ .running := fun hrunning => by
    rw [(h.running hrunning).2.1] at hmem
    exact List.not_mem_nil hmem
  rcases h.returned hne with ⟨hstops, hdone, -⟩ | ⟨hstops, -⟩
  · -- it is the call that ended the session
    rw [hstops] at hmem
    obtain rfl := List.mem_singleton.1 hmem
    refine ⟨h.registered, h.waiting, fun hrunning => absurd hrunning hne, h.ended, fun _ => .inr ?_⟩
    dsimp only
    rw [hstops, hdone]
    exact ⟨rfl, rfl, Bool.or_true _, hprobes rfl⟩
  · rw [hstops] at hmem
    exact absurd hmem List.not_mem_nil

theorem Sound.finishBegin (h : session.Sound)
    (htasks : session.finish = .begun → session.status = .running → session.tasks = true) :
    session.finishBegin.Sound := by
  rw [Session.finishBegin]
  split
  swap
  · exact h
  rename_i hbegun
  split_ifs with hstatus
  · have hover := (h.ended hstatus).2.2.2
    exact Finish.noConfusion (hbegun.symm.trans hover)
  · rw [not_not] at hstatus
    have hregistered := htasks hbegun hstatus
    refine ⟨h.registered, fun tasks hwait => ?_, h.running, fun hne => absurd hstatus hne,
      fun hne => absurd hstatus hne⟩
    rw [← Finish.waiting.inj hwait]
    exact ⟨hregistered, h.registered hregistered⟩

theorem Sound.finishEnd (h : session.Sound) : session.finishEnd.Sound := by
  rw [Session.finishEnd]
  split
  swap
  · exact h
  rename_i tasks hwaiting
  obtain ⟨rfl, hregistered⟩ := h.waiting tasks hwaiting
  split_ifs with hprobes hstatus
  · exact h
  · exact Finish.noConfusion (hwaiting.symm.trans (h.ended hstatus).2.2.2)
  · rw [not_not] at hstatus
    obtain ⟨hstatuses, hstops, hdone, hreturned⟩ := h.running hstatus
    refine ⟨fun hnot => Bool.noConfusion hnot, fun _ hwait => Finish.noConfusion hwait,
      fun hrun => Status.noConfusion hrun, fun _ => ⟨?_, hregistered, rfl, rfl⟩,
      fun _ => .inr ⟨hstops, ?_, rfl, ?_⟩⟩
    · rw [setStatus]
      dsimp only
      rw [hstatuses]
      rfl
    · dsimp only
      rw [hdone]
    · exact by_contra fun hne => hprobes ⟨rfl, hne⟩

/-! What a step does to the status, of whatever session. -/

@[simp] theorem status_create : session.create.status = session.status := by
  rw [Session.create]
  split_ifs <;> rfl

@[simp] theorem status_register : session.register.status = session.status := by
  rw [Session.register]
  split_ifs <;> rfl

@[simp] theorem status_stopEnd (stop : Stop) : (session.stopEnd stop).status = session.status := by
  by_cases hstop : stop ∈ session.stops ∧ (stop.tasks → session.probes = ∅)
  · rw [Session.stopEnd, if_pos hstop]
  · rw [Session.stopEnd, if_neg hstop]

@[simp] theorem status_finishBegin : session.finishBegin.status = session.status := by
  rw [Session.finishBegin]
  split
  · split_ifs <;> rfl
  · rfl

theorem running_of_finishEnd (h : session.finishEnd.status = .running) : session.status = .running := by
  rw [Session.finishEnd] at h
  split at h
  · split_ifs at h
    · exact h
    · exact h
    · exact Status.noConfusion h
  · exact h

end Session

/-! ## All sessions -/

namespace Manager

variable {manager : Manager}

/-- There are not too many sessions that run, and each one lives as it should. -/
def Lifecycle (manager : Manager) : Prop :=
  manager.running.length ≤ manager.maxSessions ∧
    ∀ id < manager.count, (manager.sessions id).Lifecycle

/-- Of the sessions that there are, only one that runs and has its tasks registered is stopped, and
    with an `emit`; the task that waits looks for the others when they are registered, or the session
    has ended. -/
def Guarded (manager : Manager) : Event → Prop
  | .stopBegin id emit => id < manager.count →
      emit = true ∧ (manager.sessions id).status = .running ∧ (manager.sessions id).tasks = true
  | .finishBegin id => (manager.sessions id).status = .running → (manager.sessions id).tasks = true
  | _ => True

instance (manager : Manager) (event : Event) : Decidable (manager.Guarded event) := by
  cases event <;> unfold Guarded <;> infer_instance

structure Sound (manager : Manager) : Prop where
  running : manager.running.length ≤ manager.maxSessions
  sessions : ∀ id < manager.count, (manager.sessions id).Sound

theorem sound_new (maxSessions : ℕ) : (new maxSessions).Sound :=
  ⟨Nat.zero_le _, fun _ h => absurd h (Nat.not_lt_zero _)⟩

theorem Sound.insert (h : manager.Sound) (points : ℕ) : (manager.insert points).Sound := by
  rw [Manager.insert]
  split_ifs with hfull
  · exact h
  rw [not_le] at hfull
  refine ⟨?_, fun id hid => ?_⟩
  · rw [Manager.running]
    dsimp only
    rw [List.range_succ, List.filter_append, List.length_append]
    have hothers : (List.range manager.count).filter (fun id =>
        (Function.update manager.sessions manager.count (Session.new points) id).status = .running) =
        manager.running := List.filter_congr fun id hid => by
      rw [Function.update_of_ne (List.mem_range.1 hid).ne]
    rw [hothers]
    exact (Nat.add_le_add_left (List.length_filter_le _ _) _).trans hfull
  · by_cases heq : id = manager.count
    · subst heq
      dsimp only
      rw [Function.update_self]
      exact Session.sound_new points
    · have hlt : id < manager.count + 1 := hid
      dsimp only
      rw [Function.update_of_ne heq]
      exact h.sessions id (by omega)

/-- No session begins to run again. -/
theorem Sound.onSession (h : manager.Sound) (id : ℕ) (f : Session → Session)
    (hf : (manager.sessions id).Sound → (f (manager.sessions id)).Sound)
    (hstatus : (f (manager.sessions id)).status = .running → (manager.sessions id).status = .running) :
    (manager.onSession id f).Sound := by
  rw [Manager.onSession]
  split_ifs with hid
  swap
  · exact h
  refine ⟨le_trans (List.Sublist.length_le (List.monotone_filter_right _ fun id' hid' => ?_)) h.running,
    fun id' hid' => ?_⟩
  · -- No session runs that did not.
    rw [decide_eq_true_eq] at hid' ⊢
    by_cases heq : id' = id
    · subst heq
      dsimp only at hid'
      rw [Function.update_self] at hid'
      exact hstatus hid'
    · dsimp only at hid'
      rwa [Function.update_of_ne heq] at hid'
  · by_cases heq : id' = id
    · subst heq
      dsimp only
      rw [Function.update_self]
      exact hf (h.sessions id' hid)
    · dsimp only
      rw [Function.update_of_ne heq]
      exact h.sessions id' hid'

/-! ## Runs -/

theorem Sound.step (h : manager.Sound) {event : Event} (hguard : manager.Guarded event) :
    (manager.step event).Sound := by
  rcases event with points | id | id | ⟨id, probe⟩ | ⟨id, emit⟩ | ⟨id, stop⟩ | id | id
  case insert => exact h.insert points
  case create =>
    exact h.onSession id Session.create (·.create) (Session.status_create.symm.trans ·)
  case register =>
    exact h.onSession id Session.register (·.register) (Session.status_register.symm.trans ·)
  case probeEnds => exact h.onSession id (·.probeEnds probe) (·.probeEnds probe) fun hrunning => hrunning
  case stopBegin =>
    by_cases hid : id < manager.count
    · obtain ⟨rfl, hrunning, htasks⟩ := hguard hid
      exact h.onSession id (·.stopBegin true) (·.stopBegin hrunning htasks) fun _ => hrunning
    · -- There is no such session, and the request is refused.
      rw [Manager.step, Manager.onSession, if_neg hid]
      exact h
  case stopEnd =>
    exact h.onSession id (·.stopEnd stop) (·.stopEnd stop) ((Session.status_stopEnd stop).symm.trans ·)
  case finishBegin =>
    exact h.onSession id Session.finishBegin (·.finishBegin fun _ => hguard)
      (Session.status_finishBegin.symm.trans ·)
  case finishEnd => exact h.onSession id Session.finishEnd (·.finishEnd) Session.running_of_finishEnd

/-- While sessions are only stopped when they run, with their tasks registered, there are not too
    many of them, and each one lives as it should. -/
theorem lifecycle_run (maxSessions : ℕ) {events : List Event}
    (h : Machine.GuardedRun step Guarded (new maxSessions) events) :
    (Machine.run step (new maxSessions) events).Lifecycle := by
  have hsound := h.invariant (sound_new maxSessions) fun _ _ hsound hguard => hsound.step hguard
  exact ⟨hsound.running, fun id hid => (hsound.sessions id hid).lifecycle⟩

/-- A session whose probes find nothing, and that is done. -/
def oneSession : List Event :=
  [.insert 1, .create 0, .register 0, .finishBegin 0, .probeEnds 0 0, .probeEnds 0 1, .finishEnd 0]

/-- One that is stopped, after one that there is not. -/
def stopped : List Event :=
  [.stopBegin 1 true, .insert 1, .create 1, .register 1, .finishBegin 1, .stopBegin 1 true, .probeEnds 1 0, .probeEnds 1 1,
    .stopEnd 1 ⟨true, true, true⟩]

theorem lifecycle_stopped : (Machine.run step (new 1) (oneSession ++ stopped)).Lifecycle :=
  lifecycle_run 1 (by decide)

/-- A stop of a session that is done. -/
def late : List Event := oneSession ++ [.stopBegin 0 true, .stopEnd 0 ⟨false, true, false⟩]

theorem not_lifecycle_late : ¬(Machine.run step (new 1) late).Lifecycle := by
  intro h
  have hdone := (h.2 0 (by decide)).reported.1
  revert hdone
  decide

end Manager

end Dnlab.FollowRabbit
