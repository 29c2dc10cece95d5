import Dnlab.ImageBuild.Logs

/-!
# What a subscriber is sent

In every run of a job and a subscriber, the lines that were sent are those that had been
written when the subscriber last looked, as long as these were not more than the limit or
it looked only once; otherwise they are fewer (`Streamed`). So the log is complete just
when the subscriber looked after the last line, and the limit was not passed in between
(`log_complete_iff`).
-/

namespace Dnlab.ImageBuild

open Machine (run)

namespace Subscribed

/-- The subscriber saw all lines when it last looked. -/
def Saw (s : Subscribed) : Prop := s.last ≤ logLimit ∨ s.first = s.last

/-- What holds in every state of a job and a subscriber. -/
structure Streamed (s : Subscribed) : Prop where
  sent : s.sent = min s.last logLimit
  first_le : s.first ≤ s.last
  last_le : s.last ≤ s.job.file.length
  kept : s.Saw → s.received = (s.job.file.take s.last).drop (s.first - logLimit)
  lost : ¬s.Saw → s.received.length < s.last - (s.first - logLimit)
  ended : s.phase = .ended → s.job.status.isFinal

variable {s : Subscribed}

theorem streamed_start (job : LoggedJob) : Streamed (start job) where
  sent := rfl
  first_le := Nat.le_refl _
  last_le := Nat.zero_le _
  kept _ := by
    rw [show (start job).last = 0 from rfl, List.take_zero, List.drop_nil]
    rfl
  lost h := absurd (.inl (Nat.zero_le _)) h
  ended h := by cases h

/-- What the job does is not seen before the subscriber looks again. -/
theorem Streamed.job (h : Streamed s) (e : JobEvent) : Streamed (s.step (.job e)) := by
  obtain ⟨new, hnew⟩ := s.job.exists_file_step e
  have hfile : (s.step (.job e)).job.file = s.job.file ++ new := hnew
  refine ⟨h.sent, h.first_le, ?_, fun hsaw => ?_, h.lost, fun hended => ?_⟩
  · rw [hfile, List.length_append]
    exact Nat.le_add_right_of_le h.last_le
  · rw [hfile]
    exact (h.kept hsaw).trans (by rw [← List.take_append_of_le_length h.last_le]; rfl)
  · have hfinal := h.ended hended
    show (s.job.step e).status.isFinal
    rwa [s.job.step_of_isFinal e hfinal]

theorem Streamed.length_le (h : Streamed s) :
    s.received.length ≤ s.last - (s.first - logLimit) := by
  by_cases hsaw : s.Saw
  · rw [h.kept hsaw, List.length_drop, List.length_take, min_eq_left h.last_le]
  · exact (h.lost hsaw).le

/-- The lines that are new since the last time are sent, if they are still kept. -/
theorem drop_log (h : Streamed s) : s.job.log.drop s.sent =
    s.job.file.drop (s.job.file.length - logLimit + min s.last logLimit) := by
  rw [s.job.log_eq, lastLines, List.drop_drop, h.sent]

/-- The state after the subscriber has looked. -/
def looked (s : Subscribed) : Subscribed :=
  { s with
    phase := .sending
    sent := s.job.log.length
    messages := s.messages ++ [⟨s.job.status, s.job.log.drop s.sent, s.job.returncode⟩]
    polls := s.polls ++ [s.job.file.length] }

theorem last_looked (s : Subscribed) : s.looked.last = s.job.file.length :=
  List.getLastD_concat ..

theorem first_looked (s : Subscribed) :
    s.looked.first = if s.polls = [] then s.job.file.length else s.first := by
  rw [looked, first, first]
  rcases s.polls with _ | ⟨n, polls⟩ <;> rfl

theorem Streamed.received_looked (h : Streamed s) : s.looked.received =
    s.received ++ s.job.file.drop (s.job.file.length - logLimit + min s.last logLimit) := by
  rw [← drop_log h]
  simp only [looked, received, List.flatMap_append, List.flatMap_cons, List.flatMap_nil,
    List.append_nil]

theorem Streamed.kept_looked (h : Streamed s) (hsaw : s.looked.Saw) :
    s.looked.received =
      (s.job.file.take s.looked.last).drop (s.looked.first - logLimit) := by
  have hfirst := h.first_le
  have hlast := h.last_le
  rw [Saw, last_looked, first_looked] at hsaw
  rw [h.received_looked, last_looked, first_looked, List.take_length]
  by_cases hpolls : s.polls = []
  · -- It looks for the first time.
    have hzero : s.last = 0 := by rw [last, hpolls]; rfl
    rw [h.kept (.inl (hzero ▸ Nat.zero_le _)), if_pos hpolls, hzero, List.take_zero, List.drop_nil,
      Nat.zero_min, Nat.add_zero, List.nil_append]
  · rw [if_neg hpolls] at hsaw ⊢
    rcases hsaw with hlimit | hsame
    · rw [h.kept (.inl (hlast.trans hlimit)), Nat.sub_eq_zero_of_le (by omega),
        Nat.sub_eq_zero_of_le hlimit, min_eq_left (hlast.trans hlimit), List.drop_zero, Nat.zero_add,
        List.take_append_drop, List.drop_zero]
    · -- Nothing was written since.
      have hsame' : s.last = s.job.file.length := by omega
      have hnone : s.job.file.drop (s.job.file.length - logLimit + min s.last logLimit) = [] :=
        List.drop_of_length_le (by omega)
      rw [h.kept (.inr (by omega)), hnone, List.append_nil, hsame', List.take_length]

theorem Streamed.lost_looked (h : Streamed s) (hsaw : ¬s.looked.Saw) :
    s.looked.received.length < s.looked.last - (s.looked.first - logLimit) := by
  have hfirst := h.first_le
  have hlast := h.last_le
  have hle := h.length_le
  rw [Saw, last_looked, first_looked, not_or, Nat.not_le] at hsaw
  obtain ⟨hlimit, hnot⟩ := hsaw
  have hpolls : s.polls ≠ [] := fun hpolls => hnot (if_pos hpolls)
  rw [if_neg hpolls] at hnot
  rw [h.received_looked, last_looked, first_looked, if_neg hpolls, List.length_append,
    List.length_drop]
  rcases Nat.lt_or_ge s.last s.job.file.length with hnew | hnew
  · omega
  · -- Nothing was written since, but something had been lost before.
    have hlost := h.lost (by rw [Saw, not_or]; omega)
    omega

theorem Streamed.poll (h : Streamed s) : Streamed (s.step .poll) := by
  by_cases hphase : s.phase = .waiting
  · have hstep : s.step .poll = s.looked := if_pos hphase
    have hfirst := h.first_le
    have hlast := h.last_le
    rw [hstep]
    refine ⟨?_, ?_, ?_, h.kept_looked, h.lost_looked, fun hended => by cases hended⟩
    · rw [last_looked, ← length_lastLines, ← s.job.log_eq]
      rfl
    · rw [last_looked, first_looked]
      split <;> omega
    · rw [last_looked]
      exact Nat.le_refl _
  · have hstep : s.step .poll = s := if_neg hphase
    rwa [hstep]

theorem Streamed.check (h : Streamed s) : Streamed (s.step .check) := by
  by_cases hphase : s.phase = .sending
  · have hstep : s.step .check =
        { s with phase := if s.job.status.isFinal then .ended else .waiting } := if_pos hphase
    rw [hstep]
    refine ⟨h.sent, h.first_le, h.last_le, h.kept, h.lost, fun hended => ?_⟩
    by_contra hfinal
    rw [if_neg hfinal] at hended
    cases hended
  · have hstep : s.step .check = s := if_neg hphase
    rwa [hstep]

theorem Streamed.step (h : Streamed s) (e : LogEvent) : Streamed (s.step e) := by
  rcases e with e | _ | _
  · exact h.job e
  · exact h.poll
  · exact h.check

theorem streamed_run (job : LoggedJob) (es : List LogEvent) : Streamed (run step (start job) es) := by
  have hrun : ∀ s, Streamed s → Streamed (run step s es) := by
    induction es with
    | nil => exact fun s hs => hs
    | cons e es ih => exact fun s hs => ih _ (hs.step e)
  exact hrun _ (streamed_start job)

/-! ## Results -/

theorem Streamed.complete_iff_inTime (h : Streamed s) : s.Complete ↔ s.InTime := by
  have hfirst := h.first_le
  have hlast := h.last_le
  have hle := h.length_le
  constructor
  · intro hcomplete
    have hlength := congrArg List.length hcomplete
    rw [List.length_drop] at hlength
    have hsaw : s.Saw := by
      by_contra hsaw
      have hlost := h.lost hsaw
      omega
    -- As many lines were sent as the subscriber saw.
    have hall : s.last = s.job.file.length := by
      rw [Saw] at hsaw
      omega
    refine ⟨hall, ?_⟩
    rwa [Saw, hall] at hsaw
  · rintro ⟨hall, hsaw⟩
    rw [← hall] at hsaw
    rw [Complete, h.kept hsaw, hall, List.take_length]

/-- When the loop has ended, nothing happens any more. -/
theorem Streamed.step_of_ended (h : Streamed s) (hended : s.phase = .ended) (e : LogEvent) :
    s.step e = s := by
  rcases e with e | _ | _
  · show { s with job := s.job.step e } = s
    rw [s.job.step_of_isFinal e (h.ended hended)]
  · exact if_neg (by rw [hended]; decide)
  · exact if_neg (by rw [hended]; decide)

/-- At the end of the loop of a subscriber, the log was sent in full just when no line was written
    after it last looked, and all lines were within the limit or written before it first looked. -/
theorem log_complete_iff (job : LoggedJob) (es : List LogEvent)
    (hended : (run step (start job) es).phase = .ended) :
    ((run step (start job) es).Complete ↔ (run step (start job) es).InTime) ∧
      ∀ more, run step (start job) (es ++ more) = run step (start job) es := by
  have h := streamed_run job es
  refine ⟨h.complete_iff_inTime, fun more => ?_⟩
  rw [Machine.run_append]
  generalize run step (start job) es = s at h hended
  induction more with
  | nil => rfl
  | cons e more ih => rw [run, h.step_of_ended hended, ih]

/-- A build with lines before the subscriber first looks and between two looks. -/
def promptRun : List LogEvent :=
  [.job (.start ["python", "build_image.py", "linux"]), .poll, .check, .job (.line "pulling"),
    .job (.line "building"), .poll, .check, .job (.line "done"), .job (.exit 0), .poll, .check]

theorem log_complete_prompt : (run step (start .created) promptRun).phase = .ended ∧
    (run step (start .created) promptRun).polls = [1, 3, 4] ∧
    (run step (start .created) promptRun).Complete := by
  have hended : (run step (start .created) promptRun).phase = .ended := by decide
  have hpolls : (run step (start .created) promptRun).polls = [1, 3, 4] := by decide
  have hfile : (run step (start .created) promptRun).job.file.length = 4 := by decide
  refine ⟨hended, hpolls, (log_complete_iff .created promptRun hended).1.2 ⟨?_, .inl ?_⟩⟩
  · rw [last, hpolls, hfile]
    rfl
  · rw [hfile]
    decide

/-- A job that has written as many lines as are kept. -/
def full : LoggedJob where
  status := .running
  returncode := none
  log := List.replicate logLimit "."
  file := List.replicate logLimit "."
  log_eq := by rw [lastLines, List.length_replicate, Nat.sub_self, List.drop_zero]

/-- One more line, between two polls. -/
def fullRun : List LogEvent :=
  [.poll, .check, .job (.line "error"), .poll, .job (.exit 1), .check]

theorem log_not_complete : (run step (start full) fullRun).phase = .ended ∧
    (run step (start full) fullRun).polls = [logLimit, logLimit + 1] ∧
    (run step (start full) fullRun).job.file.length = logLimit + 1 ∧
    ¬(run step (start full) fullRun).Complete := by
  have hpolls : (run step (start full) fullRun).polls = [logLimit, logLimit + 1] := by
    decide +kernel
  have hlength : (run step (start full) fullRun).job.file.length = logLimit + 1 := by decide +kernel
  refine ⟨by decide +kernel, hpolls, hlength, fun hcomplete => ?_⟩
  have hfirst : (run step (start full) fullRun).first = logLimit := by rw [first, hpolls]; rfl
  obtain ⟨_, hle | heq⟩ := (streamed_run full fullRun).complete_iff_inTime.1 hcomplete
  · omega
  · omega

end Subscribed

end Dnlab.ImageBuild
