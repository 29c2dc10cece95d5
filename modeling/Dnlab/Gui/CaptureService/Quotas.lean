import Dnlab.Gui.CaptureService
import Dnlab.Lib.Machine
import Mathlib.Data.Finset.Card

/-!
# The limits of captures

The limits are for the entries of the table, so they are for the processes as long
as every process that runs has its entry. A session that is stopped or grows stale
before its process is there loses its entry, and the process starts all the same
(`not_quotas_early`). Where this does not happen, and no entry is removed before
its process has exited, the limits hold in every run (`quotas_run`).
-/

namespace Dnlab.Gui.Capture.CaptureService

variable {s : CaptureService} {id : ℕ}

/-- A session has an entry in the table. -/
def Reserved (s : CaptureService) (id : ℕ) : Prop := ∃ active ∈ s.active, active.sessionId = id

instance (s : CaptureService) (id : ℕ) : Decidable (s.Reserved id) :=
  inferInstanceAs (Decidable (∃ active ∈ s.active, _))

def Running (s : CaptureService) (id : ℕ) : Prop := (s.streams id).process = .running

instance (s : CaptureService) (id : ℕ) : Decidable (s.Running id) := inferInstanceAs (Decidable (_ = _))

/-- The sessions whose process runs. -/
def running (s : CaptureService) : List ℕ := (List.range s.count).filter fun id => s.Running id

/-- All processes that run are in the table, and are within the limits. -/
structure Quotas (s : CaptureService) : Prop where
  tracked : ∀ id, s.Running id → s.Reserved id
  user : ∀ userId, (s.running.filter fun id => (s.streams id).userId = userId).length ≤ maxUserCaptures
  lab : ∀ labId, (s.running.filter fun id => (s.streams id).labId = labId).length ≤ maxLabCaptures

/-- A process is only started for a session with an entry, and an entry is only removed as stale, or
    by a stop that found no process, when its process does not run. -/
def Guarded (s : CaptureService) : Event → Prop
  | .create id => s.Reserved id
  | .cleanup | .reserve _ _ => ∀ active ∈ s.active, s.stale active = true → ¬s.Running active.sessionId
  | .stopEnd id false => ¬s.Running id
  | _ => True

instance (s : CaptureService) (event : Event) : Decidable (s.Guarded event) := by
  rcases event with _ | _ | _ | _ | _ | _ | _ | _ | _ | _ | _ | _ | _ | _ | ⟨_, _ | _⟩ <;>
    unfold Guarded <;> infer_instance

/-- The table is within the limits, and has what runs. -/
structure Tracked (s : CaptureService) : Prop where
  fresh : ∀ id, s.count ≤ id → (s.streams id).process = .none ∧ (s.streams id).phase = .over
  entry : ∀ active ∈ s.active, active.sessionId < s.count ∧
    (s.streams active.sessionId).userId = active.userId ∧
    (s.streams active.sessionId).labId = active.labId
  tracked : ∀ id, s.Running id → s.Reserved id
  phase : ∀ id, s.Running id → (s.streams id).phase ∈ [Phase.created, .attached, .stopping]
  user : ∀ userId, s.activeUser userId ≤ maxUserCaptures
  lab : ∀ labId, s.activeLab labId ≤ maxLabCaptures

theorem tracked_new : new.Tracked where
  fresh _ _ := ⟨rfl, rfl⟩
  entry _ h := absurd h List.not_mem_nil
  tracked _ h := Process.noConfusion h
  phase _ h := Process.noConfusion h
  user _ := Nat.zero_le _
  lab _ := Nat.zero_le _

/-- Every process counts for an entry of its user and its lab. -/
theorem Tracked.quotas (h : s.Tracked) : s.Quotas := by
  have hcount {p : ℕ → Bool} {q : ActiveCapture → Bool}
      (hpq : ∀ active ∈ s.active, p active.sessionId = true → q active = true) :
      (s.running.filter p).length ≤ (s.active.filter q).length := by
    rw [← List.length_map ActiveCapture.sessionId]
    refine (List.subperm_of_subset ((List.nodup_range.filter _).filter _) fun id hid => ?_).length_le
    obtain ⟨hrunning, hp⟩ := List.mem_filter.1 hid
    obtain ⟨active, hactive, rfl⟩ := h.tracked id (of_decide_eq_true (List.mem_filter.1 hrunning).2)
    exact List.mem_map_of_mem (List.mem_filter.2 ⟨hactive, hpq active hactive hp⟩)
  refine ⟨h.tracked, fun userId => (hcount fun active hactive hp => ?_).trans (h.user userId),
    fun labId => (hcount fun active hactive hp => ?_).trans (h.lab labId)⟩
  · rw [decide_eq_true_eq] at hp ⊢
    rw [← hp, (h.entry active hactive).2.1]
  · rw [decide_eq_true_eq] at hp ⊢
    rw [← hp, (h.entry active hactive).2.2]

/-! ## The table -/

/-- Entries are removed whose process does not run. -/
theorem Tracked.filter (h : s.Tracked) (p : ActiveCapture → Bool)
    (hrunning : ∀ active ∈ s.active, s.Running active.sessionId → p active = true) :
    { s with active := s.active.filter p }.Tracked where
  fresh := h.fresh
  entry active hactive := h.entry active (List.mem_of_mem_filter hactive)
  tracked id hid := by
    obtain ⟨active, hactive, rfl⟩ := h.tracked id hid
    exact ⟨active, List.mem_filter.2 ⟨hactive, hrunning active hactive hid⟩, rfl⟩
  phase := h.phase
  user userId := ((List.filter_sublist.filter _).length_le).trans (h.user userId)
  lab labId := ((List.filter_sublist.filter _).length_le).trans (h.lab labId)

theorem Tracked.cleanup (h : s.Tracked) (hguard : s.Guarded .cleanup) : s.cleanup.Tracked :=
  h.filter _ fun active hactive hrunning => by
    rcases hstale : s.stale active with _ | _
    · rfl
    · exact absurd hrunning (hguard active hactive hstale)

theorem Tracked.pop (h : s.Tracked) (hid : ¬s.Running id) : (s.pop id).Tracked :=
  h.filter _ fun _ _ hrunning => decide_eq_true fun heq : _ = id => hid (heq ▸ hrunning)

theorem Tracked.reserve (h : s.Tracked) {userId : ℤ} {labId : String}
    (hguard : s.Guarded (.reserve userId labId)) : (s.reserve userId labId).Tracked := by
  have hclean : s.cleanup.Tracked := h.cleanup hguard
  rw [CaptureService.reserve]
  generalize s.cleanup = s at hclean ⊢
  split_ifs with hfull
  · exact hclean
  rw [not_or, not_le, not_le] at hfull
  -- the other streams are as they were
  have hother {id : ℕ} (hid : id ≠ s.count) :
      Function.update s.streams s.count ⟨userId, labId, .reserved, .none⟩ id = s.streams id :=
    Function.update_of_ne hid _ _
  have hrunning {id : ℕ} (hid : (Function.update s.streams s.count ⟨userId, labId, .reserved, .none⟩
      id).process = .running) : id ≠ s.count := by
    rintro rfl
    rw [Function.update_self] at hid
    exact Process.noConfusion hid
  refine ⟨fun id hid => ?_, fun active hactive => ?_, fun id hid => ?_, fun id hid => ?_,
    fun userId' => ?_, fun labId' => ?_⟩
  · have hlt : s.count + 1 ≤ id := hid
    dsimp only
    rw [hother (by omega)]
    exact hclean.fresh id (by omega)
  · rcases List.mem_append.1 hactive with hactive | hactive
    · obtain ⟨hlt, hentry⟩ := hclean.entry active hactive
      dsimp only
      rw [hother hlt.ne]
      exact ⟨hlt.trans (Nat.lt_succ_self _), hentry⟩
    · rw [List.mem_singleton.1 hactive]
      dsimp only
      rw [Function.update_self]
      exact ⟨Nat.lt_succ_self _, rfl, rfl⟩
  · have hne := hrunning hid
    rw [Running] at hid
    dsimp only at hid
    rw [hother hne] at hid
    obtain ⟨active, hactive, heq⟩ := hclean.tracked id hid
    exact ⟨active, List.mem_append_left _ hactive, heq⟩
  · have hne := hrunning hid
    rw [Running] at hid
    dsimp only at hid ⊢
    rw [hother hne] at hid ⊢
    exact hclean.phase id hid
  · rw [activeUser]
    dsimp only
    rw [List.filter_append, List.length_append]
    by_cases hu : userId = userId'
    · subst hu
      exact (Nat.add_le_add_left (List.length_filter_le _ _) _).trans hfull.1
    · rw [List.filter_cons, if_neg (by simpa using hu)]
      exact hclean.user userId'
  · rw [activeLab]
    dsimp only
    rw [List.filter_append, List.length_append]
    by_cases hl : labId = labId'
    · subst hl
      exact (Nat.add_le_add_left (List.length_filter_le _ _) _).trans hfull.2
    · rw [List.filter_cons, if_neg (by simpa using hl)]
      exact hclean.lab labId'

/-! ## Streams -/

/-- A stream goes on. If its process then runs, it has an entry. -/
theorem Tracked.update (h : s.Tracked) {stream : Stream} (huser : stream.userId = (s.streams id).userId)
    (hlab : stream.labId = (s.streams id).labId) (hid : id < s.count)
    (htracked : stream.process = .running → s.Reserved id)
    (hphase : stream.process = .running → stream.phase ∈ [Phase.created, .attached, .stopping]) :
    { s with streams := Function.update s.streams id stream }.Tracked where
  fresh id' hid' := by
    dsimp only at hid' ⊢
    rw [Function.update_of_ne (by omega)]
    exact h.fresh id' hid'
  entry active hactive := by
    obtain ⟨hlt, hentry⟩ := h.entry active hactive
    refine ⟨hlt, ?_⟩
    dsimp only
    by_cases heq : active.sessionId = id
    · rw [heq, Function.update_self, huser, hlab, ← heq]
      exact hentry
    · rw [Function.update_of_ne heq]
      exact hentry
  tracked id' hid' := by
    by_cases heq : id' = id
    · subst heq
      rw [Running] at hid'
      dsimp only at hid'
      rw [Function.update_self] at hid'
      exact htracked hid'
    · rw [Running] at hid'
      dsimp only at hid'
      rw [Function.update_of_ne heq] at hid'
      exact h.tracked id' hid'
  phase id' hid' := by
    rw [Running] at hid'
    dsimp only at hid' ⊢
    by_cases heq : id' = id
    · subst heq
      rw [Function.update_self] at hid' ⊢
      exact hphase hid'
    · rw [Function.update_of_ne heq] at hid' ⊢
      exact h.phase id' hid'
  user := h.user
  lab := h.lab

/-- A stream that is not over has begun. -/
theorem Tracked.lt_count (h : s.Tracked) (hphase : (s.streams id).phase ≠ .over) : id < s.count :=
  not_le.1 fun hle => hphase (h.fresh id hle).2

/-- A stream goes from one phase to another, in which its process may run or has not run before. -/
theorem Tracked.move (h : s.Tracked) (before after : Phase) (hbefore : before ≠ .over)
    (hafter : s.Running id → before ∈ [Phase.created, .attached, .stopping] →
      after ∈ [Phase.created, .attached, .stopping]) : (s.move id before after).Tracked := by
  rw [CaptureService.move]
  split_ifs with hphase
  · exact h.update rfl rfl (h.lt_count (hphase ▸ hbefore)) (h.tracked id) fun hid =>
      hafter hid (hphase ▸ h.phase id hid)
  · exact h

theorem Tracked.create (h : s.Tracked) (hguard : s.Guarded (.create id)) : (s.create id).Tracked := by
  rw [CaptureService.create]
  split_ifs with hphase
  · exact h.update rfl rfl (h.lt_count (by rw [hphase]; exact Phase.noConfusion)) (fun _ => hguard)
      fun _ => List.mem_cons_self
  · exact h

theorem Tracked.exit (h : s.Tracked) (id : ℕ) : (s.exit id).Tracked := by
  rw [CaptureService.exit]
  split_ifs with hrunning
  · refine h.update rfl rfl (not_le.1 fun hle => ?_) (fun hid => Process.noConfusion hid) fun hid =>
      Process.noConfusion hid
    exact Process.noConfusion (hrunning.symm.trans (h.fresh id hle).1)
  · exact h

/-- Entries of the table change, but not whose they are. -/
theorem Tracked.map (h : s.Tracked) {f : ActiveCapture → ActiveCapture}
    (hf : ∀ active, (f active).sessionId = active.sessionId ∧ (f active).userId = active.userId ∧
      (f active).labId = active.labId) : { s with active := s.active.map f }.Tracked where
  fresh := h.fresh
  entry active hactive := by
    obtain ⟨active, hmem, rfl⟩ := List.mem_map.1 hactive
    obtain ⟨hid, huser, hlab⟩ := hf active
    rw [hid, huser, hlab]
    exact h.entry active hmem
  tracked id hid := by
    obtain ⟨active, hactive, heq⟩ := h.tracked id hid
    exact ⟨f active, List.mem_map_of_mem hactive, (hf active).1.trans heq⟩
  phase := h.phase
  user userId := by
    have heq : (fun active => decide (active.userId = userId)) ∘ f =
        fun active => decide (active.userId = userId) := by
      funext active
      rw [Function.comp_apply, (hf active).2.1]
    rw [activeUser, List.filter_map, List.length_map, heq]
    exact h.user userId
  lab labId := by
    have heq : (fun active => decide (active.labId = labId)) ∘ f =
        fun active => decide (active.labId = labId) := by
      funext active
      rw [Function.comp_apply, (hf active).2.2]
    rw [activeLab, List.filter_map, List.length_map, heq]
    exact h.lab labId

theorem active_move (before after : Phase) : (s.move id before after).active = s.active := by
  rw [move]
  split_ifs <;> rfl

theorem running_move {before after : Phase} {id' : ℕ} :
    (s.move id before after).Running id' ↔ s.Running id' := by
  rw [move]
  split_ifs
  · rw [Running, Running]
    by_cases heq : id' = id
    · subst heq
      dsimp only
      rw [Function.update_self]
    · dsimp only
      rw [Function.update_of_ne heq]
  · rfl

theorem Tracked.attach (h : s.Tracked) (id : ℕ) : (s.attach id).Tracked := by
  rw [CaptureService.attach]
  split_ifs
  · rw [← active_move .created .attached]
    refine (h.move .created .attached nofun fun _ _ => by decide).map fun active => ?_
    split_ifs <;> exact ⟨rfl, rfl, rfl⟩
  · exact h

theorem Tracked.leave (h : s.Tracked) (id : ℕ) :
    ((s.move id .created .stopping).move id .attached .stopping).Tracked :=
  (h.move .created .stopping nofun fun _ _ => by decide).move .attached .stopping nofun fun _ _ => by decide

theorem Tracked.abandon (h : s.Tracked) (id : ℕ) :
    ((s.move id .reserved .over).move id .ready .over).Tracked :=
  (h.move .reserved .over nofun fun _ hmem => absurd hmem (by decide)).move .ready .over nofun
    fun _ hmem => absurd hmem (by decide)

theorem Tracked.stopped (h : s.Tracked) (id : ℕ) : (s.stopped id).Tracked := by
  rw [CaptureService.stopped]
  split_ifs with hexited
  · exact h.move _ _ nofun fun hid => Process.noConfusion (hexited.symm.trans hid)
  · exact h

theorem Tracked.release (h : s.Tracked) (id : ℕ) : (s.release id).Tracked := by
  rw [CaptureService.release]
  split_ifs with hphase
  · have hid : ¬s.Running id := fun hid => by
      have hmem := h.phase id hid
      rw [hphase] at hmem
      revert hmem
      decide
    exact (h.move .releasing .over nofun fun hrunning => absurd hrunning hid).pop fun hrunning =>
      hid (running_move.1 hrunning)
  · exact h

/-! ## Stopping from elsewhere -/

theorem Tracked.stopBegin (h : s.Tracked) (labId : String) (userId : ℤ) (id : ℕ) :
    (s.stopBegin labId userId id).Tracked := by
  rw [CaptureService.stopBegin]
  split
  · split_ifs
    · exact ⟨h.fresh, h.entry, h.tracked, h.phase, h.user, h.lab⟩
    · exact h
  · exact h

theorem Tracked.stopEnd (h : s.Tracked) {process : Bool} (hguard : s.Guarded (.stopEnd id process)) :
    (s.stopEnd id process).Tracked := by
  rw [CaptureService.stopEnd]
  split_ifs with hstop
  swap
  · exact h
  have hid : ¬s.Running id := by
    cases process
    · exact hguard
    · exact fun hid => Process.noConfusion ((hstop.2 rfl).symm.trans hid)
  have hpop := h.pop hid
  exact ⟨hpop.fresh, hpop.entry, hpop.tracked, hpop.phase, hpop.user, hpop.lab⟩

/-! ## Runs -/

theorem Tracked.step (h : s.Tracked) {event : Event} (hguard : s.Guarded event) :
    (s.step event).Tracked := by
  rcases event with time | id | _ | ⟨userId, labId⟩ | id | id | id | id | id | id | id | id | id |
    ⟨labId, userId, id⟩ | ⟨id, process⟩
  case advance => exact ⟨h.fresh, h.entry, h.tracked, h.phase, h.user, h.lab⟩
  case exit => exact h.exit id
  case cleanup => exact h.cleanup hguard
  case reserve => exact h.reserve hguard
  case abandon => exact h.abandon id
  case create => exact h.create hguard
  case attach => exact h.attach id
  case leave => exact h.leave id
  case stopped => exact h.stopped id
  case release => exact h.release id
  case stopBegin => exact h.stopBegin labId userId id
  case stopEnd => exact h.stopEnd hguard
  -- what is left has no process yet
  all_goals exact h.move _ _ nofun fun _ hmem => absurd hmem (by decide)

/-- While every process is started with an entry, and no entry is removed before its process has
    exited, the limits hold. -/
theorem quotas_run {events : List Event} (h : Machine.GuardedRun step Guarded new events) :
    (Machine.run step new events).Quotas :=
  (h.invariant tracked_new fun _ _ htracked hguard => htracked.step hguard).quotas

/-- A capture that is stopped once it runs. -/
def oneCapture : List Event :=
  [.reserve 1 "lab", .command 0, .create 0, .attach 0, .advance second, .stopBegin "lab" 1 0, .exit 0,
    .stopEnd 0 true, .leave 0, .stopped 0, .release 0]

theorem quotas_oneCapture : (Machine.run step new oneCapture).Quotas := quotas_run (by decide)

/-- A capture that is stopped before its process is there. -/
def early (id : ℕ) : List Event :=
  [.reserve 1 "lab", .command id, .stopBegin "lab" 1 id, .stopEnd id false, .create id, .attach id]

/-- Four captures of one user run, and none is in the table. -/
theorem not_quotas_early : ¬(Machine.run step new ((List.range 4).flatMap early)).Quotas := by
  intro h
  have hle := h.user 1
  revert hle
  decide

end Dnlab.Gui.Capture.CaptureService
