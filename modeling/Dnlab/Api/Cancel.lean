import Dnlab.Api.Add
import Dnlab.Controllers.Deploy.Bookkeeping

/-!
# A start that is cancelled

A stop that cancels a start only sets its event. The start acts on that if it
looks once more: then it leaves the device at rest (`runStart_atRest`). So no
cancellation is lost in the interleavings in which a stop cancels a start only
while it is going to look again (`Timely`). The code does not see to that: a
stop that is served after the last look is answered in the same way, and so is
the start, but the device runs (`not_atRest_office`).
-/

namespace Dnlab.Api

open Node (Lab)

section Threads

variable {ρ : Type} {S : Services ρ} {node : String}

/-- A thread whose looks find the event set leaves the device at rest. One that has not found it set
    at first may have found the device in any condition. -/
theorem runStart_atRest {topo : DistributedTopology} {looks : List Bool} {lab : Lab ρ}
    (hheard : true ∈ looks)
    (hrest : AtRest node lab.saved ∨
      node ∈ lab.saved.nodeRuntime.keys ∧ looks.head? = some false)
    (hend : (runStart S node topo looks lab).2.remote.env.looks = []) :
    AtRest node (runStart S node topo looks lab).2.saved := by
  have hrun : Heard node ((Node.start (services S) node).run
      (Node.openLab topo (withLooks looks lab).saved (withLooks looks lab).remote
        (withLooks looks lab).placed)).2 := by
    rcases hrest with hrest | ⟨hmem, hhead⟩
    · exact start_heard.run_both ⟨hheard, hrest, hrest⟩
    · obtain ⟨later, rfl⟩ := List.head?_eq_some_iff.1 hhead
      refine start_heard_later.run_both ⟨later, rfl, ?_, hmem⟩
      exact (List.mem_cons.1 hheard).resolve_left (by decide)
  rcases hrun with hunheard | hatRest
  · -- All looks were made.
    have hnil : true ∈ (runStart S node topo looks lab).2.remote.env.looks := hunheard
    rw [hend] at hnil
    cases hnil
  · exact hatRest

end Threads

/-! ## What the steps of a request do -/

section Steps

variable {ρ : Type} {S : Services ρ} {node : String} {s s' : State ρ}

theorem labNodeStart_eq_some {step : StartStep} (h : labNodeStart S node s step = some s') :
    match step with
    | .register => s.start = .idle ∧
      (s.operation.isSome ∧ s' = { s with start := .answered .conflict } ∨
        s.operation = none ∧ s' = { s with operation := some {}, start := .queued })
    | .enter (.error e) => s.start = .queued ∧ s' = { s with start := .ended (.error e) }
    | .enter (.ok topo) => s.start = .queued ∧ s' = { s with start := .running topo [s.cancel] }
    | .look => ∃ topo looks, s.start = .running topo looks ∧
      looksAgain S node topo looks s.lab = true ∧
      s' = { s with start := .running topo (looks ++ [s.cancel]) }
    | .finish => ∃ topo looks, s.start = .running topo looks ∧
      (runStart S node topo looks s.lab).2.remote.env.looks = [] ∧
      (runStart S node topo looks s.lab).2.remote.env.spent = false ∧
      s' = { s with
        lab := withoutLooks (runStart S node topo looks s.lab).2
        start := .ended (runStart S node topo looks s.lab).1 }
    | .answer => ∃ result, s.start = .ended result ∧
      s' = { s with operation := none, start := .answered (startAnswer s.cancel result) } := by
  rcases hs : s.start with _ | _ | ⟨topo, looks⟩ | result | answer
  all_goals
    rcases step with _ | (e | topo') | _ | _ | _ <;> simp only [labNodeStart, hs] at h <;>
      try cases h
  · split at h
    · exact ⟨rfl, .inl ⟨‹_›, (Option.some.inj h).symm⟩⟩
    · exact ⟨rfl, .inr ⟨Option.not_isSome_iff_eq_none.1 ‹_›, (Option.some.inj h).symm⟩⟩
  · exact ⟨rfl, rfl⟩
  · exact ⟨rfl, rfl⟩
  · split at h
    · exact ⟨topo, looks, rfl, ‹_›, (Option.some.inj h).symm⟩
    · cases h
  · split at h
    · rename_i hend
      exact ⟨topo, looks, rfl, hend.1, hend.2, (Option.some.inj h).symm⟩
    · cases h
  · exact ⟨result, rfl, rfl⟩

theorem labNodeStop_eq_some {step : StopStep} (h : labNodeStop S node s step = some s') :
    match step with
    | .serve => s.stop = .idle ∧
      ((∃ operation, s.operation = some operation ∧
          s' = { s with
            operation := some { operation with cancel := true }
            stop := .answered .cancelled }) ∨
        s.operation = none ∧ s' = { s with stop := .waiting })
    | .run _ => s.stop = .waiting ∧ s.locked = false ∧
      ∃ lab answer, answer ≠ .cancelled ∧ s' = { s with lab := lab, stop := .answered answer } := by
  rcases hs : s.stop with _ | _ | answer
  all_goals
    rcases step with _ | (e | topo) <;> simp only [labNodeStop, hs] at h <;> try cases h
  · split at h
    · exact ⟨rfl, .inl ⟨_, ‹_›, (Option.some.inj h).symm⟩⟩
    · exact ⟨rfl, .inr ⟨‹_›, (Option.some.inj h).symm⟩⟩
  · split at h
    · cases h
    · exact ⟨rfl, Bool.eq_false_iff.2 ‹_›, _, _, (fun h => by cases h), (Option.some.inj h).symm⟩
  · split at h
    · cases h
    · refine ⟨rfl, Bool.eq_false_iff.2 ‹_›, _, _, ?_, (Option.some.inj h).symm⟩
      cases (s.lab.perform S topo (.stop node true)).1 <;> exact fun h => by cases h

end Steps

/-! ## Interleavings -/

section Interleavings

variable {ρ : Type} {S : Services ρ} {node : String} {s s' : State ρ}

/-- A stop cancels a start only while it waits and the device is at rest, or while it is going to
    look at its event once more. A device that is not deployed, and that a start adds, must have no
    link that is up. -/
def Timely (S : Services ρ) (node : String) (s : State ρ) : Act → Prop
  | .stop .serve =>
    match s.start with
    | .queued => AtRest node s.lab.saved
    | .running topo looks => looksAgain S node topo looks s.lab = true ∧
        (node ∈ s.lab.saved.nodeRuntime.keys ∨ AtRest node s.lab.saved)
    | .ended _ => False
    | _ => True
  | _ => True

/-- The stop was told that it cancelled the start. -/
def State.Told (s : State ρ) : Prop := s.stop = .answered .cancelled

/-- There is a start to cancel, and its event is set if the stop was told so. -/
def State.Active (s : State ρ) : Prop :=
  ∃ operation, s.operation = some operation ∧ (operation.cancel = true ↔ s.Told)

theorem State.Active.cancel_iff (h : s.Active) : s.cancel = true ↔ s.Told := by
  obtain ⟨operation, hop, hiff⟩ := h
  rw [State.cancel, hop]
  exact hiff

/-- A thread that was cancelled finds its event set, or has found it set, and then leaves the device
    at rest. -/
def WillHear (S : Services ρ) (node : String) (topo : DistributedTopology) (looks : List Bool)
    (lab : Lab ρ) : Prop :=
  (true ∈ looks ∨ looksAgain S node topo looks lab = true) ∧
    (AtRest node lab.saved ∨ node ∈ lab.saved.nodeRuntime.keys ∧ looks.head? = some false)

/-- What is known of a cancellation, by how far the start has got. -/
def Sound (S : Services ρ) (node : String) (s : State ρ) : Prop :=
  match s.start with
  | .idle => s.operation = none ∧ ¬s.Told
  | .queued => s.Active ∧ (s.Told → AtRest node s.lab.saved)
  | .running topo looks => s.Active ∧ looks ≠ [] ∧ (¬s.Told → true ∉ looks) ∧
      (s.Told → WillHear S node topo looks s.lab)
  | .ended _ => s.Active ∧ (s.Told → AtRest node s.lab.saved)
  | .answered answer => s.operation = none ∧ (answer = .cancelled → s.Told) ∧
      (s.Told → AtRest node s.lab.saved)

/-- A start is answered as cancelled only if its event is set. -/
theorem startAnswer_eq_cancelled {cancel : Bool} {result : Except Err Unit}
    (h : startAnswer cancel result = .cancelled) : cancel = true := by
  cases cancel with
  | true => rfl
  | false =>
    cases result with
    | ok _ => cases h
    | error e => cases h

theorem sound_labNodeStart {step : StartStep} (h : labNodeStart S node s step = some s')
    (hs : Sound S node s) : Sound S node s' := by
  have hstep := labNodeStart_eq_some h
  obtain ⟨lab, operation, start, stop⟩ := s
  rcases step with _ | (e | topo) | _ | _ | _
  · obtain ⟨rfl, ⟨hsome, -⟩ | ⟨-, rfl⟩⟩ := hstep
    · exact absurd hs.1 (Option.isSome_iff_ne_none.1 hsome)
    · refine ⟨⟨{}, rfl, ?_⟩, fun h => absurd h hs.2⟩
      exact ⟨fun h => absurd h (by decide), fun h => absurd h hs.2⟩
  · obtain ⟨rfl, rfl⟩ := hstep
    exact hs
  · -- The first look: it finds the event set if the stop came before.
    obtain ⟨rfl, rfl⟩ := hstep
    obtain ⟨hactive, hrest⟩ := hs
    have hiff := hactive.cancel_iff
    refine ⟨hactive, by simp, fun htold hmem => ?_, fun htold => ⟨.inl ?_, .inl (hrest htold)⟩⟩
    · exact htold (hiff.1 (List.mem_singleton.1 hmem).symm)
    · exact List.mem_singleton.2 (hiff.2 htold).symm
  · obtain ⟨topo, looks, rfl, -, rfl⟩ := hstep
    obtain ⟨hactive, hne, hnone, hhear⟩ := hs
    have hiff := hactive.cancel_iff
    refine ⟨hactive, by simp, fun htold hmem => ?_, fun htold => ⟨.inl ?_, ?_⟩⟩
    · rcases List.mem_append.1 hmem with hmem | hmem
      · exact hnone htold hmem
      · exact htold (hiff.1 (List.mem_singleton.1 hmem).symm)
    · exact List.mem_append_right _ (List.mem_singleton.2 (hiff.2 htold).symm)
    · refine (hhear htold).2.imp_right fun ⟨hmem, hhead⟩ => ⟨hmem, ?_⟩
      rw [List.head?_append_of_ne_nil _ hne]
      exact hhead
  · obtain ⟨topo, looks, rfl, hend, hover, rfl⟩ := hstep
    obtain ⟨hactive, hne, hnone, hhear⟩ := hs
    refine ⟨hactive, fun htold => ?_⟩
    obtain ⟨hheard, hrest⟩ := hhear htold
    refine runStart_atRest (hheard.resolve_right fun h => ?_) hrest hend
    exact absurd (h.symm.trans hover) (by decide)
  · obtain ⟨result, rfl, rfl⟩ := hstep
    obtain ⟨hactive, hrest⟩ := hs
    exact ⟨rfl, fun h => hactive.cancel_iff.1 (startAnswer_eq_cancelled h), hrest⟩

theorem sound_labNodeStop {step : StopStep} (hP : Timely S node s (.stop step))
    (h : labNodeStop S node s step = some s') (hs : Sound S node s) : Sound S node s' := by
  have hstep := labNodeStop_eq_some h
  obtain ⟨lab, operation, start, stop⟩ := s
  rcases step with _ | parsed
  · obtain ⟨rfl, ⟨operation, rfl, rfl⟩ | ⟨rfl, rfl⟩⟩ := hstep
    · -- The stop cancels the start.
      -- The operation is told, and so is everyone who asks for it.
      have hactive : State.Active
          { lab := lab, operation := some { operation with cancel := true }, start := start
            stop := .answered .cancelled } := ⟨_, rfl, fun _ => rfl, fun _ => rfl⟩
      have hidle : ¬State.Told ⟨lab, some operation, start, .idle⟩ := fun h => by cases h
      rcases start with _ | _ | ⟨topo, looks⟩ | result | answer
      · cases hs.1
      · exact ⟨hactive, fun _ => hP⟩
      · obtain ⟨-, hne, hnone, -⟩ := hs
        refine ⟨hactive, hne, fun h => absurd rfl h, fun _ => ⟨.inr hP.1, ?_⟩⟩
        refine hP.2.symm.imp_right fun hmem => ⟨hmem, ?_⟩
        rcases looks with _ | ⟨found, looks⟩
        · exact absurd rfl hne
        · cases found with
          | false => rfl
          | true => exact absurd List.mem_cons_self (hnone hidle)
      · exact hP.elim
      · cases hs.1
    · -- There is no start to cancel.
      rcases start with _ | _ | ⟨topo, looks⟩ | result | answer
      · exact ⟨rfl, fun h => by cases h⟩
      · obtain ⟨_, h, -⟩ := hs.1
        cases h
      · obtain ⟨_, h, -⟩ := hs.1
        cases h
      · obtain ⟨_, h, -⟩ := hs.1
        cases h
      · have hidle : ¬State.Told ⟨lab, none, .answered answer, .idle⟩ := fun h => by cases h
        exact ⟨rfl, fun h => absurd (hs.2.1 h) hidle, fun h => by cases h⟩
  · obtain ⟨rfl, hlocked, lab', answer', hne, rfl⟩ := hstep
    -- The stop waits for the lock, and its answer is not that of a cancelled start.
    have hnot : ¬State.Told ⟨lab', operation, start, .answered answer'⟩ := fun h =>
      hne (StopPhase.answered.inj h)
    have hwaiting : ¬State.Told ⟨lab, operation, start, .waiting⟩ := fun h => by cases h
    rcases start with _ | _ | ⟨topo, looks⟩ | result | answer
    · exact ⟨hs.1, hnot⟩
    · obtain ⟨⟨operation, rfl, hiff⟩, -⟩ := hs
      exact ⟨⟨operation, rfl, fun h => absurd (hiff.1 h) hwaiting, fun h => absurd h hnot⟩,
        fun h => absurd h hnot⟩
    · cases hlocked
    · cases hlocked
    · exact ⟨hs.1, fun h => absurd (hs.2.1 h) hwaiting, fun h => absurd h hnot⟩

theorem sound_step {act : Act} (hP : Timely S node s act) (h : s.step S node act = some s')
    (hs : Sound S node s) : Sound S node s' := by
  cases act with
  | start step => exact sound_labNodeStart h hs
  | stop step => exact sound_labNodeStop hP h hs

/-- In every interleaving in which the stop is timely, a cancellation that either request is told of
    leaves the device at rest. -/
theorem atRest_of_cancelled (S : Services ρ) (node : String) (lab : Lab ρ) (s : State ρ)
    (answer : StartAnswer) (hrun : Run S node (Timely S node) { lab := lab } s)
    (hanswer : s.start = .answered answer)
    (hcancelled : answer = .cancelled ∨ s.stop = .answered .cancelled) :
    AtRest node s.lab.saved := by
  have hsound : Sound S node s := hrun.invariant (fun _ _ _ => sound_step)
    ⟨rfl, fun h => by cases h⟩
  rw [Sound, hanswer] at hsound
  obtain ⟨-, htold, hrest⟩ := hsound
  exact hrest (hcancelled.elim htold id)

instance decidableTimely : (s : State ρ) → (act : Act) → Decidable (Timely S node s act)
  | ⟨lab, _, .queued, _⟩, .stop .serve => inferInstanceAs (Decidable (AtRest node lab.saved))
  | ⟨_, _, .running _ _, _⟩, .stop .serve => inferInstanceAs (Decidable (_ = true ∧ (_ ∨ _)))
  | ⟨_, _, .ended _, _⟩, .stop .serve => .isFalse id
  | ⟨_, _, .idle, _⟩, .stop .serve => .isTrue trivial
  | ⟨_, _, .answered _, _⟩, .stop .serve => .isTrue trivial
  | _, .stop (.run _) => .isTrue trivial
  | _, .start _ => .isTrue trivial

/-- The acts of a list, in their order. -/
theorem Run.of_acts {P : State ρ → Act → Prop} [∀ s act, Decidable (P s act)] {acts : List Act}
    {s₀ : State ρ} (h : acts.foldlM (fun s act => if P s act then s.step S node act else none) s =
      some s') (hs : Run S node P s₀ s) : Run S node P s₀ s' := by
  induction acts generalizing s with
  | nil => exact Option.some.inj h ▸ hs
  | cons act acts ih =>
    rw [List.foldlM_cons] at h
    obtain ⟨s₁, hstep, hrest⟩ := Option.bind_eq_some_iff.1 h
    split at hstep
    · exact ih hrest (.tail act hs ‹_› hstep)
    · cases hstep

end Interleavings

/-! ### Two devices that are linked -/

open Deploy (quietServices)

/-- The two devices of the office, with a link. -/
def linkedOffice : DistributedTopology :=
  { Deploy.officeTopo with links := [⟨"r1", "eth1", "r2", "eth1"⟩] }

/-- The office after one of the devices was stopped. -/
def stoppedOffice : Lab Unit :=
  ((Deploy.deploy quietServices linkedOffice "office.yml" none Deploy.noLab).2.perform
    quietServices.toServices linkedOffice (.stop "r1" false)).2

theorem atRest_of_cancelled_office : ∃ s,
    Run quietServices.toServices "r1" (Timely quietServices.toServices "r1") { lab := stoppedOffice }
      s ∧
    s.start = .answered .cancelled ∧ AtRest "r1" s.lab.saved := by
  -- The stop is served before the third look.
  have hacts : ((([.start .register, .start (.enter (.ok linkedOffice)), .start .look,
      .stop .serve, .start .look, .start .finish, .start .answer] : List Act).foldlM
        (fun s act => if Timely quietServices.toServices "r1" s act then
          s.step quietServices.toServices "r1" act else none)
        ({ lab := stoppedOffice } : State Unit)).any fun s =>
      s.start.answer? = some .cancelled) = true := by decide +kernel
  obtain ⟨s, hs, hend⟩ := (Option.any_eq_true _ _).1 hacts
  have hstart := StartPhase.answer?_eq_some.1 (of_decide_eq_true hend)
  have hrun := Run.of_acts hs .refl
  exact ⟨s, hrun, hstart, atRest_of_cancelled _ _ _ s _ hrun hstart (.inl rfl)⟩

/-- The stop is served after the last look of the start. -/
theorem not_atRest_office : ∃ s,
    Run quietServices.toServices "r1" (fun _ _ => True) { lab := stoppedOffice } s ∧
    s.start = .answered .cancelled ∧ s.stop = .answered .cancelled ∧
    ¬AtRest "r1" s.lab.saved := by
  have hacts : ((([.start .register, .start (.enter (.ok linkedOffice))] ++
      List.replicate 6 (.start .look) ++ [.start .finish, .stop .serve, .start .answer] :
        List Act).foldlM (fun s act => if True then s.step quietServices.toServices "r1" act else none)
          ({ lab := stoppedOffice } : State Unit)).any fun s =>
      s.start.answer? = some .cancelled ∧ s.stop = .answered .cancelled ∧
        ¬AtRest "r1" s.lab.saved) = true := by decide +kernel
  obtain ⟨s, hs, hend⟩ := (Option.any_eq_true _ _).1 hacts
  obtain ⟨hstart, hstop, hrest⟩ := of_decide_eq_true hend
  exact ⟨s, Run.of_acts (P := fun _ _ => True) hs .refl, StartPhase.answer?_eq_some.1 hstart, hstop,
    hrest⟩

end Dnlab.Api
