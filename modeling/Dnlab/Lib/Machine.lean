import Mathlib.Data.List.Basic

/-!
# Machines

A machine takes its events one after another, whichever thread they come from
(`run`). A *guard* says which events are welcome in which states; an invariant
that welcome events keep holds in all states of a run that only has such events
(`GuardedRun.invariant`).
-/

namespace Dnlab.Machine

variable {σ ε : Type*}

/-- The state after some events. -/
def run (step : σ → ε → σ) : σ → List ε → σ
  | s, [] => s
  | s, e :: es => run step (step s e) es

/-- All events of a run are welcome. -/
def GuardedRun (step : σ → ε → σ) (guard : σ → ε → Prop) : σ → List ε → Prop
  | _, [] => True
  | s, e :: es => guard s e ∧ GuardedRun step guard (step s e) es

instance decidableGuardedRun (step : σ → ε → σ) (guard : σ → ε → Prop) [∀ s e, Decidable (guard s e)] :
    (s : σ) → (es : List ε) → Decidable (GuardedRun step guard s es)
  | _, [] => inferInstanceAs (Decidable True)
  | s, e :: es =>
    haveI := decidableGuardedRun step guard (step s e) es
    inferInstanceAs (Decidable (_ ∧ _))

variable {step : σ → ε → σ} {guard : σ → ε → Prop} {s : σ} {es es' : List ε}

theorem run_append : run step s (es ++ es') = run step (run step s es) es' := by
  induction es generalizing s with
  | nil => rfl
  | cons e es ih => exact ih

/-- A machine that keeps more beside its state runs as it does without. -/
theorem map_run {τ : Type*} {step' : τ → ε → τ} (f : σ → τ)
    (hstep : ∀ s e, f (step s e) = step' (f s) e) : f (run step s es) = run step' (f s) es := by
  induction es generalizing s with
  | nil => rfl
  | cons e es ih => exact ih.trans (congrArg (run step' · es) (hstep s e))

/-- What welcome events keep, a run of them keeps. -/
theorem GuardedRun.invariant {P : σ → Prop} (h : GuardedRun step guard s es) (hs : P s)
    (hstep : ∀ s e, P s → guard s e → P (step s e)) : P (run step s es) := by
  induction es generalizing s with
  | nil => exact hs
  | cons e es ih => exact ih h.2 (hstep s e hs h.1)

/-- The states on the way are those of a shorter run of welcome events. -/
theorem GuardedRun.of_append (h : GuardedRun step guard s (es ++ es')) :
    GuardedRun step guard s es := by
  induction es generalizing s with
  | nil => trivial
  | cons e es ih => exact ⟨h.1, ih h.2⟩

/-- When an event keeps the invariant just if it is welcome, the invariant holds all the way just in
    the runs of welcome events. -/
theorem guardedRun_iff {P : σ → Prop} (hs : P s)
    (hstep : ∀ s e, P s → (P (step s e) ↔ guard s e)) :
    (∀ es', es' <+: es → P (run step s es')) ↔ GuardedRun step guard s es := by
  constructor
  · intro h
    induction es generalizing s with
    | nil => trivial
    | cons e es ih =>
      have hnext : P (step s e) := h [e] (List.prefix_append [e] es)
      exact ⟨(hstep s e hs).1 hnext, ih hnext fun es' hes' => h (e :: es') ((List.prefix_cons_inj e).2 hes')⟩
  · rintro h es' ⟨rest, rfl⟩
    exact h.of_append.invariant hs fun s e hs hguard => (hstep s e hs).2 hguard

end Dnlab.Machine
