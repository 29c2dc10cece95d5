import Mathlib.Data.List.Basic
import Mathlib.Order.Defs.Unbundled

/-!
# Compensation

A sequence of actions that fails is taken back by compensating actions. What an
action has left when it is followed by a compensating one is again an action, or
nothing (`Leaves`), so that actions and their compensation come to the
compensation followed by what is left (`after_leftover`). Compensating actions
that commute and need not be repeated are idle once they have been performed
(`idle_after`), and actions that only ever increase a state do not cancel out
(`idle_of_after_eq`). Together, the compensation restores a state just when it, and
all that it leaves, would change nothing there (`undone_iff`).
-/

namespace Compensation

universe u v

variable {σ : Type u} {α : Type v} (act : α → σ → σ)

/-- The state after some actions. -/
def after (s : σ) (l : List α) : σ := l.foldl (fun s a => act a s) s

/-- An action changes nothing in a state. -/
def Idle (s : σ) (a : α) : Prop := act a s = s

/-- What is left of some actions after others, where `left` says what one leaves of another one. -/
def leftover (left : α → α → Option α) (undo done : List α) : List α :=
  undo.foldl (fun done u => done.filterMap (left u)) done

/-- After `u`, there is left of `a` what `left` says, as long as `ok` holds of it. -/
structure Leaves (ok : α → Prop) (left : α → α → Option α) (u : α) : Prop where
  act_act : ∀ {a}, ok a → ∀ s, act u (act a s) = after act (act u s) (left u a).toList
  ok_left : ∀ {a b}, ok a → left u a = some b → ok b

/-- The actions commute, and need not be repeated. -/
structure Settling (l : List α) : Prop where
  comm : ∀ a ∈ l, ∀ b ∈ l, ∀ s, act a (act b s) = act b (act a s)
  idem : ∀ a ∈ l, ∀ s, act a (act a s) = act a s

variable {act} {s : σ} {l undo done : List α}

@[simp] theorem after_nil : after act s [] = s := rfl

@[simp] theorem after_cons (a : α) : after act s (a :: l) = after act (act a s) l := rfl

theorem after_append (l' : List α) : after act s (l ++ l') = after act (after act s l) l' :=
  List.foldl_append ..

/-- Actions that are idle change nothing together. -/
theorem after_eq_self (h : ∀ a ∈ l, Idle act s a) : after act s l = s := by
  induction l with
  | nil => rfl
  | cons a l ih =>
    rw [List.forall_mem_cons] at h
    rw [after_cons, show act a s = s from h.1]
    exact ih h.2

/-! ## Actions that settle -/

theorem Settling.of_cons {a : α} (h : Settling act (a :: l)) : Settling act l where
  comm b hb c hc := h.comm b (List.mem_cons_of_mem a hb) c (List.mem_cons_of_mem a hc)
  idem b hb := h.idem b (List.mem_cons_of_mem a hb)

/-- An action that is idle stays so when actions follow that commute with it. -/
theorem Idle.after {a : α} (h : Idle act s a)
    (hcomm : ∀ b ∈ l, ∀ s, act a (act b s) = act b (act a s)) : Idle act (after act s l) a := by
  induction l generalizing s with
  | nil => exact h
  | cons b l ih =>
    rw [List.forall_mem_cons] at hcomm
    refine ih ?_ hcomm.2
    rw [Idle, hcomm.1, show act a s = s from h]

/-- Once actions that settle have been performed, they are idle. -/
theorem idle_after (h : Settling act l) : ∀ a ∈ l, Idle act (after act s l) a := by
  induction l generalizing s with
  | nil => exact fun a ha => absurd ha List.not_mem_nil
  | cons a l ih =>
    rw [List.forall_mem_cons]
    have hidle : Idle act (act a s) a := h.idem a List.mem_cons_self s
    exact ⟨hidle.after fun b hb => h.comm a List.mem_cons_self b (List.mem_cons_of_mem a hb),
      ih h.of_cons⟩

/-! ## Actions that increase the state -/

section Order

variable {r : σ → σ → Prop} [IsPartialOrder σ r]

theorem le_after (h : ∀ a ∈ l, ∀ s, r s (act a s)) : r s (after act s l) := by
  induction l generalizing s with
  | nil => exact refl_of r s
  | cons a l ih =>
    rw [List.forall_mem_cons] at h
    exact trans_of r (h.1 s) (ih h.2)

/-- Actions that increase the state and change nothing together are all idle. -/
theorem idle_of_after_eq (h : ∀ a ∈ l, ∀ s, r s (act a s)) (heq : after act s l = s) :
    ∀ a ∈ l, Idle act s a := by
  induction l with
  | nil => exact fun a ha => absurd ha List.not_mem_nil
  | cons a l ih =>
    rw [List.forall_mem_cons] at h ⊢
    -- After the first action, the others lead back.
    have hback : r (act a s) s := by
      have hle := le_after (s := act a s) h.2
      rwa [← after_cons, heq] at hle
    have hidle : act a s = s := antisymm_of r hback (h.1 s)
    rw [after_cons, hidle] at heq
    exact ⟨hidle, ih h.2 heq⟩

end Order

/-! ## What is left -/

section Left

variable {ok : α → Prop} {left : α → α → Option α}

theorem act_after {u : α} (h : Leaves act ok left u) (hdone : ∀ a ∈ done, ok a) :
    act u (after act s done) = after act (act u s) (done.filterMap (left u)) := by
  induction done generalizing s with
  | nil => rfl
  | cons a done ih =>
    rw [List.forall_mem_cons] at hdone
    rw [after_cons, ih hdone.2, h.act_act hdone.1, ← after_append]
    rw [List.filterMap_cons]
    cases left u a <;> rfl

/-- Actions that are taken back come to the compensation, and what it leaves of them. -/
theorem after_leftover (hundo : ∀ u ∈ undo, Leaves act ok left u) (hdone : ∀ a ∈ done, ok a) :
    after act (after act s done) undo = after act (after act s undo) (leftover left undo done) := by
  induction undo generalizing s done with
  | nil => rfl
  | cons u undo ih =>
    rw [List.forall_mem_cons] at hundo
    rw [after_cons, act_after hundo.1 hdone, ih hundo.2, after_cons]
    · rfl
    · intro b hb
      obtain ⟨a, ha, hleft⟩ := List.mem_filterMap.1 hb
      exact hundo.1.ok_left (hdone a ha) hleft

/-- The compensation restores a state just when it is idle there, and so is what it leaves. -/
theorem undone_iff {r : σ → σ → Prop} [IsPartialOrder σ r]
    (hundo : ∀ u ∈ undo, Leaves act ok left u) (hdone : ∀ a ∈ done, ok a)
    (hsettling : Settling act undo)
    (hle : ∀ a ∈ leftover left undo done, ∀ s, r s (act a s)) :
    after act (after act s done) undo = s ↔
      (∀ u ∈ undo, Idle act s u) ∧ ∀ a ∈ leftover left undo done, Idle act s a := by
  constructor
  · intro heq
    -- The state is one in which the compensation has been performed.
    have hidle : ∀ u ∈ undo, Idle act s u := by
      have hafter := idle_after (s := after act s done) hsettling
      rwa [heq] at hafter
    rw [after_leftover hundo hdone, after_eq_self hidle] at heq
    exact ⟨hidle, idle_of_after_eq hle heq⟩
  · rintro ⟨hidle, hleft⟩
    rw [after_leftover hundo hdone, after_eq_self hidle, after_eq_self hleft]

end Left

end Compensation
