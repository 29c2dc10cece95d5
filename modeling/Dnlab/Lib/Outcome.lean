import Dnlab.Lib.Prog

/-!
# How a program ends

Programs that end normally from every state, or with an exception from every
state, by their parts: a sequence fails if any part does, and a handler does not
help if it fails itself. A program that *rejects* fails and has changed nothing.
-/

namespace Prog

variable {σ ε α β : Type}

/-- `p` ends normally. -/
def Succeeds (p : Prog σ ε α) : Prop := ∀ s, ∃ a s', p.run s = (.ok a, s')

/-- `p` raises an exception. -/
def Fails (p : Prog σ ε α) : Prop := ∀ s, ∃ e s', p.run s = (.error e, s')

/-- `p` raises an exception and changes nothing. -/
def Rejects (p : Prog σ ε α) : Prop := ∀ s, ∃ e, p.run s = (.error e, s)

theorem run_attempt (p : Prog σ ε α) (s : σ) :
    p.attempt.run s = (.ok (p.run s).1, (p.run s).2) := rfl

namespace Succeeds

theorem pure (a : α) : Succeeds (Pure.pure a : Prog σ ε α) := fun s => ⟨a, s, rfl⟩

theorem bind {p : Prog σ ε β} {f : β → Prog σ ε α} (hp : Succeeds p) (hf : ∀ b, Succeeds (f b)) :
    Succeeds (p >>= f) := by
  intro s
  obtain ⟨b, s₁, h₁⟩ := hp s
  rw [run_bind_ok h₁]
  exact hf b s₁

theorem rescue {p : Prog σ ε α} (hp : Succeeds p) (h : ε → Prog σ ε α) : Succeeds (p.rescue h) := by
  intro s
  obtain ⟨a, s', hs⟩ := hp s
  exact ⟨a, s', by rw [run_rescue, hs]⟩

end Succeeds

namespace Fails

theorem raise (e : ε) : Fails (Prog.raise e : Prog σ ε α) := fun s => ⟨e, s, rfl⟩

theorem bind_left {p : Prog σ ε β} (hp : Fails p) (f : β → Prog σ ε α) : Fails (p >>= f) := by
  intro s
  obtain ⟨e, s', h⟩ := hp s
  exact ⟨e, s', run_bind_error h⟩

theorem bind_right (p : Prog σ ε β) {f : β → Prog σ ε α} (hf : ∀ b, Fails (f b)) :
    Fails (p >>= f) := by
  intro s
  rcases h : p.run s with ⟨e | b, s₁⟩
  · exact ⟨e, s₁, run_bind_error h⟩
  · rw [run_bind_ok h]
    exact hf b s₁

theorem rescue {p : Prog σ ε α} {h : ε → Prog σ ε α} (hp : Fails p) (hh : ∀ e, Fails (h e)) :
    Fails (p.rescue h) := by
  intro s
  obtain ⟨e, s₁, h₁⟩ := hp s
  rw [run_rescue, h₁]
  exact hh e s₁

end Fails

namespace Rejects

theorem fails {p : Prog σ ε α} (hp : Rejects p) : Fails p := fun s =>
  let ⟨e, h⟩ := hp s
  ⟨e, s, h⟩

theorem raise (e : ε) : Rejects (Prog.raise e : Prog σ ε α) := fun _ => ⟨e, rfl⟩

theorem bind {p : Prog σ ε β} (hp : Rejects p) (f : β → Prog σ ε α) : Rejects (p >>= f) := by
  intro s
  obtain ⟨e, h⟩ := hp s
  exact ⟨e, run_bind_error h⟩

/-- What comes before and changes nothing is of no account. -/
theorem bind_right {p : Prog σ ε β} {f : β → Prog σ ε α} {b : β} (hp : ∀ s, p.run s = (.ok b, s))
    (hf : Rejects (f b)) : Rejects (p >>= f) := by
  intro s
  rw [run_bind_ok (hp s)]
  exact hf s

theorem rescue {p : Prog σ ε α} {h : ε → Prog σ ε α} (hp : Rejects p) (hh : ∀ e, Rejects (h e)) :
    Rejects (p.rescue h) := by
  intro s
  obtain ⟨e, h₁⟩ := hp s
  rw [run_rescue, h₁]
  exact hh e s

end Rejects

end Prog
