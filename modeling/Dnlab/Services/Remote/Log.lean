import Dnlab.Services.Remote

/-!
# What a run records

A program only adds to the log, and what it adds can be said of each of its
events (`Adds`).
-/

namespace Dnlab

/-- The log grows by events that satisfy `Q`, however `p` ends. -/
def Adds {ρ α : Type} (Q : Event → Prop) (p : Prog (Remote ρ) Err α) : Prop :=
  ∀ r, ∃ new, (p.run r).2.log = new ++ r.log ∧ ∀ e ∈ new, Q e

namespace Adds

variable {ρ α β : Type} {B : Backend ρ} {clients : Clients} {Q Q' : Event → Prop}

theorem of_log_eq {p : Prog (Remote ρ) Err α} (h : ∀ r, (p.run r).2.log = r.log) : Adds Q p :=
  fun r => ⟨[], h r, by simp⟩

theorem pure (a : α) : Adds Q (Pure.pure a : Prog (Remote ρ) Err α) := of_log_eq fun _ => rfl

theorem raise (e : Err) : Adds Q (Prog.raise e : Prog (Remote ρ) Err α) := of_log_eq fun _ => rfl

theorem ofExcept (x : Except Err α) : Adds Q (Prog.ofExcept x : Prog (Remote ρ) Err α) := by
  cases x
  · exact raise _
  · exact pure _

theorem patience : Adds Q (Remote.patience B) := of_log_eq fun _ => rfl

theorem note {e : Event} (h : Q e) : Adds Q (Remote.note e : Prog (Remote ρ) Err Unit) :=
  fun _ => ⟨[e], rfl, by simpa using h⟩

theorem bind {p : Prog (Remote ρ) Err α} {f : α → Prog (Remote ρ) Err β} (hp : Adds Q p)
    (hf : ∀ a, Adds Q (f a)) : Adds Q (p >>= f) := by
  intro r
  obtain ⟨new, hlog, hnew⟩ := hp r
  rw [Prog.run_bind]
  rcases h : p.run r with ⟨e | a, r'⟩ <;> rw [h] at hlog
  · exact ⟨new, hlog, hnew⟩
  · obtain ⟨new', hlog', hnew'⟩ := hf a r'
    refine ⟨new' ++ new, by rw [List.append_assoc, ← hlog, ← hlog'], fun e he => ?_⟩
    rcases List.mem_append.1 he with he | he
    · exact hnew' e he
    · exact hnew e he

theorem rescue {p : Prog (Remote ρ) Err α} {h : Err → Prog (Remote ρ) Err α} (hp : Adds Q p)
    (hh : ∀ e, Adds Q (h e)) : Adds Q (p.rescue h) := by
  intro r
  obtain ⟨new, hlog, hnew⟩ := hp r
  rw [Prog.run_rescue]
  rcases heq : p.run r with ⟨e | a, r'⟩ <;> rw [heq] at hlog
  · obtain ⟨new', hlog', hnew'⟩ := hh e r'
    refine ⟨new' ++ new, by rw [List.append_assoc, ← hlog, ← hlog'], fun e he => ?_⟩
    rcases List.mem_append.1 he with he | he
    · exact hnew' e he
    · exact hnew e he
  · exact ⟨new, hlog, hnew⟩

theorem attempt {p : Prog (Remote ρ) Err α} (hp : Adds Q p) : Adds Q p.attempt := hp

theorem ite {c : Prop} [Decidable c] {p q : Prog (Remote ρ) Err α} (hp : c → Adds Q p)
    (hq : ¬c → Adds Q q) : Adds Q (if c then p else q) := by
  split
  · exact hp ‹c›
  · exact hq ‹¬c›

theorem mapEach {γ : Type} {l : List γ} {f : γ → Prog (Remote ρ) Err α}
    (h : ∀ c ∈ l, Adds Q (f c)) : Adds Q (Prog.mapEach l f) := by
  induction l with
  | nil => exact pure []
  | cons c l ih =>
    refine bind (h c List.mem_cons_self) fun a => bind (ih fun c' hc' => ?_) fun _ => pure _
    exact h c' (List.mem_cons_of_mem _ hc')

theorem weaken {p : Prog (Remote ρ) Err α} (hp : Adds Q p) (h : ∀ e, Q e → Q' e) : Adds Q' p := by
  intro r
  obtain ⟨new, hlog, hnew⟩ := hp r
  exact ⟨new, hlog, fun e he => h e (hnew e he)⟩

section Commands

variable {host : String} {cmd : Cmd} {check : Bool} (hQ : ∀ ok, Q (.ran host cmd ok))

include hQ

theorem runNoCheck : Adds Q (Remote.runNoCheck B host cmd) :=
  fun _ => ⟨[_], rfl, by simpa using hQ _⟩

theorem remoteRun (address : String) : Adds Q (Remote.run B host address cmd check) :=
  bind (runNoCheck hQ) fun _ => ite (fun _ => raise _) fun _ => pure _

theorem run : Adds Q (clients.run B host cmd check) := by
  unfold Clients.run
  split
  · exact remoteRun hQ _
  · exact raise _

theorem clientsRunNoCheck : Adds Q (clients.runNoCheck B host cmd) := by
  unfold Clients.runNoCheck
  split
  · exact runNoCheck hQ
  · exact raise _

theorem runIfPresent : Adds Q (clients.runIfPresent B host cmd) := by
  unfold Clients.runIfPresent
  split
  · exact bind (remoteRun hQ _) fun _ => pure _
  · exact pure _

end Commands

end Adds

end Dnlab
