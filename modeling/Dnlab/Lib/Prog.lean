import Mathlib.Data.List.Forall2
import Mathlib.Logic.Basic
import Mathlib.Order.Defs.Unbundled

/-!
# Programs with state and exceptions

A program takes a state to a value or an exception, and to the state it leaves:
what a program did before it raised an exception is not undone. Its rules are
those of a Hoare logic with two postconditions, one for a normal end and one
for an exception (`Triple`), and the special case of an assertion that holds
throughout (`Keeps`).
-/

universe u v w

/-- A program on the states `σ`, with the exceptions `ε` and the values `α`. -/
def Prog (σ : Type u) (ε : Type v) (α : Type w) : Type (max u v w) := σ → Except ε α × σ

namespace Prog

variable {σ τ ε α β : Type} {I : σ → Prop}

/-- `p` from the state `s`: its value or exception, and the state it leaves. -/
def run (p : Prog σ ε α) (s : σ) : Except ε α × σ := p s

/-- Run `p`, then `f` on its value, unless `p` raised an exception. -/
def andThen (p : Prog σ ε α) (f : α → Prog σ ε β) : Prog σ ε β := fun s =>
  match p s with
  | (.ok a, s') => f a s'
  | (.error e, s') => (.error e, s')

instance : Monad (Prog σ ε) where
  pure a := fun s => (.ok a, s)
  bind := andThen

/-- Raise `e`. -/
def raise (e : ε) : Prog σ ε α := fun s => (.error e, s)

/-- The state. -/
def get : Prog σ ε σ := fun s => (.ok s, s)

/-- Change the state. -/
def modify (f : σ → σ) : Prog σ ε Unit := fun s => (.ok (), f s)

/-- A value, or an exception. -/
def ofExcept : Except ε α → Prog σ ε α
  | .ok a => pure a
  | .error e => raise e

/-- Run `p`, and `h` on the exception it raises. -/
def rescue (p : Prog σ ε α) (h : ε → Prog σ ε α) : Prog σ ε α := fun s =>
  match p s with
  | (.ok a, s') => (.ok a, s')
  | (.error e, s') => h e s'

/-- Run `p` and swallow the exception it raises. -/
def quietly (p : Prog σ ε Unit) : Prog σ ε Unit := p.rescue fun _ => pure ()

/-- Run `p` if `c` holds. -/
def when (p : Prog σ ε Unit) (c : Prop) [Decidable c] : Prog σ ε Unit := if c then p else pure ()

/-- Run `p` and return how it ended. -/
def attempt (p : Prog σ ε α) : Prog σ ε (Except ε α) := fun s =>
  let (r, s') := p s
  (.ok r, s')

/-- Run `p` on a part of the state. -/
def onPart (part : τ → σ) (put : τ → σ → τ) (p : Prog σ ε α) : Prog τ ε α := fun t =>
  let (r, s) := p (part t)
  (r, put t s)

/-- Run `body` with local variables, starting from `l`, and `h` on the exception it raises and on
    the values the local variables have then. -/
def withLocals {φ : Type} (l : φ) (body : Prog (σ × φ) ε α) (h : ε → φ → Prog σ ε α) :
    Prog σ ε α := fun s =>
  match body (s, l) with
  | (.ok a, s', _) => (.ok a, s')
  | (.error e, s', l') => h e l' s'

/-- A program that does not touch the local variables. -/
def lift {φ : Type} (p : Prog σ ε α) : Prog (σ × φ) ε α := p.onPart Prod.fst fun t s => (s, t.2)

/-- Change the local variables. -/
def setLocals {φ : Type} (f : φ → φ) : Prog (σ × φ) ε Unit := modify fun t => (t.1, f t.2)

/-- `f` on the elements of a list, in order. -/
def forEach : (l : List β) → (f : β → Prog σ ε Unit) → Prog σ ε Unit
  | [], _ => pure ()
  | b :: l, f => do
    f b
    forEach l f

/-- `f` on the elements of a list, in order, with its values. -/
def mapEach : (l : List β) → (f : β → Prog σ ε α) → Prog σ ε (List α)
  | [], _ => pure []
  | b :: l, f => do
    let a ← f b
    let as ← mapEach l f
    pure (a :: as)

section Run

variable (s : σ)

@[simp] theorem run_pure (a : α) : (pure a : Prog σ ε α).run s = (.ok a, s) := rfl

@[simp] theorem run_raise (e : ε) : (raise e : Prog σ ε α).run s = (.error e, s) := rfl

@[simp] theorem run_get : (get : Prog σ ε σ).run s = (.ok s, s) := rfl

@[simp] theorem run_modify (f : σ → σ) : (modify f : Prog σ ε Unit).run s = (.ok (), f s) := rfl

theorem run_bind (p : Prog σ ε α) (f : α → Prog σ ε β) :
    (p >>= f).run s = match p.run s with
      | (.ok a, s') => (f a).run s'
      | (.error e, s') => (.error e, s') := rfl

theorem run_rescue (p : Prog σ ε α) (h : ε → Prog σ ε α) :
    (p.rescue h).run s = match p.run s with
      | (.ok a, s') => (.ok a, s')
      | (.error e, s') => (h e).run s' := rfl

theorem run_withLocals {φ : Type} (l : φ) (body : Prog (σ × φ) ε α) (h : ε → φ → Prog σ ε α) :
    (body.withLocals l h).run s = match body.run (s, l) with
      | (.ok a, s', _) => (.ok a, s')
      | (.error e, s', l') => (h e l').run s' := rfl

theorem run_lift {φ : Type} (p : Prog σ ε α) (l : φ) :
    p.lift.run (s, l) = ((p.run s).1, (p.run s).2, l) := rfl

theorem run_bind_ok {p : Prog σ ε α} {f : α → Prog σ ε β} {s s' : σ} {a : α}
    (h : p.run s = (.ok a, s')) : (p >>= f).run s = (f a).run s' := by
  rw [run_bind, h]

theorem run_bind_error {p : Prog σ ε α} {f : α → Prog σ ε β} {s s' : σ} {e : ε}
    (h : p.run s = (.error e, s')) : (p >>= f).run s = (.error e, s') := by
  rw [run_bind, h]

/-- A sequence that ends normally passed through its first part. -/
theorem run_bind_eq_ok {p : Prog σ ε α} {f : α → Prog σ ε β} {s s' : σ} {b : β}
    (h : (p >>= f).run s = (.ok b, s')) :
    ∃ a s₁, p.run s = (.ok a, s₁) ∧ (f a).run s₁ = (.ok b, s') := by
  rw [run_bind] at h
  split at h
  · exact ⟨_, _, ‹_›, h⟩
  · simp at h

end Run

/-! ## Triples -/

/-- From a state in `P`, `p` ends normally with `Q` or raises an exception with `E`. -/
def Triple (P : σ → Prop) (p : Prog σ ε α) (Q : α → σ → Prop) (E : ε → σ → Prop) : Prop :=
  ∀ s, P s → match p.run s with
    | (.ok a, s') => Q a s'
    | (.error e, s') => E e s'

namespace Triple

variable {P P' : σ → Prop} {Q Q' : α → σ → Prop} {E E' : ε → σ → Prop}

theorem pure {a : α} (h : ∀ s, P s → Q a s) : Triple P (Pure.pure a : Prog σ ε α) Q E := h

theorem raise {e : ε} (h : ∀ s, P s → E e s) : Triple P (Prog.raise e : Prog σ ε α) Q E := h

theorem get {Q : σ → σ → Prop} (h : ∀ s, P s → Q s s) : Triple P (Prog.get : Prog σ ε σ) Q E := h

theorem modify {f : σ → σ} {Q : Unit → σ → Prop} (h : ∀ s, P s → Q () (f s)) :
    Triple P (Prog.modify f : Prog σ ε Unit) Q E := h

theorem bind {p : Prog σ ε α} {f : α → Prog σ ε β} {R : β → σ → Prop} (hp : Triple P p Q E)
    (hf : ∀ a, Triple (Q a) (f a) R E) : Triple P (p >>= f) R E := by
  intro s hs
  have hp' := hp s hs
  rw [run_bind]
  rcases h : p.run s with ⟨e | a, s'⟩ <;> rw [h] at hp'
  · exact hp'
  · exact hf a s' hp'

theorem rescue {p : Prog σ ε α} {h : ε → Prog σ ε α} (hp : Triple P p Q E)
    (hh : ∀ e, Triple (E e) (h e) Q E') : Triple P (p.rescue h) Q E' := by
  intro s hs
  have hp' := hp s hs
  rw [run_rescue]
  rcases h : p.run s with ⟨e | a, s'⟩ <;> rw [h] at hp'
  · exact hh e s' hp'
  · exact hp'

theorem weaken {p : Prog σ ε α} (hp : Triple P p Q E) (hP : ∀ s, P' s → P s)
    (hQ : ∀ a s, Q a s → Q' a s) (hE : ∀ e s, E e s → E' e s) : Triple P' p Q' E' := by
  intro s hs
  have hp' := hp s (hP s hs)
  rcases h : p.run s with ⟨e | a, s'⟩ <;> rw [h] at hp'
  · exact hE e s' hp'
  · exact hQ a s' hp'

/-- A program that raises no exception. -/
theorem noError {p : Prog σ ε α} (hp : Triple P p Q fun _ _ => False) : Triple P p Q E :=
  hp.weaken (fun _ hs => hs) (fun _ _ hs => hs) fun _ _ h => h.elim

theorem onError {p : Prog σ ε α} (hp : Triple P p Q E) (hE : ∀ e s, E e s → E' e s) :
    Triple P p Q E' :=
  hp.weaken (fun _ hs => hs) (fun _ _ hs => hs) hE

theorem of_run_both {p : Prog σ ε α} {I : σ → Prop} (h : ∀ s, P s → I (p.run s).2) :
    Triple P p (fun _ => I) fun _ => I := by
  intro s hs
  have := h s hs
  rcases heq : p.run s with ⟨e | a, s'⟩ <;> rw [heq] at this <;> exact this

theorem of_keeps {p : Prog σ ε α} (h : ∀ s, P s → P (p.run s).2) :
    Triple P p (fun _ => P) fun _ => P :=
  of_run_both h

theorem ofExcept (r : Except ε α) :
    Triple P (Prog.ofExcept r : Prog σ ε α) (fun a s => P s ∧ r = .ok a) fun _ => P := by
  intro s hs
  cases r
  · exact hs
  · exact ⟨hs, rfl⟩

/-- What is known of a result that may be an exception. -/
theorem attempt {p : Prog σ ε α} {R : α → Prop} {E' : ε → σ → Prop}
    (hp : Triple P p (fun a s => P s ∧ R a) fun _ => P) :
    Triple P p.attempt (fun r s => P s ∧ ∀ a, r = .ok a → R a) E' := by
  intro s hs
  have hp' := hp s hs
  show match (Except.ok (p.run s).1, (p.run s).2) with
    | (.ok a, s') => P s' ∧ ∀ a', a = .ok a' → R a'
    | (.error e, s') => E' e s'
  rcases h : p.run s with ⟨e | a, s'⟩ <;> rw [h] at hp'
  · exact ⟨hp', fun a ha => by cases ha⟩
  · exact ⟨hp'.1, fun a' ha => Except.ok.inj ha ▸ hp'.2⟩

/-- What is known of the results, one for each element of the list. -/
theorem mapEach {l : List β} {f : β → Prog σ ε α} {R : β → α → Prop}
    (h : ∀ b ∈ l, Triple P (f b) (fun a s => P s ∧ R b a) E) :
    Triple P (Prog.mapEach l f) (fun m s => P s ∧ List.Forall₂ R l m) E := by
  induction l with
  | nil => exact pure fun s hs => ⟨hs, .nil⟩
  | cons b l ih =>
    refine bind (h b List.mem_cons_self) fun a => ?_
    have hrest := ih fun b' hb' => h b' (List.mem_cons_of_mem _ hb')
    refine bind (Q := fun m s => P s ∧ R b a ∧ List.Forall₂ R l m) ?_ fun m =>
      pure fun s hs => ⟨hs.1, .cons hs.2.1 hs.2.2⟩
    intro s hs
    have hm := hrest s hs.1
    rcases heq : (Prog.mapEach l f).run s with ⟨e | m, s'⟩ <;> rw [heq] at hm
    · exact hm
    · exact ⟨hm.1, hs.2, hm.2⟩

/-- The results, where each is a function of its element. -/
theorem mapEach_eq {l : List β} {f : β → Prog σ ε α} {g : β → α}
    (h : ∀ b ∈ l, Triple P (f b) (fun a s => P s ∧ a = g b) E) :
    Triple P (Prog.mapEach l f) (fun m s => P s ∧ m = l.map g) E := by
  refine (mapEach (R := fun b a => a = g b) h).weaken (fun _ hs => hs) (fun m s hs => ?_)
    fun _ _ hs => hs
  refine ⟨hs.1, ?_⟩
  have hall := hs.2
  clear hs h
  induction hall with
  | nil => rfl
  | cons hb _ ih => rw [List.map_cons, hb, ih]

/-- What holds before may depend on a fact about the inputs. -/
theorem of_and {F : Prop} {p : Prog σ ε α} (h : F → Triple P p Q E) :
    Triple (fun s => P s ∧ F) p Q E := fun s hs => h hs.2 s hs.1

theorem of_exists {β : Type*} {P : β → σ → Prop} {p : Prog σ ε α}
    (h : ∀ b, Triple (P b) p Q E) : Triple (fun s => ∃ b, P b s) p Q E :=
  fun s ⟨b, hs⟩ => h b s hs

/-- What two triples say of one program. -/
theorem and {p : Prog σ ε α} (hp : Triple P p Q E) (hp' : Triple P' p Q' E') :
    Triple (fun s => P s ∧ P' s) p (fun a s => Q a s ∧ Q' a s) fun e s => E e s ∧ E' e s := by
  intro s hs
  have h := hp s hs.1
  have h' := hp' s hs.2
  rcases heq : p.run s with ⟨e | a, s'⟩ <;> rw [heq] at h h' <;> exact ⟨h, h'⟩

/-- A program whose exceptions are swallowed raises none. -/
theorem quietly {p : Prog σ ε Unit} (hp : ∀ s, P s → P (p.run s).2) :
    Triple P p.quietly (fun _ => P) fun _ _ => False :=
  rescue (of_keeps hp) fun _ => pure fun _ hs => hs

theorem ite {c : Prop} [Decidable c] {p q : Prog σ ε α} (hp : c → Triple P p Q E)
    (hq : ¬c → Triple P q Q E) : Triple P (if c then p else q) Q E := by
  split
  · exact hp ‹c›
  · exact hq ‹¬c›

theorem when {c : Prop} [Decidable c] {p : Prog σ ε Unit}
    (hp : c → Triple P p (fun _ => P) E) : Triple P (p.when c) (fun _ => P) E :=
  ite hp fun _ => pure fun _ hs => hs

theorem lift {φ : Type} {p : Prog σ ε α} (hp : Triple P p Q E) (R : φ → Prop) :
    Triple (fun t => P t.1 ∧ R t.2) p.lift (fun a t => Q a t.1 ∧ R t.2)
      fun e t => E e t.1 ∧ R t.2 := by
  rintro ⟨s, l⟩ ⟨hs, hl⟩
  have hp' := hp s hs
  rw [run_lift]
  rcases heq : p.run s with ⟨e | a, s'⟩ <;> rw [heq] at hp' <;> exact ⟨hp', hl⟩

theorem withLocals {φ : Type} {l : φ} {body : Prog (σ × φ) ε α} {h : ε → φ → Prog σ ε α}
    (E' : ε → σ × φ → Prop)
    (hb : Triple (fun t => P t.1 ∧ t.2 = l) body (fun a t => Q a t.1) E')
    (hh : ∀ e l', Triple (fun s => E' e (s, l')) (h e l') Q E) :
    Triple P (body.withLocals l h) Q E := by
  intro s hs
  have hb' := hb (s, l) ⟨hs, rfl⟩
  rw [run_withLocals]
  rcases heq : body.run (s, l) with ⟨e | a, s', l'⟩ <;> rw [heq] at hb'
  · exact hh e l' s' hb'
  · exact hb'

theorem run_both {p : Prog σ ε α} {I : σ → Prop} (hp : Triple P p (fun _ => I) fun _ => I) {s : σ}
    (hs : P s) : I (p.run s).2 := by
  have := hp s hs
  rcases heq : p.run s with ⟨e | a, s'⟩ <;> rw [heq] at this <;> exact this

theorem run_ok {p : Prog σ ε α} (hp : Triple P p Q E) {s s' : σ} {a : α} (hs : P s)
    (h : p.run s = (.ok a, s')) : Q a s' := by
  have := hp s hs
  rwa [h] at this

theorem run_error {p : Prog σ ε α} (hp : Triple P p Q E) {s s' : σ} {e : ε} (hs : P s)
    (h : p.run s = (.error e, s')) : E e s' := by
  have := hp s hs
  rwa [h] at this

end Triple

/-! ## Assertions that hold throughout -/

/-- `p` keeps `I`, however it ends. -/
def Keeps (I : σ → Prop) (p : Prog σ ε α) : Prop := ∀ s, I s → I (p.run s).2

namespace Keeps

theorem iff_triple {p : Prog σ ε α} : Keeps I p ↔ Triple I p (fun _ => I) fun _ => I := by
  refine forall₂_congr fun s _ => ?_
  cases h : p.run s with
  | mk r s' => cases r <;> exact Iff.rfl

theorem pure (a : α) : Keeps I (Pure.pure a : Prog σ ε α) := fun _ h => h

theorem raise (e : ε) : Keeps I (Prog.raise e : Prog σ ε α) := fun _ h => h

theorem get : Keeps I (Prog.get : Prog σ ε σ) := fun _ h => h

/-- A program that starts by reading the state. -/
theorem get_bind {f : σ → Prog σ ε α} (h : ∀ s, I s → I ((f s).run s).2) :
    Keeps I (Prog.get >>= f) := h

theorem modify {f : σ → σ} (h : ∀ s, I s → I (f s)) : Keeps I (Prog.modify f : Prog σ ε Unit) := h

theorem ofExcept (r : Except ε α) : Keeps I (Prog.ofExcept r : Prog σ ε α) := by
  cases r
  · exact raise _
  · exact pure _

theorem bind {p : Prog σ ε α} {f : α → Prog σ ε β} (hp : Keeps I p) (hf : ∀ a, Keeps I (f a)) :
    Keeps I (p >>= f) :=
  iff_triple.2 (.bind (iff_triple.1 hp) fun a => iff_triple.1 (hf a))

theorem rescue {p : Prog σ ε α} {h : ε → Prog σ ε α} (hp : Keeps I p) (hh : ∀ e, Keeps I (h e)) :
    Keeps I (p.rescue h) :=
  iff_triple.2 (.rescue (iff_triple.1 hp) fun e => iff_triple.1 (hh e))

theorem quietly {p : Prog σ ε Unit} (hp : Keeps I p) : Keeps I p.quietly :=
  rescue hp fun _ => pure ()

theorem attempt {p : Prog σ ε α} (hp : Keeps I p) : Keeps I p.attempt := hp

theorem ite {c : Prop} [Decidable c] {p q : Prog σ ε α} (hp : c → Keeps I p)
    (hq : ¬c → Keeps I q) : Keeps I (if c then p else q) := by
  split
  · exact hp ‹c›
  · exact hq ‹¬c›

theorem when {c : Prop} [Decidable c] {p : Prog σ ε Unit} (hp : c → Keeps I p) :
    Keeps I (p.when c) :=
  ite hp fun _ => pure ()

theorem onPart {part : τ → σ} {put : τ → σ → τ} {J : τ → Prop} {p : Prog σ ε α}
    (h : ∀ t, J t → J (put t (p.run (part t)).2)) : Keeps J (p.onPart part put) := h

theorem lift {φ : Type} {p : Prog σ ε α} {J : σ × φ → Prop}
    (h : ∀ l, Keeps (fun s => J (s, l)) p) : Keeps J p.lift := fun t ht => h t.2 t.1 ht

theorem withLocals {φ : Type} {l : φ} {body : Prog (σ × φ) ε α} {h : ε → φ → Prog σ ε α}
    (hb : Keeps (fun t => I t.1) body) (hh : ∀ e l, Keeps I (h e l)) :
    Keeps I (body.withLocals l h) := by
  intro s hs
  have hb' := hb (s, l) hs
  rw [run_withLocals]
  rcases heq : body.run (s, l) with ⟨e | a, s', l'⟩ <;> rw [heq] at hb'
  · exact hh e l' s' hb'
  · exact hb'

theorem forEach {l : List β} {f : β → Prog σ ε Unit} (h : ∀ b ∈ l, Keeps I (f b)) :
    Keeps I (Prog.forEach l f) := by
  induction l with
  | nil => exact pure ()
  | cons b l ih =>
    exact bind (h b List.mem_cons_self) fun _ => ih fun b' hb' => h b' (List.mem_cons_of_mem _ hb')

theorem mapEach {l : List β} {f : β → Prog σ ε α} (h : ∀ b ∈ l, Keeps I (f b)) :
    Keeps I (Prog.mapEach l f) := by
  induction l with
  | nil => exact pure []
  | cons b l ih =>
    refine bind (h b List.mem_cons_self) fun a => bind (ih fun b' hb' => ?_) fun _ => pure _
    exact h b' (List.mem_cons_of_mem _ hb')

theorem run {p : Prog σ ε α} (h : Keeps I p) {s s' : σ} {r : Except ε α} (hs : I s)
    (hr : p.run s = (r, s')) : I s' := by
  have := h s hs
  rwa [hr] at this

end Keeps

/-! ## Transitions -/

/-- `p` takes every state to one that is related to it, however it ends. -/
def Within (R : σ → σ → Prop) (p : Prog σ ε α) : Prop := ∀ s, R s (p.run s).2

namespace Within

variable {R R' : σ → σ → Prop}

theorem mono {p : Prog σ ε α} (hp : Within R p) (h : ∀ s s', R s s' → R' s s') : Within R' p :=
  fun s => h _ _ (hp s)

theorem keeps {p : Prog σ ε α} (hp : Within R p) (h : ∀ s s', R s s' → I s → I s') : Keeps I p :=
  fun s => h _ _ (hp s)

theorem attempt {p : Prog σ ε α} (hp : Within R p) : Within R p.attempt := hp

theorem modify {f : σ → σ} (h : ∀ s, R s (f s)) : Within R (Prog.modify f : Prog σ ε Unit) := h

theorem ite {c : Prop} [Decidable c] {p q : Prog σ ε α} (hp : c → Within R p)
    (hq : ¬c → Within R q) : Within R (if c then p else q) := by
  split
  · exact hp ‹c›
  · exact hq ‹¬c›

section Reflexive

variable [Std.Refl R]

theorem pure (a : α) : Within R (Pure.pure a : Prog σ ε α) := fun s => Std.Refl.refl s

theorem raise (e : ε) : Within R (Prog.raise e : Prog σ ε α) := fun s => Std.Refl.refl s

theorem get : Within R (Prog.get : Prog σ ε σ) := fun s => Std.Refl.refl s

theorem ofExcept (r : Except ε α) : Within R (Prog.ofExcept r : Prog σ ε α) := by
  cases r
  · exact raise _
  · exact pure _

theorem when {c : Prop} [Decidable c] {p : Prog σ ε Unit} (hp : c → Within R p) :
    Within R (p.when c) :=
  ite hp fun _ => pure ()

end Reflexive

section Transitive

variable [IsTrans σ R]

theorem bind {p : Prog σ ε α} {f : α → Prog σ ε β} (hp : Within R p) (hf : ∀ a, Within R (f a)) :
    Within R (p >>= f) := by
  intro s
  have hp' := hp s
  rw [run_bind]
  rcases h : p.run s with ⟨e | a, s'⟩ <;> rw [h] at hp'
  · exact hp'
  · exact IsTrans.trans _ _ _ hp' (hf a s')

theorem rescue {p : Prog σ ε α} {h : ε → Prog σ ε α} (hp : Within R p) (hh : ∀ e, Within R (h e)) :
    Within R (p.rescue h) := by
  intro s
  have hp' := hp s
  rw [run_rescue]
  rcases heq : p.run s with ⟨e | a, s'⟩ <;> rw [heq] at hp'
  · exact IsTrans.trans _ _ _ hp' (hh e s')
  · exact hp'

variable [Std.Refl R]

theorem quietly {p : Prog σ ε Unit} (hp : Within R p) : Within R p.quietly :=
  rescue hp fun _ => pure ()

theorem forEach {l : List β} {f : β → Prog σ ε Unit} (h : ∀ b ∈ l, Within R (f b)) :
    Within R (Prog.forEach l f) := by
  induction l with
  | nil => exact pure ()
  | cons b l ih =>
    exact bind (h b List.mem_cons_self) fun _ => ih fun b' hb' => h b' (List.mem_cons_of_mem _ hb')

theorem mapEach {l : List β} {f : β → Prog σ ε α} (h : ∀ b ∈ l, Within R (f b)) :
    Within R (Prog.mapEach l f) := by
  induction l with
  | nil => exact pure []
  | cons b l ih =>
    refine bind (h b List.mem_cons_self) fun a => bind (ih fun b' hb' => ?_) fun _ => pure _
    exact h b' (List.mem_cons_of_mem _ hb')

end Transitive

end Within

/-! ## The exceptions of a program -/

/-- `p` raises exceptions in `E` only. -/
def Raises (E : ε → Prop) (p : Prog σ ε α) : Prop := ∀ s e, (p.run s).1 = .error e → E e

namespace Raises

variable {E E' : ε → Prop}

theorem pure (a : α) : Raises E (Pure.pure a : Prog σ ε α) := fun _ _ h => by cases h

theorem raise {e : ε} (he : E e) : Raises E (Prog.raise e : Prog σ ε α) := by
  intro s e' h
  cases h
  exact he

theorem get : Raises E (Prog.get : Prog σ ε σ) := fun _ _ h => by cases h

theorem ofExcept {r : Except ε α} (h : ∀ e, r = .error e → E e) :
    Raises E (Prog.ofExcept r : Prog σ ε α) := by
  cases r with
  | ok a => exact pure a
  | error e => exact raise (h e rfl)

theorem mono {p : Prog σ ε α} (hp : Raises E p) (h : ∀ e, E e → E' e) : Raises E' p :=
  fun s e he => h e (hp s e he)

theorem bind {p : Prog σ ε α} {f : α → Prog σ ε β} (hp : Raises E p) (hf : ∀ a, Raises E (f a)) :
    Raises E (p >>= f) := by
  intro s e he
  rw [run_bind] at he
  rcases h : p.run s with ⟨e' | a, s'⟩ <;> rw [h] at he
  · cases he
    exact hp s _ (congrArg Prod.fst h)
  · exact hf a s' e he

theorem ite {c : Prop} [Decidable c] {p q : Prog σ ε α} (hp : c → Raises E p)
    (hq : ¬c → Raises E q) : Raises E (if c then p else q) := by
  split
  · exact hp ‹c›
  · exact hq ‹¬c›

/-- A program that is run to its end and then judged by how it ended. -/
theorem attempt_bind {p : Prog σ ε α} {f : Except ε α → Prog σ ε β} (hp : Raises E p)
    (hok : ∀ a, Raises E' (f (.ok a))) (herr : ∀ e, E e → Raises E' (f (.error e))) :
    Raises E' (p.attempt >>= f) := by
  intro s e he
  have hrun : (p.attempt >>= f).run s = (f (p.run s).1).run (p.run s).2 := rfl
  rw [hrun] at he
  rcases h : (p.run s).1 with e' | a <;> rw [h] at he
  · exact herr e' (hp s e' h) _ e he
  · exact hok a _ e he

theorem onPart {part : τ → σ} {put : τ → σ → τ} {p : Prog σ ε α} (hp : Raises E p) :
    Raises E (p.onPart part put) := fun t e he => hp (part t) e he

theorem mapEach {l : List β} {f : β → Prog σ ε α} (h : ∀ b ∈ l, Raises E (f b)) :
    Raises E (Prog.mapEach l f) := by
  induction l with
  | nil => exact pure []
  | cons b l ih =>
    refine bind (h b List.mem_cons_self) fun a => bind (ih fun b' hb' => ?_) fun _ => pure _
    exact h b' (List.mem_cons_of_mem _ hb')

end Raises

end Prog
