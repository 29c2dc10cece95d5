import Mathlib.Data.List.Forall2

/-!
# Computations that may fail

When a sequence of computations that may fail succeeds: a bind, if both parts
do, and a traversal, if the computation does on every element.
-/

namespace ExceptRules

universe u v

variable {ε : Type u} {α β : Type v}

theorem bind_eq_ok {x : Except ε α} {f : α → Except ε β} {b : β} :
    (x >>= f) = .ok b ↔ ∃ a, x = .ok a ∧ f a = .ok b := by
  cases x with
  | error e => exact ⟨fun h => (by cases h), fun ⟨a, h, _⟩ => (by cases h)⟩
  | ok a =>
    refine ⟨fun h => ⟨a, rfl, h⟩, ?_⟩
    rintro ⟨a', h, hf⟩
    cases h
    exact hf

theorem pure_eq_ok {a b : α} : (pure a : Except ε α) = .ok b ↔ a = b :=
  ⟨fun h => (by cases h; rfl), fun h => h ▸ rfl⟩

theorem map_eq_ok {x : Except ε α} {f : α → β} {b : β} :
    x.map f = .ok b ↔ ∃ a, x = .ok a ∧ f a = b := by
  cases x with
  | error e => exact ⟨fun h => (by cases h), fun ⟨a, h, _⟩ => (by cases h)⟩
  | ok a =>
    refine ⟨fun h => ⟨a, rfl, (by cases h; rfl)⟩, ?_⟩
    rintro ⟨a', h, rfl⟩
    cases h
    rfl

/-- A traversal succeeds if each step does. -/
theorem mapM_eq_ok {f : α → Except ε β} {l : List α} {m : List β} :
    l.mapM f = .ok m ↔ List.Forall₂ (fun a b => f a = .ok b) l m := by
  induction l generalizing m with
  | nil =>
    rw [List.mapM_nil, pure_eq_ok]
    exact ⟨fun h => h ▸ .nil, fun h => (by cases h; rfl)⟩
  | cons a l ih =>
    rw [List.mapM_cons, bind_eq_ok]
    constructor
    · rintro ⟨b, hb, h⟩
      obtain ⟨m', hm', h⟩ := bind_eq_ok.1 h
      exact pure_eq_ok.1 h ▸ .cons hb (ih.1 hm')
    · rintro (_ | ⟨hb, hm⟩)
      exact ⟨_, hb, bind_eq_ok.2 ⟨_, ih.2 hm, rfl⟩⟩

/-- Steps that agree on the elements of a list can be exchanged. -/
theorem mapM_congr {f g : α → Except ε β} {l : List α} (h : ∀ a ∈ l, f a = g a) :
    l.mapM f = l.mapM g := by
  induction l with
  | nil => rfl
  | cons a l ih =>
    obtain ⟨ha, hl⟩ := List.forall_mem_cons.1 h
    rw [List.mapM_cons, List.mapM_cons, ha, ih hl]

theorem forall₂_exists {R : α → β → Prop} {l : List α} {m : List β} (h : List.Forall₂ R l m) {b : β}
    (hb : b ∈ m) : ∃ a ∈ l, R a b := by
  induction h with
  | nil => simp at hb
  | cons hab _ ih =>
    rcases List.mem_cons.1 hb with rfl | hb
    · exact ⟨_, List.mem_cons_self, hab⟩
    · obtain ⟨a, ha, hr⟩ := ih hb
      exact ⟨a, List.mem_cons_of_mem _ ha, hr⟩

theorem forall₂_exists' {R : α → β → Prop} {l : List α} {m : List β} (h : List.Forall₂ R l m)
    {a : α} (ha : a ∈ l) : ∃ b ∈ m, R a b :=
  forall₂_exists (R := fun b a => R a b) h.flip ha

/-- Lists related element by element have the same image if related elements do. -/
theorem flatMap_eq_of_forall₂ {γ : Type v} {R : α → β → Prop} {l : List α} {m : List β}
    {f : α → List γ} {g : β → List γ} (h : List.Forall₂ R l m) (hR : ∀ a b, R a b → g b = f a) :
    m.flatMap g = l.flatMap f := by
  induction h with
  | nil => rfl
  | cons hab _ ih => rw [List.flatMap_cons, List.flatMap_cons, hR _ _ hab, ih]

/-- A traversal with the values of another one, mapped. -/
theorem mapM_map_eq_ok {γ : Type v} {f : α → Except ε β} {g : α → Except ε γ} {k : β → γ}
    (h : ∀ a b, f a = .ok b → g a = .ok (k b)) {l : List α} {m : List β} (hm : l.mapM f = .ok m) :
    l.mapM g = .ok (m.map k) := by
  rw [mapM_eq_ok] at hm ⊢
  induction hm with
  | nil => exact .nil
  | cons hab _ ih => exact .cons (h _ _ hab) ih

/-- A traversal whose steps have known values if they succeed. -/
theorem mapM_eq_ok_map {f : α → Except ε β} {g : α → β} {p : α → Prop}
    (hf : ∀ a b, f a = .ok b ↔ b = g a ∧ p a) {l : List α} {m : List β} :
    l.mapM f = .ok m ↔ m = l.map g ∧ ∀ a ∈ l, p a := by
  rw [mapM_eq_ok]
  induction l generalizing m with
  | nil => simp
  | cons a l ih =>
    rw [List.forall₂_cons_left_iff]
    constructor
    · rintro ⟨b, m', hb, hm, rfl⟩
      obtain ⟨rfl, ha⟩ := (hf a b).1 hb
      obtain ⟨rfl, hl⟩ := ih.1 hm
      exact ⟨rfl, List.forall_mem_cons.2 ⟨ha, hl⟩⟩
    · rintro ⟨rfl, h⟩
      obtain ⟨ha, hl⟩ := List.forall_mem_cons.1 h
      exact ⟨g a, l.map g, (hf a _).2 ⟨rfl, ha⟩, ih.2 ⟨rfl, hl⟩, rfl⟩

/-- A traversal that changes nothing. -/
theorem mapM_eq_ok_self {α : Type v} {f : α → Except ε α} {l : List α} :
    l.mapM f = .ok l ↔ ∀ a ∈ l, f a = .ok a := by
  rw [mapM_eq_ok, List.forall₂_same]

theorem exists_of_isSome {x : Except ε α} (h : x.toOption.isSome = true) :
    ∃ a, x = .ok a := by
  cases x with
  | ok a => exact ⟨a, rfl⟩
  | error e => cases h

/-! ## Computations that do not fail -/

/-- A computation that succeeds. -/
def Succeeds (x : Except ε α) : Prop := ∃ a, x = .ok a

namespace Succeeds

theorem pure (a : α) : Succeeds (Pure.pure a : Except ε α) := ⟨a, rfl⟩

theorem bind {x : Except ε α} {f : α → Except ε β} (hx : Succeeds x)
    (hf : ∀ a, x = .ok a → Succeeds (f a)) : Succeeds (x >>= f) := by
  obtain ⟨a, ha⟩ := hx
  obtain ⟨b, hb⟩ := hf a ha
  exact ⟨b, bind_eq_ok.2 ⟨a, ha, hb⟩⟩

theorem ite {c : Prop} [Decidable c] {x y : Except ε α} (hx : c → Succeeds x)
    (hy : ¬c → Succeeds y) : Succeeds (if c then x else y) := by
  split
  · exact hx ‹c›
  · exact hy ‹¬c›

theorem bind_iff {x : Except ε α} {f : α → Except ε β} {p : Prop}
    (hf : ∀ a, x = .ok a → (Succeeds (f a) ↔ p)) : Succeeds (x >>= f) ↔ Succeeds x ∧ p := by
  constructor
  · rintro ⟨b, hb⟩
    obtain ⟨a, ha, hfa⟩ := bind_eq_ok.1 hb
    exact ⟨⟨a, ha⟩, (hf a ha).1 ⟨b, hfa⟩⟩
  · rintro ⟨hx, hp⟩
    exact hx.bind fun a ha => (hf a ha).2 hp

/-- A traversal succeeds if and only if the computation does on every element. -/
theorem mapM_iff {f : α → Except ε β} {l : List α} :
    Succeeds (l.mapM f) ↔ ∀ a ∈ l, Succeeds (f a) := by
  induction l with
  | nil => exact ⟨fun _ _ h => absurd h List.not_mem_nil, fun _ => ⟨[], rfl⟩⟩
  | cons a l ih =>
    rw [List.mapM_cons, bind_iff fun b _ => bind_iff (p := True) fun m _ => iff_true_intro (.pure _),
      and_true, ih, List.forall_mem_cons]

end Succeeds

end ExceptRules
