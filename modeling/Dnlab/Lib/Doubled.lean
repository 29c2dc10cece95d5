import Mathlib.Data.List.Infix

/-!
# Doubled words

A word is doubled if it is a word, a separator, and the word again. Whether
a word that ends in the same thing twice is doubled is an equation between
words: `w·n·n = m·m`. Its solutions are found by cutting off what both sides end
in (`sandwich_iff`): the first word is that of an `Echo`, and the second a `chain`.
-/

namespace Doubled

variable {α : Type} (c : α)

/-- `z`, and `x` so many times behind it. -/
def chain (z x : List α) : ℕ → List α
  | 0 => z
  | k + 1 => chain z x k ++ c :: x

/-- Either `z` is `x`, and `w` is it twice; or `x` is `y·z`, and `w` is `y·z·z·y`. -/
def Echo (z x w : List α) : Prop :=
  z = x ∧ w = x ++ c :: x ∨ ∃ y, x = y ++ c :: z ∧ w = y ++ c :: (z ++ c :: (z ++ c :: y))

variable {c} {w n m x : List α}

/-- The last word of `m` is `n`, and the one before begins and ends `w·n`. -/
theorem doubled_iff_sandwich : w ++ c :: (n ++ c :: n) = m ++ c :: m ↔
    ∃ x, m = x ++ c :: n ∧ w ++ c :: n = x ++ c :: (n ++ c :: x) := by
  constructor
  · intro h
    have hlength := congrArg List.length h
    simp only [List.length_append, List.length_cons] at hlength
    -- `m` is longer than `n`, so that it ends in `·n`.
    have hn : c :: n <:+ m ++ c :: m := ⟨w ++ c :: n, by simpa using h⟩
    have hm : m <:+ m ++ c :: m := ⟨m ++ [c], by simp⟩
    obtain ⟨x, rfl⟩ : c :: n <:+ m :=
      List.suffix_of_suffix_length_le hn hm (by rw [List.length_cons]; omega)
    have hcut : (w ++ c :: n) ++ c :: n = (x ++ c :: (n ++ c :: x)) ++ c :: n := by simpa using h
    exact ⟨x, rfl, List.append_cancel_right hcut⟩
  · rintro ⟨x, rfl, h⟩
    calc w ++ c :: (n ++ c :: n) = (w ++ c :: n) ++ c :: n := by simp
      _ = (x ++ c :: (n ++ c :: x)) ++ c :: n := by rw [h]
      _ = x ++ c :: n ++ c :: (x ++ c :: n) := by simp

/-- What `n` ends in is cut off, as long as it is longer than `x`. -/
theorem sandwich_iff : w ++ c :: n = x ++ c :: (n ++ c :: x) ↔
    ∃ z k, Echo c z x w ∧ n = chain c z x k := by
  constructor
  · intro h
    induction hlen : n.length using Nat.strong_induction_on generalizing n with
    | _ len ih =>
    have hn : n <:+ x ++ c :: (n ++ c :: x) := ⟨w ++ [c], by simpa using h⟩
    have hx : x <:+ x ++ c :: (n ++ c :: x) := ⟨x ++ c :: (n ++ [c]), by simp⟩
    rcases lt_trichotomy n.length x.length with hlt | heq | hgt
    · -- `x` ends in `·n`.
      have hn' : c :: n <:+ x ++ c :: (n ++ c :: x) := ⟨w, h⟩
      obtain ⟨y, rfl⟩ : c :: n <:+ x :=
        List.suffix_of_suffix_length_le hn' hx (by rwa [List.length_cons])
      have hcut : w ++ c :: n = (y ++ c :: (n ++ c :: (n ++ c :: y))) ++ c :: n := by simpa using h
      exact ⟨n, 0, .inr ⟨y, rfl, List.append_cancel_right hcut⟩, rfl⟩
    · -- `x` is `n`.
      obtain rfl : n = x := (List.suffix_of_suffix_length_le hn hx heq.le).eq_of_length heq
      have hcut : w ++ c :: n = (n ++ c :: n) ++ c :: n := by simpa using h
      exact ⟨n, 0, .inl ⟨rfl, List.append_cancel_right hcut⟩, rfl⟩
    · -- `n` ends in `·x`, and what is before it solves the same equation.
      have hx' : c :: x <:+ x ++ c :: (n ++ c :: x) := ⟨x ++ c :: n, by simp⟩
      obtain ⟨z, rfl⟩ : c :: x <:+ n :=
        List.suffix_of_suffix_length_le hx' hn (by rwa [List.length_cons])
      have hcut : (w ++ c :: z) ++ c :: x = (x ++ c :: (z ++ c :: x)) ++ c :: x := by
        simpa using h
      obtain ⟨z', k, hecho, rfl⟩ :=
        ih z.length (by simp [← hlen]) (List.append_cancel_right hcut) rfl
      exact ⟨z', k + 1, hecho, rfl⟩
  · rintro ⟨z, k, hecho, rfl⟩
    induction k with
    | zero =>
      rcases hecho with ⟨rfl, rfl⟩ | ⟨y, rfl, rfl⟩ <;> simp [chain]
    | succ k ih =>
      calc w ++ c :: (chain c z x k ++ c :: x) = (w ++ c :: chain c z x k) ++ c :: x := by simp
        _ = (x ++ c :: (chain c z x k ++ c :: x)) ++ c :: x := by rw [ih]
        _ = x ++ c :: (chain c z x (k + 1) ++ c :: x) := by simp [chain]

/-- When a word that ends in `n` twice is `m` twice. -/
theorem doubled_iff : w ++ c :: (n ++ c :: n) = m ++ c :: m ↔
    ∃ z x k, Echo c z x w ∧ n = chain c z x k ∧ m = x ++ c :: n := by
  rw [doubled_iff_sandwich]
  constructor
  · rintro ⟨x, hm, h⟩
    obtain ⟨z, k, hecho, hn⟩ := sandwich_iff.1 h
    exact ⟨z, x, k, hecho, hn, hm⟩
  · rintro ⟨z, x, k, hecho, hn, hm⟩
    exact ⟨x, hm, sandwich_iff.2 ⟨z, k, hecho, hn⟩⟩

end Doubled
