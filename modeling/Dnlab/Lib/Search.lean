import Mathlib.Data.Finset.Card
import Mathlib.Data.Finset.Image

/-!
# The first free candidate

`i = start; while f(i) in used: i += 1`. The candidates are distinct, so that
among `used.length + 1` of them one is free: the loop ends within `used.length`
steps (`firstFree_notMem`), at the first free candidate (`mem_of_lt_firstFree`).
-/

namespace Search

universe u

variable {α : Type u} [DecidableEq α]

/-- The loop, for at most `fuel` steps. -/
def seek (f : ℕ → α) (used : List α) : (fuel : ℕ) → ℕ → ℕ
  | 0, i => i
  | fuel + 1, i => if f i ∈ used then seek f used fuel (i + 1) else i

/-- The first `i` from `start` on with `f i` not in `used`. -/
def firstFree (f : ℕ → α) (used : List α) (start : ℕ) : ℕ := seek f used used.length start

theorem le_seek (f : ℕ → α) (used : List α) (fuel i : ℕ) : i ≤ seek f used fuel i := by
  induction fuel generalizing i with
  | zero => exact le_rfl
  | succ fuel ih =>
    rw [seek]
    split
    · exact (Nat.le_succ i).trans (ih (i + 1))
    · exact le_rfl

theorem mem_of_lt_seek {f : ℕ → α} {used : List α} {fuel i j : ℕ} (hi : i ≤ j)
    (hj : j < seek f used fuel i) : f j ∈ used := by
  induction fuel generalizing i with
  | zero => exact absurd hj (not_lt.2 hi)
  | succ fuel ih =>
    rw [seek] at hj
    split at hj
    · rcases hi.eq_or_lt with rfl | hlt
      · assumption
      · exact ih hlt hj
    · exact absurd hj (not_lt.2 hi)

/-- A search that meets a used candidate at its end has used up its fuel. -/
theorem seek_eq_of_mem {f : ℕ → α} {used : List α} {fuel i : ℕ}
    (h : f (seek f used fuel i) ∈ used) : seek f used fuel i = i + fuel := by
  induction fuel generalizing i with
  | zero => rfl
  | succ fuel ih =>
    rw [seek] at h ⊢
    split at h
    · rw [if_pos ‹_›, ih h]
      omega
    · exact absurd h ‹_›

theorem le_firstFree (f : ℕ → α) (used : List α) (start : ℕ) : start ≤ firstFree f used start :=
  le_seek f used _ start

theorem mem_of_lt_firstFree {f : ℕ → α} {used : List α} {start j : ℕ} (hs : start ≤ j)
    (hj : j < firstFree f used start) : f j ∈ used :=
  mem_of_lt_seek hs hj

/-- The candidate found is free. -/
theorem firstFree_notMem {f : ℕ → α} (hf : Function.Injective f) (used : List α) (start : ℕ) :
    f (firstFree f used start) ∉ used := by
  intro h
  have hend : firstFree f used start = start + used.length := seek_eq_of_mem h
  have hall : (Finset.range (used.length + 1)).image (fun i => f (start + i)) ⊆ used.toFinset := by
    intro a ha
    obtain ⟨i, hi, rfl⟩ := Finset.mem_image.1 ha
    rw [List.mem_toFinset]
    rcases (Nat.lt_succ_iff.1 (Finset.mem_range.1 hi)).eq_or_lt with rfl | hlt
    · exact hend ▸ h
    · exact mem_of_lt_firstFree (Nat.le_add_right _ _) (by omega)
  have hcard := Finset.card_le_card hall
  rw [Finset.card_image_of_injective _ fun i j hij => Nat.add_left_cancel (hf hij),
    Finset.card_range] at hcard
  have := List.toFinset_card_le used
  omega

end Search
