import Mathlib.Data.List.Basic

/-!
# Records of a stream

A stream is cut into records by a function that takes the first record off, if
all of it has arrived (`Framing`). It must not look at what follows the record:
then a reader that keeps what is left of one chunk, and puts it before the next
one, sees the records of the whole stream (`Framing.split_append`).
-/

namespace Dnlab

/-- How a stream of `β` is cut into records. -/
structure Framing (β α : Type*) where
  /-- The first record and what follows it, if all of the record is there. -/
  next : List β → Option (α × List β)
  length_lt : ∀ {l a rest}, next l = some (a, rest) → rest.length < l.length
  append : ∀ {l a rest}, next l = some (a, rest) → ∀ m, next (l ++ m) = some (a, rest ++ m)

namespace Framing

variable {β α : Type*} (F : Framing β α)

/-- The records of a stream, and what is left. -/
def split (l : List β) : List α × List β :=
  match h : F.next l with
  | none => ([], l)
  | some (a, rest) =>
    have := F.length_lt h
    (a :: (split rest).1, (split rest).2)
termination_by l.length

variable {F} {l m rest : List β} {a : α}

theorem split_of_none (h : F.next l = none) : F.split l = ([], l) := by
  rw [split]
  split
  · rfl
  · rename_i h'
    rw [h] at h'
    cases h'

theorem split_of_some (h : F.next l = some (a, rest)) :
    F.split l = (a :: (F.split rest).1, (F.split rest).2) := by
  rw [split]
  split
  · rename_i h'
    rw [h] at h'
    cases h'
  · rename_i h'
    rw [h] at h'
    cases h'
    rfl

/-- What is left of a stream is read again with what comes next. -/
theorem split_append (l m : List β) : F.split (l ++ m) =
    ((F.split l).1 ++ (F.split ((F.split l).2 ++ m)).1, (F.split ((F.split l).2 ++ m)).2) := by
  induction l using split.induct F with
  | case1 l h => rw [split_of_none h, List.nil_append]
  | case2 l a rest h hlt ih =>
    rw [split_of_some (F.append h m), split_of_some h, ih]
    rfl

end Framing

end Dnlab
