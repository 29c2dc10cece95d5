import Mathlib.Data.List.Infix

/-!
# Occurrences of a list in another

Where a list first occurs in another one (`firstIn`), and the replacement of what is
there (`replaceFirst`). A pattern is `Clear` of a block when neither contains the other
and no end of one is a beginning of the other: then it occurs in a text with the block
just when it occurs before or after the block (`Clear.infix_iff`), so that putting
another block in its place makes it appear or disappear nowhere.
-/

namespace Occurrence

variable {α : Type*} [DecidableEq α]

/-- What is before and after the first occurrence of a pattern. -/
def firstIn (p : List α) : List α → Option (List α × List α)
  | [] => if p = [] then some ([], []) else none
  | c :: l =>
    if p <+: c :: l then some ([], (c :: l).drop p.length)
    else (firstIn p l).map fun (a, b) => (c :: a, b)

/-- `text.replace(old, new, 1)`. -/
def replaceFirst (old new l : List α) : List α :=
  match firstIn old l with
  | some (a, b) => a ++ new ++ b
  | none => l

variable {p m a b l old new : List α}

theorem eq_of_firstIn (h : firstIn p l = some (a, b)) : l = a ++ p ++ b := by
  induction l generalizing a with
  | nil =>
    rw [firstIn] at h
    split at h
    · obtain ⟨rfl, rfl⟩ := Prod.mk.inj (Option.some.inj h)
      subst p
      rfl
    · cases h
  | cons c l ih =>
    rw [firstIn] at h
    split at h
    · rename_i hprefix
      obtain ⟨rfl, rfl⟩ := Prod.mk.inj (Option.some.inj h)
      obtain ⟨rest, hrest⟩ := hprefix
      rw [← hrest, List.drop_left, List.nil_append]
    · obtain ⟨⟨a', b'⟩, hsplit, h⟩ := Option.map_eq_some_iff.1 h
      obtain ⟨rfl, rfl⟩ := Prod.mk.inj h
      rw [ih hsplit, List.cons_append, List.cons_append]

theorem firstIn_eq_none : firstIn p l = none ↔ ¬p <:+: l := by
  induction l with
  | nil =>
    rw [firstIn, List.infix_nil]
    split <;> simp [*]
  | cons c l ih =>
    rw [firstIn, List.infix_cons_iff]
    split
    · simp [*]
    · rw [Option.map_eq_none_iff, ih]
      simp [*]

theorem exists_firstIn (h : p <:+: l) : ∃ a b, firstIn p l = some (a, b) ∧ l = a ++ p ++ b := by
  rcases hsplit : firstIn p l with _ | ⟨a, b⟩
  · exact absurd h (firstIn_eq_none.1 hsplit)
  · exact ⟨a, b, rfl, eq_of_firstIn hsplit⟩

/-- What comes later does not change where the first occurrence is. -/
theorem firstIn_append (h : firstIn p l = some (a, b)) (m : List α) :
    firstIn p (l ++ m) = some (a, b ++ m) := by
  induction l generalizing a with
  | nil =>
    rw [firstIn] at h
    split at h
    · obtain ⟨rfl, rfl⟩ := Prod.mk.inj (Option.some.inj h)
      subst p
      rcases m with _ | ⟨d, m⟩
      · rfl
      · exact if_pos List.nil_prefix
    · cases h
  | cons c l ih =>
    rw [firstIn] at h
    rw [List.cons_append, firstIn]
    split at h
    · rename_i hprefix
      obtain ⟨rfl, rfl⟩ := Prod.mk.inj (Option.some.inj h)
      have hlonger : p <+: c :: (l ++ m) := hprefix.trans (List.prefix_append (c :: l) m)
      have hdrop : (c :: (l ++ m)).drop p.length = (c :: l).drop p.length ++ m :=
        List.drop_append_of_le_length hprefix.length_le
      rw [if_pos hlonger, hdrop]
    · rename_i hnot
      obtain ⟨⟨a', b'⟩, hsplit, h⟩ := Option.map_eq_some_iff.1 h
      obtain ⟨rfl, rfl⟩ := Prod.mk.inj h
      have hlonger : ¬p <+: c :: (l ++ m) := by
        intro hprefix
        have hle : p.length ≤ (c :: l).length := by
          have hl := congrArg List.length (eq_of_firstIn hsplit)
          simp only [List.length_append, List.length_cons] at hl ⊢
          omega
        exact hnot (List.prefix_of_prefix_length_le hprefix (List.prefix_append (c :: l) m) hle)
      rw [if_neg hlonger, ih hsplit]
      rfl

theorem replaceFirst_of_firstIn (h : firstIn old l = some (a, b)) :
    replaceFirst old new l = a ++ new ++ b := by
  rw [replaceFirst, h]

theorem replaceFirst_of_absent (h : ¬old <:+: l) : replaceFirst old new l = l := by
  rw [replaceFirst, firstIn_eq_none.2 h]

/-- A longer text in the place of another one makes the whole longer. -/
theorem length_lt_replaceFirst (h : old <:+: l) (hlength : old.length < new.length) :
    l.length < (replaceFirst old new l).length := by
  obtain ⟨a, b, hsplit, rfl⟩ := exists_firstIn h
  rw [replaceFirst_of_firstIn hsplit]
  simp only [List.length_append]
  omega

theorem length_le_replaceFirst (hlength : old.length < new.length) :
    l.length ≤ (replaceFirst old new l).length := by
  by_cases h : old <:+: l
  · exact (length_lt_replaceFirst h hlength).le
  · rw [replaceFirst_of_absent h]

/-! ## Patterns that are clear of a block -/

/-- Neither contains the other, and no end of one is a beginning of the other. -/
structure Clear (p m : List α) : Prop where
  not_infix : ¬p <:+: m
  not_infix' : ¬m <:+: p
  not_prefix : ∀ s ∈ p.tails, s ≠ [] → ¬s <+: m
  not_suffix : ∀ s ∈ p.inits, s ≠ [] → ¬s <:+ m

/-- A beginning of a list that is an end of another, with both read backwards. -/
theorem forall_inits_iff {α : Type*} {p m : List α} : (∀ s ∈ p.inits, s ≠ [] → ¬s <:+ m) ↔
    ∀ s ∈ p.reverse.tails, s ≠ [] → ¬s <+: m.reverse := by
  constructor
  · intro h s hs hne hprefix
    rw [List.mem_tails, ← List.reverse_prefix, List.reverse_reverse] at hs
    refine h s.reverse ((List.mem_inits _ _).2 hs) (mt List.reverse_eq_nil_iff.1 hne) ?_
    rwa [← List.reverse_prefix, List.reverse_reverse]
  · intro h s hs hne hsuffix
    rw [List.mem_inits, ← List.reverse_suffix] at hs
    exact h s.reverse ((List.mem_tails _ _).2 hs) (mt List.reverse_eq_nil_iff.1 hne)
      (List.reverse_prefix.2 hsuffix)

instance : Decidable (Clear p m) :=
  decidable_of_iff (¬p <:+: m ∧ ¬m <:+: p ∧ (∀ s ∈ p.tails, s ≠ [] → ¬s <+: m) ∧
      ∀ s ∈ p.reverse.tails, s ≠ [] → ¬s <+: m.reverse)
    ⟨fun ⟨h, h', hp, hs⟩ => ⟨h, h', hp, forall_inits_iff.2 hs⟩,
      fun ⟨h, h', hp, hs⟩ => ⟨h, h', hp, forall_inits_iff.1 hs⟩⟩

omit [DecidableEq α] in
theorem Clear.ne_nil (h : Clear p m) : p ≠ [] := fun hp => h.not_infix (hp ▸ List.nil_infix)

omit [DecidableEq α] in
/-- A pattern does not begin in the block. -/
theorem Clear.not_prefix_of_suffix (h : Clear p m) {y : List α} (hy : y <:+ m) (hne : y ≠ [])
    (b : List α) : ¬p <+: y ++ b := by
  intro hp
  rcases List.prefix_or_prefix_of_prefix hp (List.prefix_append y b) with hp | hp
  · exact h.not_infix (hp.isInfix.trans hy.isInfix)
  · exact h.not_suffix y ((List.mem_inits _ _).2 hp) hne hy

omit [DecidableEq α] in
/-- A pattern that begins before the block ends before it. -/
theorem Clear.prefix_of_prefix (h : Clear p m) {y : List α} (hp : p <+: y ++ m ++ b) : p <+: y := by
  rw [List.append_assoc] at hp
  rcases List.prefix_or_prefix_of_prefix hp (List.prefix_append y (m ++ b)) with hp' | hy
  · exact hp'
  · -- The rest of the pattern is at the beginning of the block.
    obtain ⟨rest, rfl⟩ := hy
    rcases eq_or_ne rest [] with rfl | hne
    · rw [List.append_nil]
    · have hblock : rest <+: m ++ b := (List.prefix_append_right_inj y).1 hp
      rcases List.prefix_or_prefix_of_prefix hblock (List.prefix_append m b) with hm | hm
      · exact absurd hm (h.not_prefix rest ((List.mem_tails _ _).2 (List.suffix_append y rest)) hne)
      · exact absurd (hm.isInfix.trans (List.suffix_append y rest).isInfix) h.not_infix'

theorem Clear.firstIn_block (h : Clear p m) (b : List α) :
    firstIn p (m ++ b) = (firstIn p b).map fun (x, y) => (m ++ x, y) := by
  have hblock : ∀ y, y <:+ m → firstIn p (y ++ b) = (firstIn p b).map fun (x, z) => (y ++ x, z) := by
    intro y hy
    induction y with
    | nil =>
      rw [List.nil_append]
      rcases firstIn p b with _ | ⟨x, z⟩ <;> rfl
    | cons c y ih =>
      have hnot := h.not_prefix_of_suffix hy (List.cons_ne_nil c y) b
      rw [List.cons_append] at hnot ⊢
      rw [firstIn, if_neg hnot, ih ((List.suffix_cons c y).trans hy), Option.map_map]
      rfl
  exact hblock m (List.suffix_refl m)

/-- If not before the block, the first occurrence is after it. -/
theorem Clear.firstIn_after (h : Clear p m) (ha : ¬p <:+: a) (b : List α) :
    firstIn p (a ++ m ++ b) = (firstIn p b).map fun (x, y) => (a ++ m ++ x, y) := by
  induction a with
  | nil => exact h.firstIn_block b
  | cons c a ih =>
    have hnot : ¬p <+: c :: (a ++ m ++ b) := fun hp => ha (h.prefix_of_prefix hp).isInfix
    have hrest : ¬p <:+: a := fun hp => ha (hp.trans (List.suffix_cons c a).isInfix)
    rw [List.cons_append, List.cons_append, firstIn, if_neg hnot, ih hrest, Option.map_map]
    rfl

/-- A pattern that is clear of a block occurs before it or after it. -/
theorem Clear.infix_iff (h : Clear p m) : p <:+: a ++ m ++ b ↔ p <:+: a ∨ p <:+: b := by
  constructor
  · intro hp
    by_contra hnot
    rw [not_or] at hnot
    have hnone := h.firstIn_after hnot.1 b
    rw [firstIn_eq_none.2 hnot.2] at hnone
    exact firstIn_eq_none.1 hnone hp
  · rintro (hp | hp)
    · rw [List.append_assoc]
      exact hp.trans (List.prefix_append a (m ++ b)).isInfix
    · exact hp.trans (List.suffix_append (a ++ m) b).isInfix

/-- It does not matter which block it is that is replaced by another one. -/
theorem Clear.infix_replaceFirst (h : Clear p old) (h' : Clear p new) :
    p <:+: replaceFirst old new l ↔ p <:+: l := by
  by_cases hold : old <:+: l
  · obtain ⟨a, b, hsplit, rfl⟩ := exists_firstIn hold
    rw [replaceFirst_of_firstIn hsplit, h.infix_iff, h'.infix_iff]
  · rw [replaceFirst_of_absent hold]

/-! ## Patterns that do not overlap themselves -/

/-- No end of a pattern is a beginning of it. -/
def Unbordered (p : List α) : Prop := p ≠ [] ∧ ∀ s ∈ p.tails, s ≠ [] → s ≠ p → ¬s <+: p

instance : Decidable (Unbordered p) :=
  inferInstanceAs (Decidable (p ≠ [] ∧ ∀ s ∈ p.tails, s ≠ [] → s ≠ p → ¬s <+: p))

/-- If it does not occur before, a pattern first occurs where it is. -/
theorem Unbordered.firstIn_self (h : Unbordered p) (ha : ¬p <:+: a) (b : List α) :
    firstIn p (a ++ p ++ b) = some (a, b) := by
  induction a with
  | nil =>
    obtain ⟨c, p, rfl⟩ := List.exists_cons_of_ne_nil h.1
    have hprefix : c :: p <+: c :: (p ++ b) := List.prefix_append (c :: p) b
    have hdrop : (c :: (p ++ b)).drop (c :: p).length = b := List.drop_left
    rw [List.nil_append, List.cons_append, firstIn, if_pos hprefix, hdrop]
  | cons c a ih =>
    have hnot : ¬p <+: c :: a ++ (p ++ b) := by
      intro hp
      rcases List.prefix_or_prefix_of_prefix hp (List.prefix_append (c :: a) (p ++ b)) with hp | hy
      · exact ha hp.isInfix
      · -- The rest of this occurrence is at the beginning of the other one.
        obtain ⟨rest, hrest⟩ := hy
        have hlength := congrArg List.length hrest
        simp only [List.length_append, List.length_cons] at hlength
        rcases eq_or_ne rest [] with rfl | hne
        · rw [List.append_nil] at hrest
          exact ha (hrest ▸ List.infix_refl _)
        · rw [← hrest] at hp
          have hself : rest <+: p ++ b := (List.prefix_append_right_inj (c :: a)).1 (hrest ▸ hp)
          have hshort : rest <+: p :=
            List.prefix_of_prefix_length_le hself (List.prefix_append p b) (by omega)
          exact h.2 rest ((List.mem_tails _ _).2 (hrest ▸ List.suffix_append (c :: a) rest)) hne
            (fun heq => by rw [heq] at hlength; omega) hshort
    have hrest : ¬p <:+: a := fun hp => ha (hp.trans (List.suffix_cons c a).isInfix)
    rw [← List.append_assoc, List.cons_append, List.cons_append] at hnot
    rw [List.cons_append, List.cons_append, firstIn, if_neg hnot, ih hrest]
    rfl

end Occurrence
