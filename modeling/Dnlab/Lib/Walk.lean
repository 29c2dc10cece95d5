import Mathlib.Data.List.MinMax
import Mathlib.Data.List.Perm.Basic

/-!
# Walks

Links with a source and a destination each, put into an order in which every one
begins where the one before ends. If ranks rise along the links, no two of them
begin at the same node and at most one node is where a link begins and none ends,
there is such an order (`exists_walk`).
-/

namespace Walk

variable {α ν : Type} (src dst : α → ν)

/-- Every link begins where the one before ends; the first begins at the given node. -/
def IsWalk : (start : ν) → List α → Prop
  | _, [] => True
  | start, a :: l => src a = start ∧ IsWalk (dst a) l

/-- Where a walk ends. -/
def finish : (start : ν) → List α → ν
  | start, [] => start
  | _, a :: l => finish (dst a) l

variable {src dst}

theorem isWalk_append {start : ν} {l m : List α} :
    IsWalk src dst start (l ++ m) ↔
      IsWalk src dst start l ∧ IsWalk src dst (finish dst start l) m := by
  induction l generalizing start with
  | nil => simp [IsWalk, finish]
  | cons a l ih => simp [IsWalk, finish, ih, and_assoc]

/-- Where a walk enters a node, it leaves it again, but for its end. -/
theorem IsWalk.eq_finish {start n : ν} {l : List α} (h : IsWalk src dst start l)
    (hdst : n ∈ l.map dst) (hsrc : n ∉ l.map src) : n = finish dst start l := by
  induction l generalizing start with
  | nil => exact absurd hdst List.not_mem_nil
  | cons a l ih =>
    rw [List.map_cons, List.mem_cons, not_or] at hsrc
    rcases l with _ | ⟨b, l⟩
    · exact List.mem_singleton.1 hdst
    · rcases List.mem_cons.1 hdst with rfl | hdst
      · exact absurd (h.2.1 ▸ List.mem_cons_self) hsrc.2
      · exact ih h.2 hdst hsrc.2

/-- Links whose nodes have rising ranks have a first one: nothing ends where it begins. -/
theorem exists_first {l : List α} (rank : ν → ℕ) (hrank : ∀ a ∈ l, rank (src a) < rank (dst a))
    (h : l ≠ []) : ∃ a ∈ l, src a ∉ l.map dst := by
  -- One of the links that begin at the least rank.
  rcases hmin : l.argmin fun a => rank (src a) with _ | a
  · exact absurd (List.argmin_eq_none.1 hmin) h
  · refine ⟨a, List.argmin_mem hmin, fun hdst => ?_⟩
    obtain ⟨b, hb, hsame⟩ := List.mem_map.1 hdst
    have hlt := hrank b hb
    rw [hsame] at hlt
    exact absurd (List.le_of_mem_argmin hb hmin) (not_le_of_gt hlt)

/-- The links make a walk from the one node where a link begins and none ends. -/
theorem exists_walk [DecidableEq α] {l : List α} (rank : ν → ℕ)
    (hrank : ∀ a ∈ l, rank (src a) < rank (dst a)) (hout : (l.map src).Nodup) {start : ν}
    (hstart : ∀ a ∈ l, src a ∉ l.map dst → src a = start) :
    ∃ w, w.Perm l ∧ IsWalk src dst start w := by
  induction hlen : l.length generalizing l start with
  | zero =>
    obtain rfl := List.length_eq_zero_iff.1 hlen
    exact ⟨[], .refl _, trivial⟩
  | succ n ih =>
    obtain ⟨a, ha, hfirst⟩ := exists_first rank hrank (List.ne_nil_of_length_eq_add_one hlen)
    have hsub : ∀ b ∈ l.erase a, b ∈ l := fun b => List.mem_of_mem_erase
    have hperm := List.perm_cons_erase ha
    have hout' : ((a :: l.erase a).map src).Nodup := (hperm.map src).nodup_iff.1 hout
    rw [List.map_cons, List.nodup_cons] at hout'
    -- What begins nowhere in the rest begins where the first link ends.
    have hstart' : ∀ b ∈ l.erase a, src b ∉ (l.erase a).map dst → src b = dst a := by
      intro b hb hnot
      by_contra hne
      have hb' : src b ∉ l.map dst := by
        rw [(hperm.map dst).mem_iff, List.map_cons, List.mem_cons]
        exact fun h => h.elim hne hnot
      have hsame : src b = src a := (hstart b (hsub b hb) hb').trans (hstart a ha hfirst).symm
      exact hout'.1 (hsame ▸ List.mem_map_of_mem hb)
    obtain ⟨w, hw, hwalk⟩ := ih (fun b hb => hrank b (hsub b hb)) hout'.2 hstart'
      (by rw [List.length_erase_of_mem ha, hlen]; rfl)
    exact ⟨a :: w, (hw.cons a).trans hperm.symm, hstart a ha hfirst, hwalk⟩

end Walk
