import Dnlab.Lib.Text

/-!
# Parts of a text

Splitting a text at a separator and joining its parts again.
-/

namespace Text

variable {c : Char} {sep : String} {l m : List String}

theorem split_ne_nil (c : Char) (s : String) : split c s ≠ [] := by
  rw [split, Ne, List.map_eq_nil_iff]
  exact List.splitOn_ne_nil c s.toList

/-- A text with a separator in it has the parts before it and the parts after it. -/
theorem split_append (hsep : sep.toList = [c]) (s t : String) :
    split c (s ++ sep ++ t) = split c s ++ split c t := by
  rw [split, String.toList_append, String.toList_append, hsep, List.append_assoc,
    List.singleton_append, List.splitOn_append_cons_self, List.map_append]
  rfl

theorem toList_join (l : List String) :
    (join sep l).toList = sep.toList.intercalate (l.map String.toList) := by
  induction l with
  | nil => rfl
  | cons s l ih =>
    cases l with
    | nil => simp [join, List.intercalate]
    | cons t l =>
      rw [join, String.toList_append, String.toList_append, ih]
      simp [List.intercalate]

/-- The parts of a text, joined. -/
theorem join_split (hsep : sep.toList = [c]) (s : String) : join sep (split c s) = s := by
  have hparts : (split c s).map String.toList = s.toList.splitOn c := by
    rw [split, List.map_map]
    exact (List.map_congr_left fun l _ => String.toList_ofList).trans (List.map_id _)
  rw [← String.toList_inj, toList_join, hparts, hsep, List.intercalate_splitOn]

theorem join_append (hl : l ≠ []) (hm : m ≠ []) :
    join sep (l ++ m) = join sep l ++ sep ++ join sep m := by
  induction l with
  | nil => exact absurd rfl hl
  | cons s l ih =>
    cases l with
    | nil =>
      obtain ⟨t, m, rfl⟩ := List.exists_cons_of_ne_nil hm
      rfl
    | cons t l =>
      have h := ih (List.cons_ne_nil t l)
      rw [List.cons_append] at h ⊢
      rw [List.cons_append, join, h, join, String.append_assoc, String.append_assoc,
        String.append_assoc, String.append_assoc, String.append_assoc]

end Text
