import Dnlab.Lib.Text

/-!
# Lines

The lines of a text, with what ends them (`linesKeep`), and what is before a place on
its line (`lineStart`) and after it (`lineRest`).
-/

namespace Text

/-- The ends of lines for `str.splitlines`. -/
def isLineEnd (c : Char) : Bool :=
  [0x0a, 0x0b, 0x0c, 0x0d, 0x1c, 0x1d, 0x1e, 0x85, 0x2028, 0x2029].contains c.toNat

/-- `text.splitlines(keepends=True)`, after the beginning of a line. -/
def linesFrom : (line : List Char) → List Char → List (List Char)
  | line, [] => if line = [] then [] else [line]
  | line, '\r' :: '\n' :: l => (line ++ ['\r', '\n']) :: linesFrom [] l
  | line, c :: l =>
    if isLineEnd c then (line ++ [c]) :: linesFrom [] l else linesFrom (line ++ [c]) l

/-- `text.splitlines(keepends=True)`. -/
def linesKeep (l : List Char) : List (List Char) := linesFrom [] l

/-- What is on the last line of a text. -/
def lineStart (l : List Char) : List Char := (l.reverse.takeWhile (!isLineEnd ·)).reverse

/-- What is on the first line of a text. -/
def lineRest (l : List Char) : List Char := l.takeWhile (!isLineEnd ·)

example : linesKeep "a\r\n b\n\nc".toList = ["a\r\n".toList, " b\n".toList, ['\n'], ['c']] := by decide

variable {a x y l : List Char} {c : Char} {lines before after : List (List Char)}

/-! ## The last line -/

theorem lineStart_append_end (hc : isLineEnd c) (hx : ∀ d ∈ x, isLineEnd d = false) :
    lineStart (a ++ c :: x) = x := by
  have hrev : (a ++ c :: x).reverse = x.reverse ++ c :: a.reverse := by simp
  have hall : ∀ d ∈ x.reverse, (!isLineEnd d) = true := by
    intro d hd
    rw [hx d (List.mem_reverse.1 hd), Bool.not_false]
  rw [lineStart, hrev, List.takeWhile_append_of_pos hall, List.takeWhile_cons_of_neg (by simpa using hc),
    List.append_nil, List.reverse_reverse]

theorem lineStart_append (hx : ∀ d ∈ x, isLineEnd d = false) :
    lineStart (a ++ x) = lineStart a ++ x := by
  have hall : ∀ d ∈ x.reverse, (!isLineEnd d) = true := by
    intro d hd
    rw [hx d (List.mem_reverse.1 hd), Bool.not_false]
  rw [lineStart, List.reverse_append, List.takeWhile_append_of_pos hall, List.reverse_append,
    List.reverse_reverse, lineStart]

/-- A text has no end of a line, or it has a last one. -/
theorem exists_line_end (x : List Char) :
    (∀ d ∈ x, isLineEnd d = false) ∨
      ∃ y c z, x = y ++ c :: z ∧ isLineEnd c ∧ ∀ d ∈ z, isLineEnd d = false := by
  induction x with
  | nil => exact .inl (List.forall_mem_nil _)
  | cons d x ih =>
    rcases ih with hnone | ⟨y, c, z, rfl, hc, hz⟩
    · rcases hd : isLineEnd d
      · exact .inl (List.forall_mem_cons.2 ⟨hd, hnone⟩)
      · exact .inr ⟨[], d, x, rfl, hd, hnone⟩
    · exact .inr ⟨d :: y, c, z, rfl, hc, hz⟩

/-- What is before the last end of a line does not matter. -/
theorem lineStart_append_of_end (hx : ¬∀ d ∈ x, isLineEnd d = false) :
    lineStart (a ++ x) = lineStart x := by
  rcases exists_line_end x with hnone | ⟨y, c, z, rfl, hc, hz⟩
  · exact absurd hnone hx
  · rw [← List.append_assoc, lineStart_append_end hc hz, lineStart_append_end hc hz]

/-- What is on the last line of a text is still there when something comes before it. -/
theorem mem_lineStart_append (h : c ∈ lineStart x) : c ∈ lineStart (a ++ x) := by
  by_cases hx : ∀ d ∈ x, isLineEnd d = false
  · rw [lineStart_append hx]
    have hself : lineStart x = x := by
      have hnil := lineStart_append (a := []) hx
      rwa [List.nil_append] at hnil
    exact List.mem_append_right _ (hself ▸ h)
  · rwa [lineStart_append_of_end hx]

/-! ## Lines -/

theorem flatten_linesFrom (line l : List Char) : (linesFrom line l).flatten = line ++ l := by
  fun_induction linesFrom line l with
  | case1 => rfl
  | case2 line hline => simp
  | case3 line l ih => simp [ih]
  | case4 line c l _ hend ih => simp [ih]
  | case5 line c l _ hend ih => simp [ih]

theorem flatten_linesKeep (l : List Char) : (linesKeep l).flatten = l := flatten_linesFrom [] l

theorem suffix_of_append_end {t : List Char} (h : x ++ c :: y = a ++ t) (hc : isLineEnd c)
    (ha : ∀ d ∈ a, isLineEnd d = false) : c :: y <:+ t := by
  rcases List.append_eq_append_iff.1 h with ⟨rest, rfl, hrest⟩ | ⟨rest, _, rfl⟩
  · rcases rest with _ | ⟨d, rest⟩
    · rw [hrest]
      exact List.suffix_refl _
    · obtain rfl := (List.cons.inj hrest).1
      have hnot := ha c (List.mem_append_right _ List.mem_cons_self)
      rw [hc] at hnot
      cases hnot
  · exact List.suffix_append rest (c :: y)

/-- Nothing but the rest of it comes after the end of a line. -/
theorem eq_of_mem_linesFrom {line : List Char} (hline : ∀ d ∈ line, isLineEnd d = false)
    (hmem : x ++ c :: y ∈ linesFrom line l) (hc : isLineEnd c) : y = [] ∨ y = ['\n'] := by
  fun_induction linesFrom line l with
  | case1 => exact absurd hmem List.not_mem_nil
  | case2 line hne =>
    have hnot := hline c (List.mem_singleton.1 hmem ▸ List.mem_append_right _ List.mem_cons_self)
    rw [hc] at hnot
    cases hnot
  | case3 line l ih =>
    rcases List.mem_cons.1 hmem with heq | hmem
    · have hsuffix := suffix_of_append_end heq hc hline
      rcases List.suffix_cons_iff.1 hsuffix with heq | hsuffix
      · exact .inr (List.cons.inj heq).2
      · rcases List.suffix_cons_iff.1 hsuffix with heq | hsuffix
        · exact .inl (List.cons.inj heq).2
        · exact absurd (List.suffix_nil.1 hsuffix) (List.cons_ne_nil _ _)
    · exact ih (List.forall_mem_nil _) hmem
  | case4 line d l _ hend ih =>
    rcases List.mem_cons.1 hmem with heq | hmem
    · have hsuffix := suffix_of_append_end heq hc hline
      rcases List.suffix_cons_iff.1 hsuffix with heq | hsuffix
      · exact .inl (List.cons.inj heq).2
      · exact absurd (List.suffix_nil.1 hsuffix) (List.cons_ne_nil _ _)
    · exact ih (List.forall_mem_nil _) hmem
  | case5 line d l _ hend ih =>
    refine ih (fun e he => ?_) hmem
    rcases List.mem_append.1 he with he | he
    · exact hline e he
    · rw [List.mem_singleton.1 he]
      exact Bool.not_eq_true _ ▸ hend

/-- A line comes after the end of another one. -/
theorem exists_end_of_linesFrom {line : List Char} (h : linesFrom line l = before ++ x :: after)
    (hbefore : before ≠ []) : ∃ y c, before.flatten = y ++ [c] ∧ isLineEnd c := by
  fun_induction linesFrom line l generalizing before with
  | case1 => exact absurd h.symm (List.append_ne_nil_of_right_ne_nil _ (List.cons_ne_nil _ _))
  | case2 line hne =>
    have hlength := congrArg List.length h
    have hpos := List.length_pos_iff.2 hbefore
    simp only [List.length_append, List.length_cons, List.length_nil] at hlength
    omega
  | case3 line l ih =>
    obtain ⟨first, before, rfl⟩ := List.exists_cons_of_ne_nil hbefore
    obtain ⟨rfl, hrest⟩ := List.cons.inj h
    rcases eq_or_ne before [] with rfl | hne
    · exact ⟨line ++ ['\r'], '\n', by simp, rfl⟩
    · obtain ⟨y, c, hflatten, hc⟩ := ih hrest hne
      exact ⟨line ++ ['\r', '\n'] ++ y, c, by simp [hflatten], hc⟩
  | case4 line d l _ hend ih =>
    obtain ⟨first, before, rfl⟩ := List.exists_cons_of_ne_nil hbefore
    obtain ⟨rfl, hrest⟩ := List.cons.inj h
    rcases eq_or_ne before [] with rfl | hne
    · exact ⟨line, d, by simp, hend⟩
    · obtain ⟨y, c, hflatten, hc⟩ := ih hrest hne
      exact ⟨line ++ [d] ++ y, c, by simp [hflatten], hc⟩
  | case5 line d l _ hend ih => exact ih h hbefore

theorem lineStart_of_linesKeep (h : linesKeep l = before ++ x :: after) :
    lineStart before.flatten = [] := by
  rcases eq_or_ne before [] with rfl | hne
  · rfl
  · obtain ⟨y, c, hflatten, hc⟩ := exists_end_of_linesFrom h hne
    rw [hflatten, lineStart_append_end hc (List.forall_mem_nil _)]

end Text
