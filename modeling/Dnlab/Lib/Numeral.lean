import Dnlab.Lib.Text

/-!
# Numerals

A number that is printed is read back as it was (`toInt?_toString`).
-/

namespace Text

theorem digit_facts : ∀ k < 10, isSpace (Nat.digitChar k) = false ∧
    isDecimal (Nat.digitChar k) = true ∧ decimalValue (Nat.digitChar k) = k ∧
    Nat.digitChar k ≠ '-' ∧ Nat.digitChar k ≠ '+' := by
  decide

/-- Reading digits one after another. -/
theorem numeral_digits {l : List Char} (hdigit : ∀ c ∈ l, c.isDigit = true) {open' : Bool} {n : ℕ}
    (hopen : open' = false ∨ l ≠ []) : numeral open' n l = some (Nat.ofDigitChars 10 l n) := by
  induction l generalizing open' n with
  | nil =>
    rcases hopen with rfl | h
    · rw [numeral, Nat.ofDigitChars_nil]
    · exact absurd rfl h
  | cons c l ih =>
    obtain ⟨hlt, hc⟩ := digitChar_of_isDigit (hdigit c List.mem_cons_self)
    obtain ⟨-, hdecimal, hvalue, -⟩ := digit_facts _ hlt
    rw [hc] at hdecimal hvalue
    have hstep : numeral open' n (c :: l) = numeral false (10 * n + decimalValue c) l := by
      cases open' <;> rw [numeral, if_pos hdecimal]
    rw [hstep, ih (fun d hd => hdigit d (List.mem_cons_of_mem _ hd)) (.inl rfl), hvalue,
      Nat.ofDigitChars_cons]
    rfl

theorem dropWhile_digits {l : List Char} (hdigit : ∀ c ∈ l, c.isDigit = true) :
    l.dropWhile isSpace = l := by
  cases l with
  | nil => rfl
  | cons c l =>
    obtain ⟨hlt, hc⟩ := digitChar_of_isDigit (hdigit c List.mem_cons_self)
    have hspace := (digit_facts _ hlt).1
    rw [hc] at hspace
    rw [List.dropWhile_cons, hspace]
    rfl

/-- A text of digits has no spaces around it. -/
theorem stripSpaces_digits {s : String} (hdigit : ∀ c ∈ s.toList, c.isDigit = true) :
    stripSpaces s = s := by
  rw [stripSpaces, dropWhile_digits hdigit,
    dropWhile_digits fun c hc => hdigit c (List.mem_reverse.1 hc), List.reverse_reverse,
    String.ofList_toList]

theorem isDigit_toString {n : ℕ} : ∀ c ∈ (toString n).toList, c.isDigit = true := by
  intro c hc
  rw [Nat.toString_eq_ofList_toDigits, String.toList_ofList] at hc
  exact Nat.isDigit_of_mem_toDigits (b := 10) (by decide) (by decide) hc

/-- A text of digits is read as its value. -/
theorem toInt?_digits {s : String} (hdigit : ∀ c ∈ s.toList, c.isDigit = true) (hne : s.toList ≠ []) :
    toInt? s = some ((Nat.ofDigitChars 10 s.toList 0 : ℕ) : ℤ) := by
  rw [toInt?, stripSpaces_digits hdigit]
  obtain ⟨c, l, hl⟩ := List.exists_cons_of_ne_nil hne
  obtain ⟨hlt, hc⟩ := digitChar_of_isDigit (hdigit c (hl ▸ List.mem_cons_self))
  obtain ⟨-, -, -, hminus, hplus⟩ := digit_facts _ hlt
  rw [hc] at hminus hplus
  have hnumeral := numeral_digits (n := 0) hdigit (.inr hne : true = false ∨ _)
  split
  · rename_i heq
    rw [hl] at heq
    exact absurd (List.cons.inj heq).1 hminus
  · rename_i heq
    rw [hl] at heq
    exact absurd (List.cons.inj heq).1 hplus
  · rw [hnumeral]
    rfl

theorem toInt?_toString (n : ℕ) : toInt? (toString n) = some (n : ℤ) := by
  have hlist : (toString n).toList = Nat.toDigits 10 n := by
    rw [Nat.toString_eq_ofList_toDigits, String.toList_ofList]
  rw [toInt?_digits isDigit_toString (hlist ▸ Nat.toDigits_ne_nil), hlist,
    Nat.ofDigitChars_ten_toDigits]

end Text
