import Mathlib.Data.List.Basic
import Mathlib.Data.List.DropRight
import Mathlib.Data.List.Infix

/-!
# Text

The operations of a scripting language on strings, through the list of their
characters: slices, a search for a substring, the splitting and joining at a
separator, the classes of characters that a regular expression names, and
decimal numerals.

Two facts carry most of what is later said about generated names: numerals are
injective (`toString_inj`), and two texts with the same start differ only in
what follows it (`append_left_inj`).
-/

namespace Text

/-- `s[:n]`. -/
def first (n : ℕ) (s : String) : String := .ofList (s.toList.take n)

/-- `s[-n:]`. -/
def last (n : ℕ) (s : String) : String := .ofList (s.toList.drop (s.toList.length - n))

/-- The characters of `s` that satisfy `p`. -/
def keep (p : Char → Bool) (s : String) : String := .ofList (s.toList.filter p)

/-- `s.startswith(p)`. -/
def startsWith (s p : String) : Bool := p.toList.isPrefixOf s.toList

/-- `s.endswith(p)`. -/
def endsWith (s p : String) : Bool := p.toList.isSuffixOf s.toList

/-- `s.removeprefix(p)`. -/
def removeStart (s p : String) : String :=
  if startsWith s p then .ofList (s.toList.drop p.toList.length) else s

/-- `s.removesuffix(p)`. -/
def removeEnd (s p : String) : String :=
  if endsWith s p then .ofList (s.toList.take (s.toList.length - p.toList.length)) else s

/-- `t in s`. -/
def contains (s t : String) : Bool := s.toList.tails.any t.toList.isPrefixOf

/-- `s.split(sep)` at a single character. -/
def split (sep : Char) (s : String) : List String := (s.toList.splitOn sep).map .ofList

/-- `sep.join(parts)`. -/
def join (sep : String) : List String → String
  | [] => ""
  | [s] => s
  | s :: t :: l => s ++ sep ++ join sep (t :: l)

/-- `s or t`: a text, or another one if it is empty. -/
def orElse (s t : String) : String := if s = "" then t else s

/-- `[A-Za-z0-9]`. -/
def isAlnum (c : Char) : Bool := c.isAlphanum

/-- The zeros of the blocks of decimal digits; each block has its ten digits in order. -/
def decimalZeros : List ℕ :=
  [0x30, 0x660, 0x6f0, 0x7c0, 0x966, 0x9e6, 0xa66, 0xae6, 0xb66, 0xbe6, 0xc66, 0xce6, 0xd66,
    0xde6, 0xe50, 0xed0, 0xf20, 0x1040, 0x1090, 0x17e0, 0x1810, 0x1946, 0x19d0, 0x1a80, 0x1a90,
    0x1b50, 0x1bb0, 0x1c40, 0x1c50, 0xa620, 0xa8d0, 0xa900, 0xa9d0, 0xa9f0, 0xaa50, 0xabf0,
    0xff10, 0x104a0, 0x10d30, 0x11066, 0x110f0, 0x11136, 0x111d0, 0x112f0, 0x11450, 0x114d0,
    0x11650, 0x116c0, 0x11730, 0x118e0, 0x11950, 0x11c50, 0x11d50, 0x11da0, 0x16a60, 0x16ac0,
    0x16b50, 0x1d7ce, 0x1d7d8, 0x1d7e2, 0x1d7ec, 0x1d7f6, 0x1e140, 0x1e2f0, 0x1e950, 0x1fbf0]

/-- `\d`, a decimal digit of any script. -/
def isDecimal (c : Char) : Bool :=
  decimalZeros.any fun z => decide (z ≤ c.toNat ∧ c.toNat < z + 10)

/-- `(\d+)` at the start of a text: the digits and the rest, if there is a digit. -/
def decimals (l : List Char) : Option (List Char × List Char) :=
  match l.takeWhile isDecimal with
  | [] => none
  | ds => some (ds, l.dropWhile isDecimal)

/-- `c.lower()` as far as a comparison with ASCII text sees it: outside ASCII, only the Kelvin
    sign and the dotted capital I have an ASCII character in their lower case. -/
def lowerChar (c : Char) : List Char :=
  if c = '\u212A' then ['k'] else if c = '\u0130' then ['i', '\u0307'] else [c.toLower]

/-- `s.lower()`. -/
def lower (s : String) : String := .ofList (s.toList.flatMap lowerChar)

/-- Every maximal run of characters satisfying `p` replaced by `r`; `inRun` tells whether the
    character before was of such a run. -/
def replaceRuns (p : Char → Bool) (r : Char) : (inRun : Bool) → List Char → List Char
  | _, [] => []
  | inRun, c :: l =>
    if p c then
      if inRun then replaceRuns p r true l else r :: replaceRuns p r true l
    else c :: replaceRuns p r false l

/-- `s.strip(c)`. -/
def strip (c : Char) (l : List Char) : List Char :=
  ((l.dropWhile (· == c)).reverse.dropWhile (· == c)).reverse

/-- The text after the last `c`, or the whole text: `s.rsplit(c, 1)[-1]`. -/
def afterLast (c : Char) (s : String) : String :=
  .ofList (s.toList.reverse.takeWhile (· ≠ c)).reverse

/-- `str.isspace` of a character. -/
def isSpace (c : Char) : Bool :=
  let n := c.toNat
  (9 ≤ n && n ≤ 13) || (28 ≤ n && n ≤ 32) || (0x2000 ≤ n && n ≤ 0x200a) ||
    [0x85, 0xa0, 0x1680, 0x2028, 0x2029, 0x202f, 0x205f, 0x3000].contains n

/-- `s.strip()`. -/
def stripSpaces (s : String) : String :=
  .ofList ((s.toList.dropWhile isSpace).reverse.dropWhile isSpace).reverse

/-- `s.rstrip()`. -/
def rstripSpaces (s : String) : String := .ofList (s.toList.reverse.dropWhile isSpace).reverse

/-- `s.split()`. -/
def words (s : String) : List String :=
  ((s.toList.splitOnP isSpace).filter (· ≠ [])).map .ofList

/-- The value of a decimal digit of any script. -/
def decimalValue (c : Char) : ℕ :=
  ((decimalZeros.find? fun z => decide (z ≤ c.toNat ∧ c.toNat < z + 10)).map (c.toNat - ·)).getD 0

/-- The value of a numeral with single underscores between its digits; `open'` tells whether a
    digit must come next. -/
def numeral : (open' : Bool) → ℕ → List Char → Option ℕ
  | true, _, [] => none
  | false, n, [] => some n
  | open', n, c :: l =>
    if isDecimal c then numeral false (10 * n + decimalValue c) l
    else if c = '_' ∧ open' = false then numeral true n l
    else none

/-- `int(s)`, if `s` is a numeral. -/
def toInt? (s : String) : Option Int :=
  match (stripSpaces s).toList with
  | '-' :: l => (numeral true 0 l).map fun n => -(n : Int)
  | '+' :: l => (numeral true 0 l).map fun n => (n : Int)
  | l => (numeral true 0 l).map fun n => (n : Int)

/-- The characters that need no quoting in a shell word. -/
def isShellSafe (c : Char) : Bool := isAlnum c || "@%+=:,./-_".toList.contains c

/-- `shlex.quote(s)`. -/
def quote (s : String) : String :=
  if s = "" then "''"
  else if s.toList.all isShellSafe then s
  else .ofList ('\'' :: s.toList.flatMap
    (fun c => if c = '\'' then "'\"'\"'".toList else [c]) ++ ['\''])

/-- A character in a text as the language prints it: the quote, the backslash and what ASCII does
    not print are escaped. -/
def reprChar (q c : Char) : List Char :=
  if c = q ∨ c = '\\' then ['\\', c]
  else if c = '\n' then ['\\', 'n']
  else if c = '\r' then ['\\', 'r']
  else if c = '\t' then ['\\', 't']
  else if c.toNat < 0x20 ∨ c.toNat = 0x7f then
    ['\\', 'x', Nat.digitChar (c.toNat / 16), Nat.digitChar (c.toNat % 16)]
  else [c]

/-- `repr(s)`, as far as the characters outside ASCII are printable. -/
def repr (s : String) : String :=
  let q := if s.toList.contains '\'' && !s.toList.contains '"' then '"' else '\''
  .ofList (q :: s.toList.flatMap (reprChar q) ++ [q])

example : toInt? " -1_0 " = some (-10) := by decide

theorem append_left_inj (p s t : String) : p ++ s = p ++ t ↔ s = t := by
  rw [← String.toList_inj, String.toList_append, String.toList_append, List.append_cancel_left_eq,
    String.toList_inj]

theorem append_right_inj (p s t : String) : s ++ p = t ++ p ↔ s = t := by
  rw [← String.toList_inj, String.toList_append, String.toList_append,
    List.append_cancel_right_eq, String.toList_inj]

/-- Decimal numerals are injective. -/
theorem toString_inj {m n : ℕ} : toString m = toString n ↔ m = n := by
  refine ⟨fun h => ?_, fun h => h ▸ rfl⟩
  have hm := Nat.ofDigitChars_toDigits (b := 10) (n := m) (by decide) (by decide)
  rw [Nat.toString_eq_ofList_toDigits, Nat.toString_eq_ofList_toDigits,
    String.ofList_inj] at h
  rw [← hm, h, Nat.ofDigitChars_toDigits (by decide) (by decide)]

theorem toString_ne_empty (n : ℕ) : toString n ≠ "" := by
  rw [Nat.toString_eq_ofList_toDigits]
  intro h
  have hl := congrArg String.toList h
  rw [String.toList_ofList] at hl
  exact Nat.toDigits_ne_nil hl

theorem digitChar_of_isDigit {c : Char} (h : c.isDigit = true) :
    c.toNat - 48 < 10 ∧ Nat.digitChar (c.toNat - 48) = c := by
  simp only [Char.isDigit, Bool.and_eq_true, decide_eq_true_eq] at h
  have hge : 48 ≤ c.toNat := h.1
  have hle : c.toNat ≤ 57 := h.2
  have hall : ∀ n < 10, Nat.digitChar n = Char.ofNat (48 + n) := by decide
  have hlt : c.toNat - 48 < 10 := by omega
  refine ⟨hlt, ?_⟩
  rw [hall _ hlt, Nat.add_sub_cancel' hge, Char.ofNat_toNat]

/-- A numeral without leading zeros is that of its value. -/
theorem toDigits_ofDigitChars {l : List Char} (hdigit : ∀ c ∈ l, c.isDigit = true) (hne : l ≠ [])
    (hlead : l = ['0'] ∨ l.head? ≠ some '0') :
    Nat.toDigits 10 (Nat.ofDigitChars 10 l 0) = l := by
  induction l using List.reverseRecOn with
  | nil => exact absurd rfl hne
  | append_singleton l c ih =>
    obtain ⟨hlt, hc⟩ := digitChar_of_isDigit (hdigit c (by simp))
    rw [Nat.ofDigitChars_append, Nat.ofDigitChars_cons, Nat.ofDigitChars_nil]
    show Nat.toDigits 10 (10 * Nat.ofDigitChars 10 l 0 + (c.toNat - 48)) = _
    rcases eq_or_ne l [] with rfl | hl
    · rw [Nat.ofDigitChars_nil, Nat.mul_zero, Nat.zero_add, Nat.toDigits_of_lt_base hlt, hc]
      rfl
    · have hhead : l.head? ≠ some '0' := by
        rcases hlead with hlead | hlead
        · exact absurd (List.append_eq_singleton_iff.1 hlead) (by simp [hl])
        · rwa [List.head?_append_of_ne_nil _ hl] at hlead
      have hrest := ih (fun d hd => hdigit d (List.mem_append_left _ hd)) hl (.inr hhead)
      have hpos : 0 < Nat.ofDigitChars 10 l 0 := by
        refine Nat.pos_of_ne_zero fun hzero => hhead ?_
        rw [hzero] at hrest
        rw [← hrest]
        rfl
      rw [← Nat.toDigits_append_toDigits (by decide) hpos hlt, hrest,
        Nat.toDigits_of_lt_base hlt, hc]

@[simp] theorem toList_first (n : ℕ) (s : String) : (first n s).toList = s.toList.take n := by
  simp [first]

theorem length_first_le (n : ℕ) (s : String) : (first n s).toList.length ≤ n := by
  rw [toList_first, List.length_take]
  exact Nat.min_le_left _ _

/-- A text that is short enough is its own slice. -/
theorem first_of_length_le {n : ℕ} {s : String} (h : s.toList.length ≤ n) : first n s = s := by
  rw [first, List.take_of_length_le h, String.ofList_toList]

/-- A text that starts with a short enough one keeps that start in its slice. -/
theorem first_append {n : ℕ} {p : String} (h : p.toList.length ≤ n) (s : String) :
    first n (p ++ s) = p ++ first (n - p.toList.length) s := by
  rw [← String.toList_inj, toList_first, String.toList_append, String.toList_append, toList_first,
    List.take_append, List.take_of_length_le h]

theorem first_first (m n : ℕ) (s : String) : first m (first n s) = first (min m n) s := by
  rw [← String.toList_inj, toList_first, toList_first, toList_first, List.take_take]

/-- Texts that are equal up to a separator, which is not in what is before it. -/
theorem append_sep_inj {c : Char} {x x' y y' : List Char} (hx : c ∉ x) (hx' : c ∉ x') :
    x ++ c :: y = x' ++ c :: y' ↔ x = x' ∧ y = y' := by
  induction x generalizing x' with
  | nil =>
    rcases x' with _ | ⟨d, x'⟩
    · simp
    · have hd : c ≠ d := fun h => hx' (h ▸ List.mem_cons_self)
      simp [hd]
  | cons d x ih =>
    rcases x' with _ | ⟨d', x'⟩
    · have hd : d ≠ c := fun h => hx (h ▸ List.mem_cons_self)
      simp [hd]
    · rw [List.cons_append, List.cons_append, List.cons.injEq, List.cons.injEq,
        ih (fun h => hx (List.mem_cons_of_mem _ h)) (fun h => hx' (List.mem_cons_of_mem _ h)),
        and_assoc]

/-- Texts that are equal up to a separator, which is not in what is after it. -/
theorem append_sep_inj' {c : Char} {x x' y y' : List Char} (hy : c ∉ y) (hy' : c ∉ y') :
    x ++ c :: y = x' ++ c :: y' ↔ x = x' ∧ y = y' := by
  rw [← List.reverse_inj, List.reverse_append, List.reverse_append, List.reverse_cons,
    List.reverse_cons, List.append_assoc, List.append_assoc, List.singleton_append,
    List.singleton_append, append_sep_inj (by rwa [List.mem_reverse]) (by rwa [List.mem_reverse]),
    List.reverse_inj, List.reverse_inj, and_comm]

/-- Words that are joined by spaces are told apart again. -/
theorem words_join {l : List String} (hne : ∀ s ∈ l, s ≠ "")
    (hspace : ∀ s ∈ l, ∀ c ∈ s.toList, isSpace c = false) : words (join " " l) = l := by
  induction l with
  | nil => rfl
  | cons s l ih =>
    have hs : s.toList ≠ [] := fun h => hne s List.mem_cons_self (String.toList_eq_nil_iff.1 h)
    have hsplit := hspace s List.mem_cons_self
    rcases l with _ | ⟨t, l⟩
    · simp [words, join, List.splitOnP_eq_singleton hsplit, hs]
    · have hjoin : (join " " (s :: t :: l)).toList =
          s.toList ++ ' ' :: (join " " (t :: l)).toList := by
        simp [join]
      have hrest := ih (fun u hu => hne u (List.mem_cons_of_mem _ hu))
        fun u hu => hspace u (List.mem_cons_of_mem _ hu)
      rw [words, hjoin, List.splitOnP_append_cons_of_forall_mem hsplit ' ' (by decide),
        List.filter_cons_of_pos (by simpa using hs), List.map_cons, String.ofList_toList]
      exact congrArg (s :: ·) hrest

theorem not_of_mem_splitOnP {α : Type*} {p : α → Bool} {xs l : List α} (hl : l ∈ xs.splitOnP p) :
    ∀ x ∈ l, p x = false := by
  induction xs generalizing l with
  | nil =>
    rw [List.splitOnP_nil, List.mem_singleton] at hl
    rw [hl]
    exact fun _ h => absurd h List.not_mem_nil
  | cons a xs ih =>
    rw [List.splitOnP_cons_eq_if_modifyHead] at hl
    obtain ⟨m, ms, hsplit⟩ := List.exists_cons_of_ne_nil (List.splitOnP_ne_nil p xs)
    split at hl
    · rcases List.mem_cons.1 hl with rfl | hl
      · exact fun _ h => absurd h List.not_mem_nil
      · exact ih hl
    · rename_i ha
      rw [hsplit, List.modifyHead_cons, List.mem_cons] at hl
      rw [hsplit] at ih
      rcases hl with rfl | hl
      · exact List.forall_mem_cons.2 ⟨by simpa using ha, ih List.mem_cons_self⟩
      · exact ih (List.mem_cons_of_mem _ hl)

/-- A text that has been joined from its words has the same words. -/
theorem words_join_words (s : String) : words (join " " (words s)) = words s := by
  refine words_join (fun w hw => ?_) fun w hw => ?_
  · obtain ⟨l, hl, rfl⟩ := List.mem_map.1 hw
    have hne := (List.mem_filter.1 hl).2
    rw [decide_eq_true_eq] at hne
    exact fun h => hne (by rw [← String.toList_ofList (l := l), h]; rfl)
  · obtain ⟨l, hl, rfl⟩ := List.mem_map.1 hw
    rw [String.toList_ofList]
    exact not_of_mem_splitOnP (List.mem_filter.1 hl).1

/-- Stripping a text twice is stripping it once. -/
theorem stripSpaces_stripSpaces (s : String) : stripSpaces (stripSpaces s) = stripSpaces s := by
  have hstrip : ∀ l : List Char, ((l.dropWhile isSpace).reverse.dropWhile isSpace).reverse =
      (l.dropWhile isSpace).rdropWhile isSpace := fun _ => rfl
  simp only [stripSpaces, String.toList_ofList, hstrip]
  congr 1
  have hhead : (((s.toList.dropWhile isSpace).rdropWhile isSpace).dropWhile isSpace) =
      (s.toList.dropWhile isSpace).rdropWhile isSpace := by
    rw [List.dropWhile_eq_self_iff]
    intro hlen
    have hpre := List.rdropWhile_prefix isSpace (s.toList.dropWhile isSpace)
    rw [hpre.getElem hlen]
    exact List.dropWhile_eq_self_iff.1 (List.dropWhile_idempotent isSpace s.toList)
      (Nat.lt_of_lt_of_le hlen hpre.length_le)
  rw [hhead, List.rdropWhile_idempotent]

end Text
