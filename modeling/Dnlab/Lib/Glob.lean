import Dnlab.Lib.Text

/-!
# Shell patterns

Patterns with `*`, `?` and `[…]`, matched against a whole text with case
(`fnmatch.fnmatchcase`). A bracket without its end stands for itself; a `]` right
after the start of a bracket, or after its `!`, is a member.
-/

namespace Glob

/-- A member of a bracket: the characters from one to another. -/
structure Range where
  low : Char
  high : Char
  deriving DecidableEq

def Range.contains (r : Range) (c : Char) : Bool := r.low ≤ c && c ≤ r.high

/-- A part of a pattern. -/
inductive Part
  | char (c : Char)
  | one
  | many
  | bracket (negated : Bool) (ranges : List Range)
  deriving DecidableEq

/-- The members between the brackets: `a-z` is a range unless its `-` comes first or last. -/
def ranges : List Char → List Range
  | a :: '-' :: b :: l => ⟨a, b⟩ :: ranges l
  | a :: l => ⟨a, a⟩ :: ranges l
  | [] => []

/-- What is between the brackets and what comes after them, of the text after a `[`; without `!`. -/
def closing (l : List Char) : Option (List Char × List Char) :=
  let (first, rest) := if l.head? = some ']' then ([']'], l.tail) else ([], l)
  match rest.dropWhile (· ≠ ']') with
  | [] => none
  | _ :: after => some (first ++ rest.takeWhile (· ≠ ']'), after)

/-- The parts of a pattern, of at most `fuel` characters. -/
def parts : (fuel : ℕ) → List Char → List Part
  | 0, _ => []
  | _, [] => []
  | fuel + 1, '*' :: l => .many :: parts fuel l
  | fuel + 1, '?' :: l => .one :: parts fuel l
  | fuel + 1, '[' :: l =>
    let negated := l.head? = some '!'
    match closing (if negated then l.tail else l) with
    | some (members, after) => .bracket negated (ranges members) :: parts fuel after
    | none => .char '[' :: parts fuel l
  | fuel + 1, c :: l => .char c :: parts fuel l

/-- A part that stands for one character. -/
def Part.contains : Part → Char → Bool
  | .char a, c => a = c
  | .one, _ => true
  | .many, _ => false
  | .bracket negated ranges, c => negated != ranges.any fun r => r.contains c

def accepts : List Part → List Char → Bool
  | [], s => s.isEmpty
  | .many :: l, s => s.tails.any (accepts l)
  | p :: l, c :: s => p.contains c && accepts l s
  | _ :: _, [] => false

/-- `fnmatchcase(name, pat)`. -/
def fnmatchcase (name pat : String) : Bool :=
  accepts (parts pat.toList.length pat.toList) name.toList

example : fnmatchcase "ghcr.io/scaci/dnlab-jumphost:0.1.2" "*/dnlab-jumphost:*" = true := by decide

example : ["a1", "a-", "ab"].map (fnmatchcase · "a[!0-9]") = [false, true, true] := by decide

end Glob
