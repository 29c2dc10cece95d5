import Dnlab.Lib.Ip
import Mathlib.Tactic.Ring

/-!
# Internet addresses of version 6

Addresses of version 6 and their networks, as a scripting language reads and
prints them: eight hextets, of which one run of zeros may be left out, maybe
with the octets of an address of version 4 at the end, and with a scope after a
`%`. An address is a number; a network carries the proof that its address has
no bits below its prefix.
-/

namespace Ip6

/-! ## Addresses -/

/-- The digits of a number to the base 16. -/
def hex (n : ℕ) : String := .ofList (Nat.toDigits 16 n)

/-- The hextets of an address, from the one that counts most. -/
def hextets (a : ℕ) : List String :=
  (List.range 8).map fun i => hex (a / 2 ^ (112 - 16 * i) % 2 ^ 16)

/-- How many zeros there are in a row from a place on. -/
def zeros (l : List String) (i : ℕ) : ℕ := ((l.drop i).takeWhile (· = "0")).length

/-- Where the first of the longest runs of zeros starts. -/
def longestRun (l : List String) : ℕ :=
  (List.range l.length).foldl (fun best i => if zeros l best < zeros l i then i else best) 0

/-- The hextets with their longest run of zeros left out, to be joined by colons. -/
def compress (l : List String) : List String :=
  let start := longestRun l
  let stop := start + zeros l start
  if zeros l start > 1 then
    (if start = 0 then [""] else []) ++ l.take start ++ [""] ++ l.drop stop ++
      (if stop = l.length then [""] else [])
  else l

/-- `str(address)` without a scope, of an address that is not mapped. -/
def text (a : ℕ) : String := Text.join ":" (compress (hextets a))

/-- `str(address)` without a scope: a mapped address ends as one of version 4. -/
def str (a : ℕ) : String :=
  if a / 2 ^ 32 = 0xFFFF then text (a / 2 ^ 32) ++ ":" ++ Ip.text (a % 2 ^ 32) else text a

/-- The value of a digit to the base 16. -/
def hexValue (c : Char) : Option ℕ :=
  if '0' ≤ c ∧ c ≤ '9' then some (c.toNat - '0'.toNat)
  else if 'a' ≤ c ∧ c ≤ 'f' then some (c.toNat - 'a'.toNat + 10)
  else if 'A' ≤ c ∧ c ≤ 'F' then some (c.toNat - 'A'.toNat + 10)
  else none

/-- The value of a hextet, or what is wrong with it. -/
def parseHextet (s : String) : Except String ℕ :=
  if ¬s.toList.all fun c => (hexValue c).isSome then
    .error ("Only hex digits permitted in " ++ Text.repr s)
  else if s.toList.length > 4 then .error ("At most 4 characters permitted in " ++ Text.repr s)
  else if s = "" then .error "invalid literal for int() with base 16: ''"
  else .ok (s.toList.foldl (fun n c => 16 * n + (hexValue c).getD 0) 0)

/-- The value of hextets, after those that are read already. -/
def parseHextets : ℕ → List String → Except String ℕ
  | n, [] => .ok n
  | n, s :: l => do
    let v ← parseHextet s
    parseHextets (2 ^ 16 * n + v) l

/-- The parts of an address, an address of version 4 at the end taken for two hextets. -/
def expandV4 (whole : String) (parts : List String) : Except String (List String) :=
  let suffix := parts.getLastD ""
  if suffix.toList.contains '.' then
    match Ip.parse suffix with
    | .error e => .error (e ++ " in " ++ Text.repr whole)
    | .ok v => .ok (parts.dropLast ++ [hex (v / 2 ^ 16), hex (v % 2 ^ 16)])
  else .ok parts

/-- Where hextets are left out: the parts inside that are empty. -/
def skips (parts : List String) : List ℕ :=
  (List.range parts.length).filter fun i =>
    0 < i ∧ i + 1 < parts.length ∧ parts.getD i "" = ""

/-- How many parts there are before and after what is left out. -/
def partition (whole : String) (parts : List String) : Except String (ℕ × ℕ) :=
  let leading : String := "Leading ':' only permitted as part of '::' in " ++ Text.repr whole
  let trailing : String := "Trailing ':' only permitted as part of '::' in " ++ Text.repr whole
  match skips parts with
  | [] =>
    if parts.length ≠ 8 then
      .error ("Exactly 8 parts expected without '::' in " ++ Text.repr whole)
    else if parts.headD "" = "" then .error leading
    else if parts.getLastD "" = "" then .error trailing
    else .ok (8, 0)
  | [i] =>
    let hi := if parts.headD "" = "" then i - 1 else i
    let lo := if parts.getLastD "" = "" then parts.length - i - 2 else parts.length - i - 1
    if parts.headD "" = "" ∧ hi ≠ 0 then .error leading
    else if parts.getLastD "" = "" ∧ lo ≠ 0 then .error trailing
    else if hi + lo > 7 then
      .error ("Expected at most 7 other parts with '::' in " ++ Text.repr whole)
    else .ok (hi, lo)
  | _ => .error ("At most one '::' permitted in " ++ Text.repr whole)

/-- The value of an address without a scope, or what is wrong with it. -/
def parseBare (s : String) : Except String ℕ :=
  if s = "" then .error "Address cannot be empty"
  else if (Text.split ':' s).length < 3 then
    .error ("At least 3 parts expected in " ++ Text.repr s)
  else do
    let parts ← expandV4 s (Text.split ':' s)
    if parts.length > 9 then .error ("At most 8 colons permitted in " ++ Text.repr s)
    else
      let (hi, lo) ← partition s parts
      (do
        let n ← parseHextets 0 (parts.take hi)
        parseHextets (2 ^ (16 * (8 - (hi + lo))) * n) (parts.drop (parts.length - lo))).mapError
          (· ++ " in " ++ Text.repr s)

/-- `IPv6Address(s)` with its scope, or what is wrong with `s`. -/
def parse (s : String) : Except String (ℕ × Option String) :=
  let invalid : String := "Invalid IPv6 address: \"" ++ Text.repr s ++ "\""
  if s.toList.contains '/' then .error ("Unexpected '/' in " ++ Text.repr s)
  else
    match Text.split '%' s with
    | [a] => (parseBare a).map fun a => (a, none)
    | [a, scope] =>
      if scope = "" then .error invalid else (parseBare a).map fun a => (a, some scope)
    | _ => .error invalid

section Bounds

theorem hexValue_lt {c : Char} {n : ℕ} (h : hexValue c = some n) : n < 16 := by
  rw [hexValue] at h
  split_ifs at h with h₁ h₂ h₃ <;> obtain rfl := Option.some.inj h
  · have := UInt32.le_iff_toNat_le.1 h₁.2
    have h9 : ('9' : Char).toNat = 57 := rfl
    have h0 : ('0' : Char).toNat = 48 := rfl
    simp only [Char.toNat] at *
    omega
  · have := UInt32.le_iff_toNat_le.1 h₂.2
    have h9 : ('f' : Char).toNat = 102 := rfl
    have h0 : ('a' : Char).toNat = 97 := rfl
    simp only [Char.toNat] at *
    omega
  · have := UInt32.le_iff_toNat_le.1 h₃.2
    have h9 : ('F' : Char).toNat = 70 := rfl
    have h0 : ('A' : Char).toNat = 65 := rfl
    simp only [Char.toNat] at *
    omega

theorem foldl_hex_lt (l : List Char) (n : ℕ) :
    l.foldl (fun n c => 16 * n + (hexValue c).getD 0) n < (n + 1) * 16 ^ l.length := by
  induction l generalizing n with
  | nil => simp
  | cons c l ih =>
    have hc : (hexValue c).getD 0 < 16 := by
      cases hv : hexValue c with
      | none => decide
      | some v => exact hexValue_lt hv
    calc l.foldl (fun n c => 16 * n + (hexValue c).getD 0) (16 * n + (hexValue c).getD 0)
        < (16 * n + (hexValue c).getD 0 + 1) * 16 ^ l.length := ih _
      _ ≤ ((n + 1) * 16) * 16 ^ l.length := Nat.mul_le_mul_right _ (by omega)
      _ = (n + 1) * 16 ^ (c :: l).length := by rw [List.length_cons, pow_succ]; ring

theorem parseHextet_lt {s : String} {n : ℕ} (h : parseHextet s = .ok n) : n < 2 ^ 16 := by
  rw [parseHextet] at h
  split_ifs at h with h₁ h₂ h₃
  obtain rfl := Except.ok.inj h
  calc _ < (0 + 1) * 16 ^ s.toList.length := foldl_hex_lt _ _
    _ ≤ (0 + 1) * 16 ^ 4 := Nat.mul_le_mul_left _ (Nat.pow_le_pow_right (by decide) (by omega))
    _ = 2 ^ 16 := by norm_num

theorem parseHextets_lt {l : List String} {n v : ℕ} (h : parseHextets n l = .ok v) :
    v < (n + 1) * 2 ^ (16 * l.length) := by
  induction l generalizing n with
  | nil =>
    obtain rfl := Except.ok.inj h
    simp
  | cons s l ih =>
    rw [parseHextets, ExceptRules.bind_eq_ok] at h
    obtain ⟨d, hd, hrest⟩ := h
    have hlt := parseHextet_lt hd
    calc v < (2 ^ 16 * n + d + 1) * 2 ^ (16 * l.length) := ih hrest
      _ ≤ ((n + 1) * 2 ^ 16) * 2 ^ (16 * l.length) := Nat.mul_le_mul_right _ (by omega)
      _ = (n + 1) * 2 ^ (16 * (s :: l).length) := by
        rw [List.length_cons, Nat.mul_succ, pow_add]
        ring

theorem partition_le {s : String} {parts : List String} {hi lo : ℕ}
    (h : partition s parts = .ok (hi, lo)) : hi + lo ≤ 8 := by
  rw [partition] at h
  split at h
  · split_ifs at h
    obtain ⟨rfl, rfl⟩ := Prod.mk.inj (Except.ok.inj h)
    decide
  · dsimp only at h
    split_ifs at h
    all_goals
      obtain ⟨rfl, rfl⟩ := Prod.mk.inj (Except.ok.inj h)
      omega
  · cases h

theorem parseBare_lt {s : String} {a : ℕ} (h : parseBare s = .ok a) : a < 2 ^ 128 := by
  rw [parseBare] at h
  split_ifs at h
  rw [ExceptRules.bind_eq_ok] at h
  obtain ⟨parts, -, h⟩ := h
  split_ifs at h
  rw [ExceptRules.bind_eq_ok] at h
  obtain ⟨⟨hi, lo⟩, hpart, h⟩ := h
  have hle := partition_le hpart
  rw [Ip.mapError_eq_ok, ExceptRules.bind_eq_ok] at h
  obtain ⟨n, hn, h⟩ := h
  have hhi : n + 1 ≤ 2 ^ (16 * hi) := by
    calc n + 1 ≤ (0 + 1) * 2 ^ (16 * (parts.take hi).length) := parseHextets_lt hn
      _ ≤ 2 ^ (16 * hi) := by
        rw [Nat.zero_add, Nat.one_mul]
        exact Nat.pow_le_pow_right (by decide) (Nat.mul_le_mul_left _ (List.length_take_le _ _))
  have hlo : (parts.drop (parts.length - lo)).length ≤ lo := by
    rw [List.length_drop]
    omega
  have hpos : 0 < 2 ^ (16 * (8 - (hi + lo))) := Nat.two_pow_pos _
  calc a < (2 ^ (16 * (8 - (hi + lo))) * n + 1) *
        2 ^ (16 * (parts.drop (parts.length - lo)).length) := parseHextets_lt h
    _ ≤ (2 ^ (16 * (8 - (hi + lo))) * (n + 1)) * 2 ^ (16 * lo) := by
        refine Nat.mul_le_mul ?_ (Nat.pow_le_pow_right (by decide) (by omega))
        rw [Nat.mul_succ]
        omega
    _ ≤ (2 ^ (16 * (8 - (hi + lo))) * 2 ^ (16 * hi)) * 2 ^ (16 * lo) :=
        Nat.mul_le_mul_right _ (Nat.mul_le_mul_left _ hhi)
    _ = 2 ^ 128 := by
        rw [← pow_add, ← pow_add]
        congr 1
        omega

theorem parse_lt {s : String} {a : ℕ} {scope : Option String} (h : parse s = .ok (a, scope)) :
    a < 2 ^ 128 := by
  have hbare : ∀ {t : String} {f : Option String},
      ((parseBare t).map fun a => (a, f)) = .ok (a, scope) → a < 2 ^ 128 := by
    intro t f ht
    cases hp : parseBare t with
    | error e =>
      rw [hp] at ht
      cases ht
    | ok v =>
      rw [hp] at ht
      obtain ⟨rfl, -⟩ := Prod.mk.inj (Except.ok.inj ht)
      exact parseBare_lt hp
  rw [parse] at h
  split_ifs at h
  split at h
  · exact hbare h
  · split_ifs at h
    exact hbare h
  · cases h

end Bounds

/-! ## Four hextets -/

section Four

theorem ne_empty_of_parseHextet {s : String} {v : ℕ} (h : parseHextet s = .ok v) : s ≠ "" := by
  rintro rfl
  cases h

theorem isHex_of_parseHextet {s : String} {v : ℕ} (h : parseHextet s = .ok v) {c : Char}
    (hc : c ∈ s.toList) : (hexValue c).isSome := by
  rw [parseHextet] at h
  split_ifs at h with hall
  exact List.all_eq_true.1 hall c hc

theorem notMem_of_parseHextet {s : String} {v : ℕ} (h : parseHextet s = .ok v) {c : Char}
    (hc : hexValue c = none) : c ∉ s.toList := fun hmem => by
  have hsome := isHex_of_parseHextet h hmem
  rw [hc] at hsome
  cases hsome

variable {p₀ p₁ p₂ p₃ : String} {v₀ v₁ v₂ v₃ : ℕ} (h₀ : parseHextet p₀ = .ok v₀)
  (h₁ : parseHextet p₁ = .ok v₁) (h₂ : parseHextet p₂ = .ok v₂) (h₃ : parseHextet p₃ = .ok v₃)

include h₀ h₁ h₂ h₃

/-- Four hextets and then zeros, taken apart at the colons. -/
theorem split_four : Text.split ':' (p₀ ++ ":" ++ p₁ ++ ":" ++ p₂ ++ ":" ++ p₃ ++ "::") =
    [p₀, p₁, p₂, p₃, "", ""] := by
  have hlist : (p₀ ++ ":" ++ p₁ ++ ":" ++ p₂ ++ ":" ++ p₃ ++ "::").toList =
      List.intercalate [':'] [p₀.toList, p₁.toList, p₂.toList, p₃.toList, [], []] := by
    simp [List.intercalate, List.intersperse]
  rw [Text.split, hlist, List.splitOn_intercalate]
  · simp
  · intro l hl
    have hcolon : hexValue ':' = none := by decide
    simp only [List.mem_cons, List.not_mem_nil, or_false] at hl
    rcases hl with rfl | rfl | rfl | rfl | rfl | rfl
    · exact notMem_of_parseHextet h₀ hcolon
    · exact notMem_of_parseHextet h₁ hcolon
    · exact notMem_of_parseHextet h₂ hcolon
    · exact notMem_of_parseHextet h₃ hcolon
    · simp
    · simp
  · simp

theorem notMem_four {c : Char} (hc : hexValue c = none) (hne : c ≠ ':') :
    c ∉ (p₀ ++ ":" ++ p₁ ++ ":" ++ p₂ ++ ":" ++ p₃ ++ "::").toList := by
  have := notMem_of_parseHextet h₀ hc
  have := notMem_of_parseHextet h₁ hc
  have := notMem_of_parseHextet h₂ hc
  have := notMem_of_parseHextet h₃ hc
  simp [*]

/-- Reading four hextets and then zeros. -/
theorem parseBare_four : parseBare (p₀ ++ ":" ++ p₁ ++ ":" ++ p₂ ++ ":" ++ p₃ ++ "::") =
    .ok (2 ^ 64 * (2 ^ 16 * (2 ^ 16 * (2 ^ 16 * v₀ + v₁) + v₂) + v₃)) := by
  have hne : p₀ ++ ":" ++ p₁ ++ ":" ++ p₂ ++ ":" ++ p₃ ++ "::" ≠ "" := by
    intro h
    have := congrArg String.toList h
    simp at this
  have hskips : skips [p₀, p₁, p₂, p₃, "", ""] = [4] := by
    have := ne_empty_of_parseHextet h₁
    have := ne_empty_of_parseHextet h₂
    have := ne_empty_of_parseHextet h₃
    simp [skips, List.range, List.range.loop, *]
  have hpart : ∀ whole, partition whole [p₀, p₁, p₂, p₃, "", ""] = .ok (4, 0) := by
    intro whole
    rw [partition, hskips]
    simp [ne_empty_of_parseHextet h₀]
  have hv4 : ∀ whole, expandV4 whole [p₀, p₁, p₂, p₃, "", ""] =
      .ok [p₀, p₁, p₂, p₃, "", ""] := fun whole => rfl
  rw [parseBare, if_neg hne, split_four h₀ h₁ h₂ h₃, if_neg (by simp), hv4]
  simp [hpart, parseHextets, h₀, h₁, h₂, h₃, bind, Except.bind, Except.mapError]

end Four

/-! ## Networks -/

/-- A network of addresses. -/
structure Network where
  address : ℕ
  scope : Option String
  prefixlen : ℕ
  prefixlen_le : prefixlen ≤ 128
  address_lt : address < 2 ^ 128
  /-- No bit of the address is below the prefix. -/
  dvd_address : 2 ^ (128 - prefixlen) ∣ address

namespace Network

variable (n : Network)

/-- `net.num_addresses`. -/
def numAddresses : ℕ := 2 ^ (128 - n.prefixlen)

/-- `net.broadcast_address`. -/
def broadcast : ℕ := n.address + (n.numAddresses - 1)

/-- `address in net`: the bits of the prefix are those of the network. -/
def contains (a : ℕ) : Bool := a - a % n.numAddresses = n.address

/-- `net.network_address.ipv4_mapped is not None`. -/
def isMapped : Bool := n.address / 2 ^ 32 = 0xFFFF

/-- `str(net)`. -/
def text : String :=
  Ip6.text n.address ++ (n.scope.map ("%" ++ ·)).getD "" ++ "/" ++ toString n.prefixlen

/-- The network of a length of prefix that an address is in; an address that is not the first one
    loses its scope. -/
def ofAddress (a : ℕ) (scope : Option String) (prefixlen : ℕ) (ha : a < 2 ^ 128)
    (hp : prefixlen ≤ 128) : Network where
  address := a - a % 2 ^ (128 - prefixlen)
  scope := if a % 2 ^ (128 - prefixlen) = 0 then scope else none
  prefixlen := prefixlen
  prefixlen_le := hp
  address_lt := lt_of_le_of_lt (Nat.sub_le _ _) ha
  dvd_address := Nat.dvd_sub_mod a

/-- The length of prefix that a numeral stands for. -/
def parsePrefix (s : String) : Except String ℕ :=
  if s ≠ "" ∧ s.toList.all Char.isDigit ∧ Nat.ofDigitChars 10 s.toList 0 ≤ 128 then
    .ok (Nat.ofDigitChars 10 s.toList 0)
  else .error (Text.repr s ++ " is not a valid netmask")

theorem parsePrefix_le {s : String} {p : ℕ} (h : parsePrefix s = .ok p) : p ≤ 128 := by
  rw [parsePrefix] at h
  split at h
  · rename_i hnum
    exact Except.ok.inj h ▸ hnum.2.2
  · cases h

/-- `IPv6Network(s, strict=False)`, or what is wrong with `s`. -/
def parse (s : String) : Except String Network :=
  match Text.split '/' s with
  | [a] =>
    match ha : Ip6.parse a with
    | .ok (a, scope) => .ok (ofAddress a scope 128 (parse_lt ha) le_rfl)
    | .error e => .error e
  | [a, mask] =>
    match ha : Ip6.parse a with
    | .ok (a, scope) =>
      match hp : parsePrefix mask with
      | .ok p => .ok (ofAddress a scope p (parse_lt ha) (parsePrefix_le hp))
      | .error e => .error e
    | .error e => .error e
  | _ => .error ("Only one '/' permitted in " ++ Text.repr s)

example : (parse "2001:DB8::7%eth0/48").map (·.text) = .ok "2001:db8::/48" := by decide

section Lemmas

variable {n m : Network}

theorem contains_address : n.contains n.address = true := by
  rw [contains, decide_eq_true_eq, numAddresses, Nat.mod_eq_zero_of_dvd n.dvd_address, Nat.sub_zero]

/-- Networks of the same size have an address in common just if they are the same. -/
theorem exists_contains_iff (h : n.prefixlen = m.prefixlen) :
    (∃ a, n.contains a = true ∧ m.contains a = true) ↔ n.address = m.address := by
  have hsize : n.numAddresses = m.numAddresses := by rw [numAddresses, numAddresses, h]
  constructor
  · rintro ⟨a, hn, hm⟩
    rw [contains, decide_eq_true_eq] at hn hm
    rw [← hn, ← hm, hsize]
  · intro heq
    refine ⟨n.address, contains_address, ?_⟩
    rw [heq]
    exact contains_address

theorem split_of_notMem {c : Char} {t : String} (h : c ∉ t.toList) : Text.split c t = [t] := by
  have hlist : t.toList = List.intercalate [c] [t.toList] := by
    simp [List.intercalate]
  rw [Text.split, hlist, List.splitOn_intercalate, List.map_singleton, String.ofList_toList]
  · intro l hl
    exact List.mem_singleton.1 hl ▸ h
  · simp

theorem parsePrefix_toString : ∀ p ≤ 128, parsePrefix (toString p) = .ok p := by
  decide

/-- Reading an address without a scope and a length of prefix. -/
theorem parse_of_parseBare {t : String} {a p : ℕ} (hbare : parseBare t = .ok a)
    (hslash : '/' ∉ t.toList) (hscope : '%' ∉ t.toList) (hp : p ≤ 128) :
    parse (t ++ "/" ++ toString p) = .ok (ofAddress a none p (parseBare_lt hbare) hp) := by
  have hsplit : Text.split '/' (t ++ "/" ++ toString p) = [t, toString p] := by
    have hlist : (t ++ "/" ++ toString p).toList =
        List.intercalate ['/'] [t.toList, (toString p).toList] := by
      simp [List.intercalate, List.intersperse]
    rw [Text.split, hlist, List.splitOn_intercalate, List.map_cons, List.map_singleton,
      String.ofList_toList, String.ofList_toList]
    · intro l hl
      rcases List.mem_pair.1 hl with rfl | rfl
      · exact hslash
      · exact Ip.notMem_toString (by decide) _
    · simp
  have haddr : Ip6.parse t = .ok (a, none) := by
    rw [Ip6.parse, if_neg, split_of_notMem hscope]
    · simp only [hbare, Except.map]
    · rwa [List.contains_iff_mem]
  have hpre := parsePrefix_toString p hp
  rw [parse, hsplit]
  dsimp only
  split
  · rename_i a' scope ha
    obtain ⟨rfl, rfl⟩ := Prod.mk.inj (Except.ok.inj (haddr.symm.trans ha))
    split
    · rename_i p' hp'
      obtain rfl := Except.ok.inj (hpre.symm.trans hp')
      rfl
    · rename_i e he
      rw [hpre] at he
      cases he
  · rename_i e he
    rw [haddr] at he
    cases he

end Lemmas

end Network

end Ip6

namespace Ip

/-- A network of either version. -/
inductive AnyNetwork
  | v4 (net : Network)
  | v6 (net : Ip6.Network)

namespace AnyNetwork

/-- `str(net)`. -/
def text : AnyNetwork → String
  | .v4 net => net.text
  | .v6 net => net.text

/-- `ip_network(s, strict=False)`, or what is wrong with `s`. -/
def parse (s : String) : Except String AnyNetwork :=
  match Network.parse s with
  | .ok net => .ok (.v4 net)
  | .error _ =>
    match Ip6.Network.parse s with
    | .ok net => .ok (.v6 net)
    | .error _ => .error (Text.repr s ++ " does not appear to be an IPv4 or IPv6 network")

/-- `net.overlaps(other)`: networks of different versions do not. -/
def overlapsV4 (net : Network) : AnyNetwork → Bool
  | .v4 other => net.overlaps other
  | .v6 _ => false

end AnyNetwork

end Ip
