import Dnlab.Lib.Except
import Dnlab.Lib.Text
import Mathlib.Data.Nat.ModEq
import Mathlib.Tactic.NormNum

/-!
# Internet addresses

Addresses of version 4 and their networks, as a scripting language reads and
prints them: four decimal octets without leading zeros, and a network given by
an address and a length of prefix, a netmask or a hostmask. An address is a
number; a network carries the proof that its address has no bits below its
prefix.

Reading is the inverse of printing in both directions (`parse_text`,
`text_of_parse`). Two networks overlap just if they have an address in common
(`overlaps_iff`).
-/

namespace Ip

/-! ## Addresses -/

/-- `str(address)`. -/
def text (a : ℕ) : String :=
  toString (a / 2 ^ 24 % 256) ++ "." ++ toString (a / 2 ^ 16 % 256) ++ "." ++
    toString (a / 2 ^ 8 % 256) ++ "." ++ toString (a % 256)

/-- The value of an octet, or what is wrong with it. -/
def parseOctet (s : String) : Except String ℕ :=
  if s = "" then .error "Empty octet not permitted"
  else if ¬s.toList.all Char.isDigit then
    .error ("Only decimal digits permitted in " ++ Text.repr s)
  else if s.toList.length > 3 then .error ("At most 3 characters permitted in " ++ Text.repr s)
  else if s ≠ "0" ∧ s.toList.head? = some '0' then
    .error ("Leading zeros are not permitted in " ++ Text.repr s)
  else if Nat.ofDigitChars 10 s.toList 0 > 255 then
    .error ("Octet " ++ toString (Nat.ofDigitChars 10 s.toList 0) ++ " (> 255) not permitted")
  else .ok (Nat.ofDigitChars 10 s.toList 0)

/-- The octets of a text, from the one that counts most. -/
def parseOctets (whole : String) : List String → Except String ℕ
  | [a, b, c, d] => (do
      let a ← parseOctet a
      let b ← parseOctet b
      let c ← parseOctet c
      let d ← parseOctet d
      pure (((a * 256 + b) * 256 + c) * 256 + d)).mapError (· ++ " in " ++ Text.repr whole)
  | _ => .error ("Expected 4 octets in " ++ Text.repr whole)

/-- `IPv4Address(s)`, or what is wrong with `s`. -/
def parse (s : String) : Except String ℕ :=
  if s.toList.contains '/' then .error ("Unexpected '/' in " ++ Text.repr s)
  else if s = "" then .error "Address cannot be empty"
  else parseOctets s (Text.split '.' s)

section Address

theorem mapError_eq_ok {α ε ε' : Type} {x : Except ε α} {f : ε → ε'} {a : α} :
    x.mapError f = .ok a ↔ x = .ok a := by
  cases x <;> simp [Except.mapError]

variable {a b : ℕ} {s : String}

theorem parseOctet_toString : ∀ n < 256, parseOctet (toString n) = .ok n := by
  decide +kernel

theorem parseOctet_eq_ok {n : ℕ} (h : parseOctet s = .ok n) : n < 256 ∧ toString n = s := by
  rw [parseOctet] at h
  split_ifs at h with hempty hdigit hlen hlead hlarge
  obtain rfl := Except.ok.inj h
  rw [List.all_eq_true] at hdigit
  have hne : s.toList ≠ [] := fun hnil => hempty (String.toList_eq_nil_iff.1 hnil)
  refine ⟨by omega, ?_⟩
  rw [Nat.toString_eq_ofList_toDigits, Text.toDigits_ofDigitChars hdigit hne,
    String.ofList_toList]
  by_cases hzero : s = "0"
  · exact .inl (by rw [hzero]; rfl)
  · exact .inr fun hhead => hlead ⟨hzero, hhead⟩

/-- A numeral has digits only. -/
theorem notMem_toString {c : Char} (hc : c.isDigit = false) (n : ℕ) : c ∉ (toString n).toList := by
  intro h
  rw [Nat.toString_eq_ofList_toDigits, String.toList_ofList] at h
  exact absurd (Nat.isDigit_of_mem_toDigits (by decide) (by decide) h) (by rw [hc]; decide)

/-- The octets of an address, from the one that counts most. -/
def octets (a : ℕ) : List ℕ := [a / 2 ^ 24 % 256, a / 2 ^ 16 % 256, a / 2 ^ 8 % 256, a % 256]

theorem toList_text :
    (text a).toList = List.intercalate ['.'] ((octets a).map fun n => (toString n).toList) := by
  simp [text, octets, List.intercalate, List.intersperse]

theorem split_text : Text.split '.' (text a) = (octets a).map toString := by
  rw [Text.split, toList_text, List.splitOn_intercalate, List.map_map]
  · exact List.map_congr_left fun n _ => String.ofList_toList
  · intro l hl
    obtain ⟨n, -, rfl⟩ := List.mem_map.1 hl
    exact notMem_toString (by decide) n
  · simp [octets]

theorem slash_notMem_text (a : ℕ) : '/' ∉ (text a).toList := by
  have hnone : ∀ n, '/' ∉ Nat.toDigits 10 n := fun n => by
    simpa using notMem_toString (c := '/') (by decide) n
  simp [text, hnone]

theorem text_ne_empty (a : ℕ) : text a ≠ "" := by
  intro h
  have := congrArg (fun s : String => s.toList.contains '.') h
  simp [text] at this

/-- Reading what is printed. -/
theorem parse_text (h : a < 2 ^ 32) : parse (text a) = .ok a := by
  have hslash : ¬(text a).toList.contains '/' = true := by
    simpa using slash_notMem_text a
  have hoctet : ∀ n, parseOctet (toString (n % 256)) = .ok (n % 256) := fun n =>
    parseOctet_toString _ (Nat.mod_lt _ (by decide))
  rw [parse, if_neg hslash, if_neg (text_ne_empty a), split_text]
  show (do
      let a₃ ← parseOctet (toString (a / 2 ^ 24 % 256))
      let a₂ ← parseOctet (toString (a / 2 ^ 16 % 256))
      let a₁ ← parseOctet (toString (a / 2 ^ 8 % 256))
      let a₀ ← parseOctet (toString (a % 256))
      pure (((a₃ * 256 + a₂) * 256 + a₁) * 256 + a₀) : Except String ℕ).mapError _ = _
  rw [hoctet, hoctet, hoctet, hoctet]
  refine congrArg Except.ok ?_
  omega

/-- Printing what is read. -/
theorem text_of_parse (h : parse s = .ok a) : a < 2 ^ 32 ∧ text a = s := by
  rw [parse] at h
  split_ifs at h
  have hsplit : s.toList = List.intercalate ['.'] ((Text.split '.' s).map String.toList) := by
    rw [Text.split, List.map_map]
    exact ((congrArg _ ((List.map_congr_left fun l _ => String.toList_ofList).trans
      (List.map_id _))).trans (List.intercalate_splitOn '.')).symm
  generalize Text.split '.' s = parts at h hsplit
  rcases parts with _ | ⟨p₃, _ | ⟨p₂, _ | ⟨p₁, _ | ⟨p₀, _ | ⟨p, parts⟩⟩⟩⟩⟩
  case cons.cons.cons.cons.nil =>
    obtain ⟨a₃, a₂, a₁, a₀, h₃, h₂, h₁, h₀, rfl⟩ : ∃ a₃ a₂ a₁ a₀, parseOctet p₃ = .ok a₃ ∧
        parseOctet p₂ = .ok a₂ ∧ parseOctet p₁ = .ok a₁ ∧ parseOctet p₀ = .ok a₀ ∧
          ((a₃ * 256 + a₂) * 256 + a₁) * 256 + a₀ = a := by
      rw [parseOctets, mapError_eq_ok] at h
      simpa only [ExceptRules.bind_eq_ok, ExceptRules.pure_eq_ok, exists_and_left] using h
    obtain ⟨hlt₃, rfl⟩ := parseOctet_eq_ok h₃
    obtain ⟨hlt₂, rfl⟩ := parseOctet_eq_ok h₂
    obtain ⟨hlt₁, rfl⟩ := parseOctet_eq_ok h₁
    obtain ⟨hlt₀, rfl⟩ := parseOctet_eq_ok h₀
    refine ⟨by omega, String.toList_inj.1 ?_⟩
    rw [toList_text, hsplit]
    congr 1
    have ho : octets (((a₃ * 256 + a₂) * 256 + a₁) * 256 + a₀) = [a₃, a₂, a₁, a₀] := by
      simp only [octets, List.cons.injEq, and_true]
      omega
    rw [ho]
    rfl
  all_goals cases h

end Address

/-- Addresses are printed differently. -/
theorem text_inj {a b : ℕ} (ha : a < 2 ^ 32) (hb : b < 2 ^ 32) (h : text a = text b) : a = b := by
  have hp := parse_text ha
  rw [h, parse_text hb] at hp
  exact (Except.ok.inj hp).symm

/-! ## Networks -/

/-- A network of addresses. -/
structure Network where
  address : ℕ
  prefixlen : ℕ
  prefixlen_le : prefixlen ≤ 32
  address_lt : address < 2 ^ 32
  /-- No bit of the address is below the prefix. -/
  dvd_address : 2 ^ (32 - prefixlen) ∣ address

namespace Network

@[ext] theorem ext {n m : Network} (ha : n.address = m.address) (hp : n.prefixlen = m.prefixlen) :
    n = m := by
  cases n
  cases m
  obtain rfl : _ = _ := ha
  obtain rfl : _ = _ := hp
  rfl

instance : DecidableEq Network := fun n m =>
  decidable_of_iff (n.address = m.address ∧ n.prefixlen = m.prefixlen)
    ⟨fun h => ext h.1 h.2, fun h => h ▸ ⟨rfl, rfl⟩⟩

variable (n m : Network)

/-- `net.num_addresses`. -/
def numAddresses : ℕ := 2 ^ (32 - n.prefixlen)

/-- `net.broadcast_address`. -/
def broadcast : ℕ := n.address + (n.numAddresses - 1)

/-- `address in net`: the bits of the prefix are those of the network. -/
def contains (a : ℕ) : Bool := a - a % n.numAddresses = n.address

/-- `net.hosts()`, in order. -/
def hosts : List ℕ :=
  if n.prefixlen = 32 then [n.address]
  else if n.prefixlen = 31 then [n.address, n.address + 1]
  else List.range' (n.address + 1) (n.numAddresses - 2)

/-- `net.overlaps(other)`. -/
def overlaps : Bool :=
  m.contains n.address || m.contains n.broadcast || n.contains m.address || n.contains m.broadcast

/-- `str(net)`. -/
def text : String := Ip.text n.address ++ "/" ++ toString n.prefixlen

/-- The network of a length of prefix that an address is in. -/
def ofAddress (a prefixlen : ℕ) (ha : a < 2 ^ 32) (hp : prefixlen ≤ 32) : Network where
  address := a - a % 2 ^ (32 - prefixlen)
  prefixlen := prefixlen
  prefixlen_le := hp
  address_lt := lt_of_le_of_lt (Nat.sub_le _ _) ha
  dvd_address := Nat.dvd_sub_mod a

/-- The length of the prefix that a mask has ones for. -/
def prefixOfMask (mask : ℕ) : Option ℕ :=
  (List.range 33).find? fun p => mask = 2 ^ 32 - 2 ^ (32 - p)

/-- The length of prefix that a text stands for: its numeral, a netmask or a hostmask. -/
def parsePrefix (s : String) : Except String ℕ :=
  let invalid : String := Text.repr s ++ " is not a valid netmask"
  if s ≠ "" ∧ s.toList.all Char.isDigit ∧ Nat.ofDigitChars 10 s.toList 0 ≤ 32 then
    .ok (Nat.ofDigitChars 10 s.toList 0)
  else
    match parse s with
    | .error _ => .error invalid
    | .ok mask =>
      match (prefixOfMask mask).or (prefixOfMask (2 ^ 32 - 1 - mask)) with
      | some p => .ok p
      | none => .error invalid

theorem prefixOfMask_le {mask p : ℕ} (h : prefixOfMask mask = some p) : p ≤ 32 := by
  have := List.mem_range.1 (List.mem_of_find?_eq_some h)
  omega

theorem parsePrefix_le {s : String} {p : ℕ} (h : parsePrefix s = .ok p) : p ≤ 32 := by
  rw [parsePrefix] at h
  split at h
  · rename_i hnum
    exact Except.ok.inj h ▸ hnum.2.2
  · split at h
    · cases h
    · split at h
      · rename_i hmask
        obtain rfl := Except.ok.inj h
        rcases Option.or_eq_some_iff.1 hmask with hm | ⟨-, hm⟩ <;> exact prefixOfMask_le hm
      · cases h

/-- `IPv4Network(s, strict=False)`, or what is wrong with `s`. -/
def parse (s : String) : Except String Network :=
  match Text.split '/' s with
  | [a] =>
    match ha : Ip.parse a with
    | .ok a => .ok (ofAddress a 32 (text_of_parse ha).1 le_rfl)
    | .error e => .error e
  | [a, mask] =>
    match ha : Ip.parse a with
    | .ok a =>
      match hp : parsePrefix mask with
      | .ok p => .ok (ofAddress a p (text_of_parse ha).1 (parsePrefix_le hp))
      | .error e => .error e
    | .error e => .error e
  | _ => .error ("Only one '/' permitted in " ++ Text.repr s)

example : (parse "10.1.2.3/255.255.255.0").map (·.text) = .ok "10.1.2.0/24" := by decide

section Lemmas

variable {n m : Network} {a : ℕ}

theorem numAddresses_pos : 0 < n.numAddresses := Nat.two_pow_pos _

/-- A network has at least as many addresses as any longer prefix leaves. -/
theorem two_pow_le_numAddresses {k : ℕ} (h : n.prefixlen + k ≤ 32) : 2 ^ k ≤ n.numAddresses :=
  Nat.pow_le_pow_right (by decide) (by omega)

theorem contains_iff : n.contains a = true ↔ n.address ≤ a ∧ a < n.address + n.numAddresses := by
  obtain ⟨k, hk⟩ := n.dvd_address
  have hpos : 0 < n.numAddresses := numAddresses_pos
  have hmod := Nat.mod_lt a hpos
  have hdiv := Nat.div_add_mod a n.numAddresses
  rw [contains, decide_eq_true_eq]
  constructor
  · intro h
    have := Nat.mod_le a n.numAddresses
    omega
  · rintro ⟨hle, hlt⟩
    have hq : a / n.numAddresses = k := by
      refine Nat.div_eq_of_lt_le ?_ ?_
      · rw [Nat.mul_comm]
        exact hk ▸ hle
      · rw [Nat.succ_mul, Nat.mul_comm]
        exact hk ▸ hlt
    rw [hq] at hdiv
    have hk' : n.address = n.numAddresses * k := hk
    omega

/-- A network ends within the addresses. -/
theorem address_add_le : n.address + n.numAddresses ≤ 2 ^ 32 := by
  obtain ⟨k, hk⟩ := n.dvd_address
  have hall : 2 ^ (32 - n.prefixlen) * 2 ^ n.prefixlen = 2 ^ 32 := by
    rw [← pow_add, Nat.sub_add_cancel n.prefixlen_le]
  have hlt : k < 2 ^ n.prefixlen := by
    refine Nat.lt_of_mul_lt_mul_left (a := 2 ^ (32 - n.prefixlen)) ?_
    rw [hall, ← hk]
    exact n.address_lt
  calc n.address + n.numAddresses = 2 ^ (32 - n.prefixlen) * (k + 1) := by
        rw [hk, numAddresses, Nat.mul_succ]
    _ ≤ 2 ^ (32 - n.prefixlen) * 2 ^ n.prefixlen := Nat.mul_le_mul_left _ hlt
    _ = 2 ^ 32 := hall

theorem lt_of_contains (h : n.contains a = true) : a < 2 ^ 32 :=
  lt_of_lt_of_le (contains_iff.1 h).2 address_add_le

/-- The hosts of a network that has at least four addresses are between its own address and the
    broadcast address. -/
theorem mem_hosts_iff (h : n.prefixlen ≤ 30) :
    a ∈ n.hosts ↔ n.address < a ∧ a < n.broadcast := by
  have hsize : 2 ^ 2 ≤ n.numAddresses := two_pow_le_numAddresses (by omega)
  rw [hosts, if_neg (by omega), if_neg (by omega), List.mem_range'_1, broadcast]
  omega

theorem nodup_hosts : n.hosts.Nodup := by
  rw [hosts]
  split_ifs with h h'
  · simp
  · simp
  · exact List.nodup_range'

theorem contains_of_mem_hosts (h : n.prefixlen ≤ 30) (ha : a ∈ n.hosts) : n.contains a = true := by
  rw [mem_hosts_iff h, broadcast] at ha
  rw [contains_iff]
  omega

theorem ofAddress_address (n : Network) :
    ofAddress n.address n.prefixlen n.address_lt n.prefixlen_le = n := by
  refine ext ?_ rfl
  show n.address - n.address % 2 ^ (32 - n.prefixlen) = n.address
  rw [Nat.mod_eq_zero_of_dvd n.dvd_address, Nat.sub_zero]

theorem parsePrefix_toString : ∀ p ≤ 32, parsePrefix (toString p) = .ok p := by
  decide

theorem split_text (n : Network) :
    Text.split '/' n.text = [Ip.text n.address, toString n.prefixlen] := by
  have hlist : n.text.toList =
      List.intercalate ['/'] [(Ip.text n.address).toList, (toString n.prefixlen).toList] := by
    simp [text, List.intercalate, List.intersperse]
  rw [Text.split, hlist, List.splitOn_intercalate, List.map_cons, List.map_singleton,
    String.ofList_toList, String.ofList_toList]
  · intro l hl
    rcases List.mem_pair.1 hl with rfl | rfl
    · exact slash_notMem_text _
    · exact notMem_toString (by decide) _
  · simp

/-- Reading a network that is printed. -/
theorem parse_text (n : Network) : parse n.text = .ok n := by
  have hp := parsePrefix_toString n.prefixlen n.prefixlen_le
  rw [parse, split_text]
  dsimp only
  split
  · rename_i a ha
    obtain rfl := Except.ok.inj ((Ip.parse_text n.address_lt).symm.trans ha)
    split
    · rename_i p hp'
      obtain rfl := Except.ok.inj (hp.symm.trans hp')
      exact congrArg Except.ok (ofAddress_address n)
    · rename_i e he
      rw [hp] at he
      cases he
  · rename_i e he
    rw [Ip.parse_text n.address_lt] at he
    cases he

/-- Networks overlap just if they have an address in common. -/
theorem overlaps_iff :
    n.overlaps m = true ↔ ∃ a, n.contains a = true ∧ m.contains a = true := by
  have hn : 0 < n.numAddresses := numAddresses_pos
  have hm : 0 < m.numAddresses := numAddresses_pos
  simp only [overlaps, Bool.or_eq_true, contains_iff, broadcast]
  constructor
  · rintro (((h | h) | h) | h)
    · exact ⟨n.address, by omega, h⟩
    · exact ⟨n.address + (n.numAddresses - 1), by omega, h⟩
    · exact ⟨m.address, h, by omega⟩
    · exact ⟨m.address + (m.numAddresses - 1), h, by omega⟩
  · rintro ⟨a, ha, ha'⟩
    omega

end Lemmas

end Network

end Ip
