import Mathlib.Algebra.Group.Nat.Defs
import Mathlib.Data.List.Basic

/-!
# Digests

UTF-8, SHA-1 and CRC-32, on numbers: a byte is a number below `2 ^ 8` and a word
one below `2 ^ 32`. They evaluate in the kernel.
-/

namespace Hash

/-- The UTF-8 bytes of a character. -/
def utf8Char (c : Char) : List ℕ :=
  let n := c.toNat
  if n < 0x80 then [n]
  else if n < 0x800 then [0xC0 + n / 0x40, 0x80 + n % 0x40]
  else if n < 0x10000 then [0xE0 + n / 0x1000, 0x80 + n / 0x40 % 0x40, 0x80 + n % 0x40]
  else [0xF0 + n / 0x40000, 0x80 + n / 0x1000 % 0x40, 0x80 + n / 0x40 % 0x40, 0x80 + n % 0x40]

/-- `s.encode()`. -/
def encode (s : String) : List ℕ := s.toList.flatMap utf8Char

/-! ## CRC-32 -/

/-- Shift one bit out of the register of the reflected polynomial. -/
def crcBit (crc : ℕ) : ℕ := if crc % 2 = 1 then (crc / 2) ^^^ 0xEDB88320 else crc / 2

/-- Feed one byte. -/
def crcByte (crc b : ℕ) : ℕ := (List.range 8).foldl (fun r _ => crcBit r) (crc ^^^ b)

/-- `binascii.crc32(data)`. -/
def crc32 (data : List ℕ) : ℕ := data.foldl crcByte 0xFFFFFFFF ^^^ 0xFFFFFFFF

/-! ## SHA-1 -/

/-- Addition of words. -/
def add (x y : ℕ) : ℕ := (x + y) % 2 ^ 32

/-- Left rotation of a word. -/
def rotl (x n : ℕ) : ℕ := (x <<< n ||| x >>> (32 - n)) % 2 ^ 32

/-- The complement of a word. -/
def not32 (x : ℕ) : ℕ := x ^^^ 0xFFFFFFFF

/-- The big-endian bytes of a number, `k` of them. -/
def bytesBE : (k : ℕ) → ℕ → List ℕ
  | 0, _ => []
  | k + 1, n => n / 2 ^ (8 * k) % 2 ^ 8 :: bytesBE k n

/-- The message with its padding and its length in bits. -/
def pad (data : List ℕ) : List ℕ :=
  data ++ [0x80] ++ List.replicate ((119 - data.length % 64) % 64) 0 ++
    bytesBE 8 (8 * data.length)

/-- The words of a list of bytes. -/
def wordsBE : List ℕ → List ℕ
  | a :: b :: c :: d :: l => (a <<< 24 ||| b <<< 16 ||| c <<< 8 ||| d) :: wordsBE l
  | _ => []

/-- The words of a block extended to the schedule, the last word first. -/
def extend : (k : ℕ) → List ℕ → List ℕ
  | 0, ws => ws
  | k + 1, ws =>
    let at' i := ws.getD i 0
    extend k (rotl (at' 2 ^^^ at' 7 ^^^ at' 13 ^^^ at' 15) 1 :: ws)

/-- The five words of a digest. -/
structure Digest where
  a : ℕ
  b : ℕ
  c : ℕ
  d : ℕ
  e : ℕ

/-- The word function and the constant of round `t`. -/
def mix (t : ℕ) (s : Digest) : ℕ × ℕ :=
  if t < 20 then ((s.b &&& s.c) ||| (not32 s.b &&& s.d), 0x5A827999)
  else if t < 40 then (s.b ^^^ s.c ^^^ s.d, 0x6ED9EBA1)
  else if t < 60 then ((s.b &&& s.c) ||| (s.b &&& s.d) ||| (s.c &&& s.d), 0x8F1BBCDC)
  else (s.b ^^^ s.c ^^^ s.d, 0xCA62C1D6)

/-- The rounds of a block, from round `t` on. -/
def rounds : (ws : List ℕ) → (t : ℕ) → Digest → Digest
  | [], _, s => s
  | w :: ws, t, s =>
    let (f, k) := mix t s
    rounds ws (t + 1)
      { a := add (add (add (add (rotl s.a 5) f) s.e) k) w
        b := s.a, c := rotl s.b 30, d := s.c, e := s.d }

/-- One block. -/
def compress (s : Digest) (block : List ℕ) : Digest :=
  let r := rounds (extend 64 block.reverse).reverse 0 s
  ⟨add s.a r.a, add s.b r.b, add s.c r.c, add s.d r.d, add s.e r.e⟩

/-- The blocks of sixteen words, at most `fuel` of them. -/
def blocks : (fuel : ℕ) → List ℕ → List (List ℕ)
  | 0, _ => []
  | fuel + 1, ws => if ws = [] then [] else ws.take 16 :: blocks fuel (ws.drop 16)

/-- The SHA-1 digest of a message. -/
def sha1 (data : List ℕ) : Digest :=
  let ws := wordsBE (pad data)
  (blocks ws.length ws).foldl compress
    ⟨0x67452301, 0xEFCDAB89, 0x98BADCFE, 0x10325476, 0xC3D2E1F0⟩

/-- The hexadecimal digits of a byte. -/
def hexByte (b : ℕ) : List Char := [Nat.digitChar (b / 16), Nat.digitChar (b % 16)]

/-- `hashlib.sha1(s.encode()).hexdigest()`. -/
def hexdigest (s : String) : String :=
  let h := sha1 (encode s)
  .ofList ([h.a, h.b, h.c, h.d, h.e].flatMap fun w => (bytesBE 4 w).flatMap hexByte)

example : hexdigest "abc" = "a9993e364706816aba3e25717850c26c9cd0d89d" := by decide +kernel
example : crc32 (encode "123456789") = 0xCBF43926 := by decide +kernel

/-- A digest has forty digits. -/
theorem length_hexdigest (s : String) : (hexdigest s).toList.length = 40 := by
  simp [hexdigest, bytesBE, hexByte]

end Hash
