import Mathlib.Algebra.Group.Nat.Defs
import Mathlib.Tactic.Common

/-!
# SHA-256

The digest of a list of bytes, as 64 hexadecimal digits in lower case.
-/

namespace Sha256

def roundConstants : List UInt32 :=
  [0x428a2f98, 0x71374491, 0xb5c0fbcf, 0xe9b5dba5, 0x3956c25b, 0x59f111f1, 0x923f82a4, 0xab1c5ed5,
    0xd807aa98, 0x12835b01, 0x243185be, 0x550c7dc3, 0x72be5d74, 0x80deb1fe, 0x9bdc06a7, 0xc19bf174,
    0xe49b69c1, 0xefbe4786, 0x0fc19dc6, 0x240ca1cc, 0x2de92c6f, 0x4a7484aa, 0x5cb0a9dc, 0x76f988da,
    0x983e5152, 0xa831c66d, 0xb00327c8, 0xbf597fc7, 0xc6e00bf3, 0xd5a79147, 0x06ca6351, 0x14292967,
    0x27b70a85, 0x2e1b2138, 0x4d2c6dfc, 0x53380d13, 0x650a7354, 0x766a0abb, 0x81c2c92e, 0x92722c85,
    0xa2bfe8a1, 0xa81a664b, 0xc24b8b70, 0xc76c51a3, 0xd192e819, 0xd6990624, 0xf40e3585, 0x106aa070,
    0x19a4c116, 0x1e376c08, 0x2748774c, 0x34b0bcb5, 0x391c0cb3, 0x4ed8aa4a, 0x5b9cca4f, 0x682e6ff3,
    0x748f82ee, 0x78a5636f, 0x84c87814, 0x8cc70208, 0x90befffa, 0xa4506ceb, 0xbef9a3f7, 0xc67178f2]

structure Words where
  (a b c d e f g h : UInt32)
  deriving DecidableEq, Repr

def initial : Words :=
  ⟨0x6a09e667, 0xbb67ae85, 0x3c6ef372, 0xa54ff53a, 0x510e527f, 0x9b05688c, 0x1f83d9ab, 0x5be0cd19⟩

/-- `x` rotated to the right. -/
def rotate (x n : UInt32) : UInt32 := x >>> n ||| x <<< (32 - n)

/-- One round, with its constant and its word of the block. -/
def round (v : Words) (k w : UInt32) : Words :=
  let choice := (v.e &&& v.f) ^^^ (~~~v.e &&& v.g)
  let majority := (v.a &&& v.b) ^^^ (v.a &&& v.c) ^^^ (v.b &&& v.c)
  let first := v.h + (rotate v.e 6 ^^^ rotate v.e 11 ^^^ rotate v.e 25) + choice + k + w
  let second := (rotate v.a 2 ^^^ rotate v.a 13 ^^^ rotate v.a 22) + majority
  ⟨first + second, v.a, v.b, v.c, v.d + first, v.e, v.f, v.g⟩

/-- The words after the first sixteen, `count` of them; `words` has the last one first. -/
def extend : Nat → List UInt32 → List UInt32
  | 0, words => words
  | count + 1, words =>
    let near := words.getD 1 0
    let far := words.getD 14 0
    let next := (rotate near 17 ^^^ rotate near 19 ^^^ near >>> 10) + words.getD 6 0 +
      (rotate far 7 ^^^ rotate far 18 ^^^ far >>> 3) + words.getD 15 0
    extend count (next :: words)

/-- The words of the bytes, the highest byte first. -/
def words : List UInt8 → List UInt32
  | a :: b :: c :: d :: bytes =>
    (a.toUInt32 <<< 24 ||| b.toUInt32 <<< 16 ||| c.toUInt32 <<< 8 ||| d.toUInt32) :: words bytes
  | _ => []

def block (v : Words) (bytes : List UInt8) : Words :=
  let schedule := (extend 48 (words bytes).reverse).reverse
  let u := (roundConstants.zip schedule).foldl (fun u (k, w) => round u k w) v
  ⟨v.a + u.a, v.b + u.b, v.c + u.c, v.d + u.d, v.e + u.e, v.f + u.f, v.g + u.g, v.h + u.h⟩

/-- The blocks of the bytes, `count` of them. -/
def blocks : Nat → Words → List UInt8 → Words
  | 0, v, _ => v
  | count + 1, v, bytes => blocks count (block v (bytes.take 64)) (bytes.drop 64)

/-- The bytes with a one, zeros and their length in bits behind them. -/
def padded (bytes : List UInt8) : List UInt8 :=
  bytes ++ 0x80 :: List.replicate ((119 - bytes.length % 64) % 64) 0 ++
    (List.range 8).map fun n => UInt8.ofNat (8 * bytes.length / 256 ^ (7 - n))

def hexDigit (n : Nat) : Char := "0123456789abcdef".toList.getD n '0'

def hexWord (x : UInt32) : List Char :=
  (List.range 8).map fun n => hexDigit (x.toNat / 16 ^ (7 - n) % 16)

def sha256 (bytes : List UInt8) : List Char :=
  let v := blocks ((padded bytes).length / 64) initial (padded bytes)
  [v.a, v.b, v.c, v.d, v.e, v.f, v.g, v.h].flatMap hexWord

example : sha256 ("01234567".toList.map fun c => UInt8.ofNat c.toNat) =
    "924592b9b103f14f833faafb67f480691f01988aa457c0061769f58cd47311bc".toList := by
  decide +kernel

lemma hexDigit_mem (n : Nat) : hexDigit n ∈ "0123456789abcdef".toList := by
  unfold hexDigit
  rw [List.getD_eq_getElem?_getD]
  by_cases hn : n < "0123456789abcdef".toList.length
  · rw [List.getElem?_eq_getElem hn]
    exact List.getElem_mem hn
  · rw [List.getElem?_eq_none (Nat.not_lt.mp hn)]
    decide

/-- A digest has 64 digits. -/
lemma length_sha256 (bytes : List UInt8) : (sha256 bytes).length = 64 := by
  simp [sha256, hexWord]

lemma mem_sha256 {bytes : List UInt8} {c : Char} (h : c ∈ sha256 bytes) :
    c ∈ "0123456789abcdef".toList := by
  obtain ⟨x, -, hc⟩ := List.mem_flatMap.mp h
  obtain ⟨n, -, rfl⟩ := List.mem_map.mp hc
  exact hexDigit_mem _

end Sha256
