import Mathlib.Algebra.Group.Nat.Defs
import Mathlib.Data.List.Basic

/-!
# SHA-256

The hash function of `hashlib.sha256`, on natural numbers below `2 ^ 32`, with the digest in
hexadecimal.
-/

namespace Base

namespace Sha2

def word (n : ℕ) : ℕ := n % 2 ^ 32

def rotr (x n : ℕ) : ℕ := word ((x >>> n) ||| (x <<< (32 - n)))

def roundConstants : List ℕ :=
  [0x428a2f98, 0x71374491, 0xb5c0fbcf, 0xe9b5dba5, 0x3956c25b, 0x59f111f1, 0x923f82a4, 0xab1c5ed5,
    0xd807aa98, 0x12835b01, 0x243185be, 0x550c7dc3, 0x72be5d74, 0x80deb1fe, 0x9bdc06a7, 0xc19bf174,
    0xe49b69c1, 0xefbe4786, 0x0fc19dc6, 0x240ca1cc, 0x2de92c6f, 0x4a7484aa, 0x5cb0a9dc, 0x76f988da,
    0x983e5152, 0xa831c66d, 0xb00327c8, 0xbf597fc7, 0xc6e00bf3, 0xd5a79147, 0x06ca6351, 0x14292967,
    0x27b70a85, 0x2e1b2138, 0x4d2c6dfc, 0x53380d13, 0x650a7354, 0x766a0abb, 0x81c2c92e, 0x92722c85,
    0xa2bfe8a1, 0xa81a664b, 0xc24b8b70, 0xc76c51a3, 0xd192e819, 0xd6990624, 0xf40e3585, 0x106aa070,
    0x19a4c116, 0x1e376c08, 0x2748774c, 0x34b0bcb5, 0x391c0cb3, 0x4ed8aa4a, 0x5b9cca4f, 0x682e6ff3,
    0x748f82ee, 0x78a5636f, 0x84c87814, 0x8cc70208, 0x90befffa, 0xa4506ceb, 0xbef9a3f7, 0xc67178f2]

structure Registers where
  a : ℕ
  b : ℕ
  c : ℕ
  d : ℕ
  e : ℕ
  f : ℕ
  g : ℕ
  h : ℕ

namespace Registers

def initial : Registers :=
  ⟨0x6a09e667, 0xbb67ae85, 0x3c6ef372, 0xa54ff53a, 0x510e527f, 0x9b05688c, 0x1f83d9ab, 0x5be0cd19⟩

def add (r s : Registers) : Registers :=
  ⟨word (r.a + s.a), word (r.b + s.b), word (r.c + s.c), word (r.d + s.d), word (r.e + s.e),
    word (r.f + s.f), word (r.g + s.g), word (r.h + s.h)⟩

def words (r : Registers) : List ℕ := [r.a, r.b, r.c, r.d, r.e, r.f, r.g, r.h]

/-- One round, with the word of the schedule and the constant of the round already added. -/
def round (r : Registers) (input : ℕ) : Registers :=
  let s₁ := rotr r.e 6 ^^^ rotr r.e 11 ^^^ rotr r.e 25
  let choice := (r.e &&& r.f) ^^^ ((r.e ^^^ (2 ^ 32 - 1)) &&& r.g)
  let t₁ := r.h + s₁ + choice + input
  let s₀ := rotr r.a 2 ^^^ rotr r.a 13 ^^^ rotr r.a 22
  let majority := (r.a &&& r.b) ^^^ (r.a &&& r.c) ^^^ (r.b &&& r.c)
  ⟨word (t₁ + s₀ + majority), r.a, r.b, r.c, word (r.d + t₁), r.e, r.f, r.g⟩

end Registers

/-- The words of the schedule from a window of sixteen on. -/
def schedule : ℕ → List ℕ → List ℕ
  | 0, _ => []
  | n + 1, window =>
      let at' := fun i => window.getD i 0
      let s₀ := rotr (at' 1) 7 ^^^ rotr (at' 1) 18 ^^^ (at' 1 >>> 3)
      let s₁ := rotr (at' 14) 17 ^^^ rotr (at' 14) 19 ^^^ (at' 14 >>> 10)
      let next := word (at' 0 + s₀ + at' 9 + s₁)
      at' 0 :: schedule n (window.drop 1 ++ [next])

def compress (r : Registers) (block : List ℕ) : Registers :=
  r.add (((schedule 64 block).zipWith (· + ·) roundConstants).foldl Registers.round r)

/-- The big-endian words of a list of bytes. -/
def toWords : List ℕ → List ℕ
  | b₃ :: b₂ :: b₁ :: b₀ :: rest =>
      (b₃ * 2 ^ 24 + b₂ * 2 ^ 16 + b₁ * 2 ^ 8 + b₀) :: toWords rest
  | _ => []

def padded (bytes : List ℕ) : List ℕ :=
  let bits := bytes.length * 8
  bytes ++ 0x80 :: List.replicate ((119 - bytes.length % 64) % 64) 0 ++
    (List.range 8).map fun i => (bits >>> (8 * (7 - i))) % 256

/-- The registers after the blocks of sixteen words; the first argument bounds their number. -/
def hashBlocks : ℕ → Registers → List ℕ → Registers
  | 0, r, _ => r
  | _, r, [] => r
  | n + 1, r, words => hashBlocks n (compress r (words.take 16)) (words.drop 16)

def digest (data : ByteArray) : List ℕ :=
  let words := toWords (padded (data.toList.map UInt8.toNat))
  (hashBlocks words.length Registers.initial words).words

def hexChar (n : ℕ) : Char := "0123456789abcdef".toList.getD (n % 16) '0'

/-- The eight hexadecimal digits of a word. -/
def hexWord (w : ℕ) : List Char := (List.range 8).map fun i => hexChar (w >>> (4 * (7 - i)))

def hexdigest (data : ByteArray) : String := String.ofList ((digest data).flatMap hexWord)

theorem length_hexdigest (data : ByteArray) : (hexdigest data).toList.length = 64 := by
  rw [hexdigest, String.toList_ofList]
  simp [digest, Registers.words, hexWord]

theorem exists_of_mem_hexdigest {data : ByteArray} {c : Char} (h : c ∈ (hexdigest data).toList) :
    ∃ n, c = hexChar n := by
  rw [hexdigest, String.toList_ofList, List.mem_flatMap] at h
  obtain ⟨w, -, hc⟩ := h
  obtain ⟨i, -, rfl⟩ := List.mem_map.mp hc
  exact ⟨_, rfl⟩

example : hexdigest "abc".toUTF8 =
    "ba7816bf8f01cfea414140de5dae2223b00361a396177a9cb410ff61f20015ad" := by decide +kernel

end Sha2

end Base
