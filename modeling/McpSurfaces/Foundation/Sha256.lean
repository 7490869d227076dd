import Mathlib.Data.Nat.Bitwise
import Mathlib.Tactic

/-!
The digest SHA-256 of bytes, as a hexadecimal text. Words are natural numbers below `2 ^ 32`.

* `sha256`: the padded bytes in blocks of sixteen words, each folded into eight words of state.
-/

namespace McpSurfaces

namespace Sha2

/-- A rotation to the right. -/
def rotate (n x : ℕ) : ℕ := (x >>> n ||| x <<< (32 - n)) % 2 ^ 32

/-- The constants of the rounds. -/
def constants : List ℕ := [
  0x428a2f98, 0x71374491, 0xb5c0fbcf, 0xe9b5dba5, 0x3956c25b, 0x59f111f1, 0x923f82a4, 0xab1c5ed5,
  0xd807aa98, 0x12835b01, 0x243185be, 0x550c7dc3, 0x72be5d74, 0x80deb1fe, 0x9bdc06a7, 0xc19bf174,
  0xe49b69c1, 0xefbe4786, 0x0fc19dc6, 0x240ca1cc, 0x2de92c6f, 0x4a7484aa, 0x5cb0a9dc, 0x76f988da,
  0x983e5152, 0xa831c66d, 0xb00327c8, 0xbf597fc7, 0xc6e00bf3, 0xd5a79147, 0x06ca6351, 0x14292967,
  0x27b70a85, 0x2e1b2138, 0x4d2c6dfc, 0x53380d13, 0x650a7354, 0x766a0abb, 0x81c2c92e, 0x92722c85,
  0xa2bfe8a1, 0xa81a664b, 0xc24b8b70, 0xc76c51a3, 0xd192e819, 0xd6990624, 0xf40e3585, 0x106aa070,
  0x19a4c116, 0x1e376c08, 0x2748774c, 0x34b0bcb5, 0x391c0cb3, 0x4ed8aa4a, 0x5b9cca4f, 0x682e6ff3,
  0x748f82ee, 0x78a5636f, 0x84c87814, 0x8cc70208, 0x90befffa, 0xa4506ceb, 0xbef9a3f7, 0xc67178f2]

/-- The words of the state. -/
structure State where
  (a b c d e f g h : ℕ)

def State.words (s : State) : List ℕ := [s.a, s.b, s.c, s.d, s.e, s.f, s.g, s.h]

def State.start : State :=
  ⟨0x6a09e667, 0xbb67ae85, 0x3c6ef372, 0xa54ff53a, 0x510e527f, 0x9b05688c, 0x1f83d9ab, 0x5be0cd19⟩

def State.add (s t : State) : State :=
  ⟨(s.a + t.a) % 2 ^ 32, (s.b + t.b) % 2 ^ 32, (s.c + t.c) % 2 ^ 32, (s.d + t.d) % 2 ^ 32,
    (s.e + t.e) % 2 ^ 32, (s.f + t.f) % 2 ^ 32, (s.g + t.g) % 2 ^ 32, (s.h + t.h) % 2 ^ 32⟩

/-- A round, with its constant and its word. -/
def State.round (s : State) (input : ℕ × ℕ) : State :=
  let mixed := s.h + (rotate 6 s.e ^^^ rotate 11 s.e ^^^ rotate 25 s.e) +
    ((s.e &&& s.f) ^^^ ((2 ^ 32 - 1 - s.e) &&& s.g)) + input.1 + input.2
  let majority := (rotate 2 s.a ^^^ rotate 13 s.a ^^^ rotate 22 s.a) +
    ((s.a &&& s.b) ^^^ (s.a &&& s.c) ^^^ (s.b &&& s.c))
  ⟨(mixed + majority) % 2 ^ 32, s.a, s.b, s.c, (s.d + mixed) % 2 ^ 32, s.e, s.f, s.g⟩

/-- A block with as many more words as there are to come, the last word first. -/
def schedule : ℕ → List ℕ → List ℕ
  | 0, words => words
  | n + 1, words =>
      let early := words.getD 14 0
      let late := words.getD 1 0
      let next := (rotate 17 late ^^^ rotate 19 late ^^^ late >>> 10) + words.getD 6 0 +
        (rotate 7 early ^^^ rotate 18 early ^^^ early >>> 3) + words.getD 15 0
      schedule n (next % 2 ^ 32 :: words)

/-- The state behind a block. -/
def State.block (s : State) (words : List ℕ) : State :=
  s.add ((constants.zip (schedule 48 words.reverse).reverse).foldl round s)

/-- The bytes with a one behind them, and with their length in bits at the end of a block. -/
def pad (bytes : List UInt8) : List ℕ :=
  bytes.map UInt8.toNat ++ 128 :: (List.replicate ((119 - bytes.length % 64) % 64) 0 ++
    (List.range 8).map fun i => (8 * bytes.length) >>> (8 * (7 - i)) % 256)

/-- Bytes in words. -/
def toWords : List ℕ → List ℕ
  | a :: b :: c :: d :: rest => (a * 2 ^ 24 + b * 2 ^ 16 + c * 2 ^ 8 + d) :: toWords rest
  | _ => []

/-- Words in blocks. -/
def toBlocks : ℕ → List ℕ → List (List ℕ)
  | 0, _ => []
  | n + 1, words => words.take 16 :: toBlocks n (words.drop 16)

/-- The eight digits of a word. -/
def wordDigits (word : ℕ) : List Char :=
  (List.range 8).map fun i => Nat.digitChar (word >>> (4 * (7 - i)) % 16)

/-- The digest of bytes. -/
def sha256 (bytes : List UInt8) : String :=
  let words := toWords (pad bytes)
  let s := (toBlocks (words.length / 16) words).foldl State.block .start
  String.ofList (s.words.flatMap wordDigits)

example : sha256 [97, 98, 99] =
    "ba7816bf8f01cfea414140de5dae2223b00361a396177a9cb410ff61f20015ad" := by
  decide +kernel

end Sha2

end McpSurfaces
