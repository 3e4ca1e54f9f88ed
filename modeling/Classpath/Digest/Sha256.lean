import Classpath.Text.Hex

namespace Classpath.Digest

/-! # SHA-256

The hash function on byte strings: the message is padded to whole blocks of 64 bytes,
and each block updates eight words of state in 64 rounds. -/

abbrev Word := UInt32

/-! ## Functions on words -/

def rotated (x : Word) (n : Word) : Word :=
  (x >>> n) ||| (x <<< (32 - n))

def choose (x y z : Word) : Word :=
  (x &&& y) ^^^ (~~~x &&& z)

def majority (x y z : Word) : Word :=
  (x &&& y) ^^^ (x &&& z) ^^^ (y &&& z)

def bigSigma0 (x : Word) : Word :=
  rotated x 2 ^^^ rotated x 13 ^^^ rotated x 22

def bigSigma1 (x : Word) : Word :=
  rotated x 6 ^^^ rotated x 11 ^^^ rotated x 25

def smallSigma0 (x : Word) : Word :=
  rotated x 7 ^^^ rotated x 18 ^^^ (x >>> 3)

def smallSigma1 (x : Word) : Word :=
  rotated x 17 ^^^ rotated x 19 ^^^ (x >>> 10)

/-! ## Constants -/

/-- The constant of each round: the fractions of the cube roots of the first 64 primes. -/
def roundConstants : List Word :=
  [0x428a2f98, 0x71374491, 0xb5c0fbcf, 0xe9b5dba5, 0x3956c25b, 0x59f111f1, 0x923f82a4, 0xab1c5ed5,
   0xd807aa98, 0x12835b01, 0x243185be, 0x550c7dc3, 0x72be5d74, 0x80deb1fe, 0x9bdc06a7, 0xc19bf174,
   0xe49b69c1, 0xefbe4786, 0x0fc19dc6, 0x240ca1cc, 0x2de92c6f, 0x4a7484aa, 0x5cb0a9dc, 0x76f988da,
   0x983e5152, 0xa831c66d, 0xb00327c8, 0xbf597fc7, 0xc6e00bf3, 0xd5a79147, 0x06ca6351, 0x14292967,
   0x27b70a85, 0x2e1b2138, 0x4d2c6dfc, 0x53380d13, 0x650a7354, 0x766a0abb, 0x81c2c92e, 0x92722c85,
   0xa2bfe8a1, 0xa81a664b, 0xc24b8b70, 0xc76c51a3, 0xd192e819, 0xd6990624, 0xf40e3585, 0x106aa070,
   0x19a4c116, 0x1e376c08, 0x2748774c, 0x34b0bcb5, 0x391c0cb3, 0x4ed8aa4a, 0x5b9cca4f, 0x682e6ff3,
   0x748f82ee, 0x78a5636f, 0x84c87814, 0x8cc70208, 0x90befffa, 0xa4506ceb, 0xbef9a3f7, 0xc67178f2]

/-- The eight words of the state. -/
structure State where
  a : Word
  b : Word
  c : Word
  d : Word
  e : Word
  f : Word
  g : Word
  h : Word
deriving Repr, DecidableEq

/-- The state before the first block: the fractions of the square roots of the first 8 primes. -/
def initial : State :=
  ⟨0x6a09e667, 0xbb67ae85, 0x3c6ef372, 0xa54ff53a, 0x510e527f, 0x9b05688c, 0x1f83d9ab, 0x5be0cd19⟩

/-! ## Padding -/

/-- The eight bytes of a number, the highest first. -/
def lengthBytes (n : Nat) : List UInt8 :=
  (List.range 8).reverse.map fun i => UInt8.ofNat (n >>> (8 * i))

/-- The message, one set bit, zeros, and the length in bits at the end of a block. -/
def padded (message : List UInt8) : List UInt8 :=
  let size := message.length
  let zeros := (119 - size % 64) % 64
  message ++ 0x80 :: List.replicate zeros 0 ++ lengthBytes (8 * size)

/-! ## Blocks -/

def wordOf (b₀ b₁ b₂ b₃ : UInt8) : Word :=
  (b₀.toUInt32 <<< 24) ||| (b₁.toUInt32 <<< 16) ||| (b₂.toUInt32 <<< 8) ||| b₃.toUInt32

/-- The words of a byte string, four bytes each. -/
def wordsOf : List UInt8 → List Word
  | b₀ :: b₁ :: b₂ :: b₃ :: rest => wordOf b₀ b₁ b₂ b₃ :: wordsOf rest
  | _ => []

/-- The word that the message schedule puts after sixteen others, given the latest first. -/
def nextWord (latest : List Word) : Word :=
  smallSigma1 (latest.getD 1 0) + latest.getD 6 0 + smallSigma0 (latest.getD 14 0) +
    latest.getD 15 0

/-- The message schedule backwards, after so many further words. -/
def extended (latest : List Word) : Nat → List Word
  | 0 => latest
  | n + 1 => extended (nextWord latest :: latest) n

/-- The 64 words of a block's message schedule. -/
def schedule (block : List Word) : List Word :=
  (extended block.reverse 48).reverse

def round (s : State) (constant word : Word) : State :=
  let t₁ := s.h + bigSigma1 s.e + choose s.e s.f s.g + constant + word
  let t₂ := bigSigma0 s.a + majority s.a s.b s.c
  ⟨t₁ + t₂, s.a, s.b, s.c, s.d + t₁, s.e, s.f, s.g⟩

def State.add (s t : State) : State :=
  ⟨s.a + t.a, s.b + t.b, s.c + t.c, s.d + t.d, s.e + t.e, s.f + t.f, s.g + t.g, s.h + t.h⟩

/-- The state after a block of sixteen words. -/
def compress (s : State) (block : List Word) : State :=
  s.add ((roundConstants.zip (schedule block)).foldl (fun s x => round s x.1 x.2) s)

/-- The state after all blocks of a padded message. -/
def absorb (s : State) (words : List Word) : State :=
  if words.length < 16 then s
  else absorb (compress s (words.take 16)) (words.drop 16)
termination_by words.length
decreasing_by simp only [List.length_drop]; omega

/-! ## The digest -/

/-- The four bytes of a word, the highest first. -/
def wordBytes (w : Word) : List UInt8 :=
  [(w >>> 24).toUInt8, (w >>> 16).toUInt8, (w >>> 8).toUInt8, w.toUInt8]

def State.words (s : State) : List Word :=
  [s.a, s.b, s.c, s.d, s.e, s.f, s.g, s.h]

/-- The 32 bytes of the hash. -/
def sha256 (message : List UInt8) : List UInt8 :=
  (absorb initial (wordsOf (padded message))).words.flatMap wordBytes

/-- The hash in hexadecimal digits. -/
def sha256Hex (message : List UInt8) : String :=
  String.ofList ((sha256 message).flatMap Text.hexByte)

end Classpath.Digest
