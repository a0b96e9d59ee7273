import Invitation.Bytes.Endian
import Invitation.Pieces

/-!
# The hash function SHA-256

A message is padded to whole blocks of 64 bytes, and each block stirs eight words of 32 bits
through 64 rounds. The digest is the block of 32 bytes that those words spell, so its length is
part of the type of `sha256`.
-/

namespace Invitation.Sha256

/-- A message is read in blocks of this many bytes. -/
def blockSize : Nat := 64

/-- The length of a digest in bytes. -/
def digestSize : Nat := 32

/-- The eight working words. -/
structure Registers where
  a : UInt32
  b : UInt32
  c : UInt32
  d : UInt32
  e : UInt32
  f : UInt32
  g : UInt32
  h : UInt32
  deriving DecidableEq

/-- The words before the first block. -/
def initial : Registers :=
  ⟨0x6a09e667, 0xbb67ae85, 0x3c6ef372, 0xa54ff53a, 0x510e527f, 0x9b05688c, 0x1f83d9ab, 0x5be0cd19⟩

/-- One constant for each of the 64 rounds. -/
def roundConstants : List UInt32 :=
  [0x428a2f98, 0x71374491, 0xb5c0fbcf, 0xe9b5dba5, 0x3956c25b, 0x59f111f1, 0x923f82a4, 0xab1c5ed5,
   0xd807aa98, 0x12835b01, 0x243185be, 0x550c7dc3, 0x72be5d74, 0x80deb1fe, 0x9bdc06a7, 0xc19bf174,
   0xe49b69c1, 0xefbe4786, 0x0fc19dc6, 0x240ca1cc, 0x2de92c6f, 0x4a7484aa, 0x5cb0a9dc, 0x76f988da,
   0x983e5152, 0xa831c66d, 0xb00327c8, 0xbf597fc7, 0xc6e00bf3, 0xd5a79147, 0x06ca6351, 0x14292967,
   0x27b70a85, 0x2e1b2138, 0x4d2c6dfc, 0x53380d13, 0x650a7354, 0x766a0abb, 0x81c2c92e, 0x92722c85,
   0xa2bfe8a1, 0xa81a664b, 0xc24b8b70, 0xc76c51a3, 0xd192e819, 0xd6990624, 0xf40e3585, 0x106aa070,
   0x19a4c116, 0x1e376c08, 0x2748774c, 0x34b0bcb5, 0x391c0cb3, 0x4ed8aa4a, 0x5b9cca4f, 0x682e6ff3,
   0x748f82ee, 0x78a5636f, 0x84c87814, 0x8cc70208, 0x90befffa, 0xa4506ceb, 0xbef9a3f7, 0xc67178f2]

/-- A word turned right by `n` bits. -/
def rotateRight (x n : UInt32) : UInt32 := x >>> n ||| x <<< (32 - n)

/-! ## Padding and schedule -/

/-- The message, a bit that is set, zeros up to eight bytes short of a whole block, and the length
of the message in bits. -/
def pad (message : Bytes) : Bytes :=
  let zeros := (119 - message.length % blockSize) % blockSize
  message ++ 0x80 :: List.replicate zeros 0 ++ Bytes.toBig 8 (8 * message.length)

/-- A block as sixteen words, each with its most significant byte first. -/
def words (block : Bytes) : List UInt32 :=
  (pieces 4 block).map fun w => UInt32.ofNat (Bytes.ofBig w)

/-- Word `t` of the schedule, from sixteen earlier ones. -/
def extend (w : Array UInt32) (t : Nat) : Array UInt32 :=
  let x := w.getD (t - 15) 0
  let y := w.getD (t - 2) 0
  let s₀ := rotateRight x 7 ^^^ rotateRight x 18 ^^^ (x >>> 3)
  let s₁ := rotateRight y 17 ^^^ rotateRight y 19 ^^^ (y >>> 10)
  w.push (w.getD (t - 16) 0 + s₀ + w.getD (t - 7) 0 + s₁)

/-- The 64 words of a block's schedule: its own sixteen and 48 that follow from them. -/
def schedule (block : Bytes) : List UInt32 :=
  ((List.range' 16 48).foldl extend (words block).toArray).toList

/-! ## Rounds -/

/-- One round, with its constant and its word of the schedule. -/
def round (r : Registers) (kw : UInt32 × UInt32) : Registers :=
  let s₁ := rotateRight r.e 6 ^^^ rotateRight r.e 11 ^^^ rotateRight r.e 25
  let choice := (r.e &&& r.f) ^^^ (~~~r.e &&& r.g)
  let t₁ := r.h + s₁ + choice + kw.1 + kw.2
  let s₀ := rotateRight r.a 2 ^^^ rotateRight r.a 13 ^^^ rotateRight r.a 22
  let majority := (r.a &&& r.b) ^^^ (r.a &&& r.c) ^^^ (r.b &&& r.c)
  ⟨t₁ + (s₀ + majority), r.a, r.b, r.c, r.d + t₁, r.e, r.f, r.g⟩

/-- Sums two sets of working words, word by word. -/
def Registers.add (r s : Registers) : Registers :=
  ⟨r.a + s.a, r.b + s.b, r.c + s.c, r.d + s.d, r.e + s.e, r.f + s.f, r.g + s.g, r.h + s.h⟩

/-- Takes one block into the working words. -/
def compress (r : Registers) (block : Bytes) : Registers :=
  r.add ((roundConstants.zip (schedule block)).foldl round r)

/-- The working words as bytes, each with its most significant byte first. -/
def Registers.bytes (r : Registers) : Bytes :=
  [r.a, r.b, r.c, r.d, r.e, r.f, r.g, r.h].flatMap fun w => Bytes.toBig 4 w.toNat

/-- The eight words spell as many bytes as a digest has. -/
@[simp] theorem Registers.length_bytes (r : Registers) : r.bytes.length = digestSize := by
  simp [Registers.bytes, digestSize]

end Sha256

/-- The SHA-256 digest of a message. -/
def sha256 (message : Bytes) : Block Sha256.digestSize :=
  ⟨((pieces Sha256.blockSize (Sha256.pad message)).foldl Sha256.compress Sha256.initial).bytes,
    Sha256.Registers.length_bytes _⟩

end Invitation
