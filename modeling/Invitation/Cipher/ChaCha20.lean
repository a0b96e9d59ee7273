import Invitation.Bytes.Endian
import Invitation.Pieces

/-!
# The stream cipher ChaCha20

A key, a nonce and a block counter fill sixteen words of 32 bits, and twenty rounds turn them into
64 bytes of keystream. Enciphering is the exclusive or with the keystream from counter one on, so
it undoes itself (`cipher_cipher`).
-/

namespace Invitation.ChaCha20

/-- The length of a key in bytes. -/
def keySize : Nat := 32

/-- The length of a nonce in bytes. -/
def nonceSize : Nat := 12

/-- The keystream comes in blocks of this many bytes. -/
def blockSize : Nat := 64

/-- The working words. -/
abbrev State := Vector UInt32 16

/-- A word turned left by `n` bits. -/
def rotateLeft (x n : UInt32) : UInt32 := x <<< n ||| x >>> (32 - n)

/-! ## Rounds -/

/-- A quarter round on the words at four positions. -/
def quarterRound (a b c d : Fin 16) (s : State) : State :=
  let s := s.set a (s[a] + s[b])
  let s := s.set d (rotateLeft (s[d] ^^^ s[a]) 16)
  let s := s.set c (s[c] + s[d])
  let s := s.set b (rotateLeft (s[b] ^^^ s[c]) 12)
  let s := s.set a (s[a] + s[b])
  let s := s.set d (rotateLeft (s[d] ^^^ s[a]) 8)
  let s := s.set c (s[c] + s[d])
  s.set b (rotateLeft (s[b] ^^^ s[c]) 7)

/-- A round on the four columns and a round on the four diagonals. -/
def doubleRound (s : State) : State :=
  let s := quarterRound 0 4 8 12 s
  let s := quarterRound 1 5 9 13 s
  let s := quarterRound 2 6 10 14 s
  let s := quarterRound 3 7 11 15 s
  let s := quarterRound 0 5 10 15 s
  let s := quarterRound 1 6 11 12 s
  let s := quarterRound 2 7 8 13 s
  quarterRound 3 4 9 14 s

/-! ## Keystream -/

/-- A string as words, each with its least significant byte first. -/
def words (b : Bytes) : List UInt32 := (pieces 4 b).map fun w => UInt32.ofNat (Bytes.ofLittle w)

/-- The words that every block of the keystream starts from: four constants, the key, the counter
and the nonce. -/
def start (key : Block keySize) (nonce : Block nonceSize) (counter : Nat) : State :=
  let constants : List UInt32 := [0x61707865, 0x3320646e, 0x79622d32, 0x6b206574]
  let filled := constants ++ words key.bytes ++ UInt32.ofNat counter :: words nonce.bytes
  Vector.ofFn fun i => filled.getD i.val 0

/-- The working words as bytes, each with its least significant byte first. -/
def serialize (s : State) : Bytes := s.toList.flatMap fun w => Bytes.toLittle 4 w.toNat

/-- A state is written as a block. -/
@[simp] theorem length_serialize (s : State) : (serialize s).length = blockSize := by
  simp [serialize, blockSize, List.length_flatMap, List.map_const']

/-- One block of the keystream: the words after twenty rounds, added to those before. -/
def block (key : Block keySize) (nonce : Block nonceSize) (counter : Nat) : Bytes :=
  let s := start key nonce counter
  serialize (Vector.zipWith (· + ·) (Nat.repeat doubleRound 10 s) s)

/-- A block of keystream has the length of a block. -/
@[simp] theorem length_block (key : Block keySize) (nonce : Block nonceSize) (counter : Nat) :
    (block key nonce counter).length = blockSize := length_serialize _

/-- The first `n` bytes of the keystream from counter one on. -/
def keystream (key : Block keySize) (nonce : Block nonceSize) (n : Nat) : Bytes :=
  ((List.range' 1 ((n + 63) / blockSize)).flatMap (block key nonce)).take n

/-- The keystream has the length that was asked for. -/
@[simp] theorem length_keystream (key : Block keySize) (nonce : Block nonceSize) (n : Nat) :
    (keystream key nonce n).length = n := by
  simp [keystream, List.length_flatMap, List.map_const', blockSize]
  omega

/-- A text enciphered, or deciphered again. -/
def cipher (key : Block keySize) (nonce : Block nonceSize) (text : Bytes) : Bytes :=
  Bytes.xor text (keystream key nonce text.length)

/-- A ciphertext is as long as its text. -/
@[simp] theorem length_cipher (key : Block keySize) (nonce : Block nonceSize) (text : Bytes) :
    (cipher key nonce text).length = text.length := by
  simp [cipher]

/-- Enciphering twice under the same key and nonce restores the text. -/
theorem cipher_cipher (key : Block keySize) (nonce : Block nonceSize) (text : Bytes) :
    cipher key nonce (cipher key nonce text) = text := by
  have h : (cipher key nonce text).length = text.length := length_cipher key nonce text
  rw [cipher, h, cipher, Bytes.xor_xor (by simp)]

end Invitation.ChaCha20
