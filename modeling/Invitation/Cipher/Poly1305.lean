import Invitation.Bytes.Endian
import Invitation.Pieces

/-!
# The one-time authenticator Poly1305

The message is read as the digits of a polynomial, sixteen bytes to a digit, which is evaluated
modulo the prime `2 ^ 130 - 5` at a point that the first half of the key gives. The second half is
added at the end.
-/

namespace Invitation.Poly1305

/-- The length of a key in bytes. -/
def keySize : Nat := 32

/-- The length of a tag in bytes. -/
def tagSize : Nat := 16

/-- The prime that sums and products are taken modulo. -/
def prime : Nat := Nat.pow 2 130 - 5

/-- The point of evaluation: the first half of the key with 22 of its bits cleared. -/
def point (key : Block keySize) : Nat :=
  Bytes.ofLittle (key.bytes.take 16) &&& 0x0ffffffc0ffffffc0ffffffc0fffffff

/-- One more digit: a piece of the message, closed by a set bit. -/
def absorb (point sum : Nat) (piece : Bytes) : Nat :=
  (sum + Bytes.ofLittle (piece ++ [1])) * point % prime

/-- The tag of a message under a key that is used once. -/
def tag (key : Block keySize) (message : Bytes) : Block tagSize :=
  let sum := (pieces 16 message).foldl (absorb (point key)) 0
  ⟨Bytes.toLittle tagSize (sum + Bytes.ofLittle (key.bytes.drop 16)), Bytes.length_toLittle _ _⟩

end Invitation.Poly1305
