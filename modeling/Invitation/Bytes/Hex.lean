import Invitation.Bytes.Basic
import Invitation.Pieces

/-!
# Bytes in hexadecimal

Each byte is written as two digits, in lower case; reading takes either case.
-/

namespace Invitation.Hex

/-- The digits in order. -/
def digits : List Char := "0123456789abcdef".toList

/-- The text of a string of bytes. -/
def encode (b : Bytes) : String :=
  String.ofList (b.flatMap fun x => [digits.getD (x.toNat / 16) '0', digits.getD (x.toNat % 16) '0'])

/-- The byte that two digits spell. -/
def byte? : List Char → Option UInt8
  | [c, d] => do
    let high ← digits.findIdx? (· == c.toLower)
    let low ← digits.findIdx? (· == d.toLower)
    return UInt8.ofNat (16 * high + low)
  | _ => none

/-- The bytes that a text spells. -/
def decode? (s : String) : Option Bytes := (pieces 2 s.toList).mapM byte?

end Invitation.Hex
