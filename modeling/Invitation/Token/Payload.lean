import Invitation.Bytes.Endian
import Invitation.Text.Cut

/-!
# Payloads

What a token says, as bytes: sixteen random bytes, the time of issue, the length of the inviter's
name, that name and the invitee's name, which takes all that is left. A name of an inviter that its
length field cannot describe is cut first.
-/

namespace Invitation

/-- The length of the random field in bytes. -/
def Payload.entropySize : Nat := 16

/-- What a token says. -/
structure Payload where
  /-- Random bytes that tell apart tokens which say the same. -/
  entropy : Block Payload.entropySize
  /-- The time of issue in seconds. -/
  timestamp : UInt64
  inviter : String
  invitee : String
  deriving DecidableEq

namespace Payload

/-- The length of the time field in bytes. -/
def timestampSize : Nat := 8

/-- The length of the field for the length of the inviter's name, in bytes. -/
def inviterLengthSize : Nat := 2

/-- The length in bytes of the longest name that the length field can describe. -/
def maxInviterLength : Nat := 65535

/-- The length of all that comes before the names, in bytes. -/
def headerSize : Nat := entropySize + timestampSize + inviterLengthSize

/-- Why bytes are no payload. -/
inductive Fault
  /-- The fields before the names are not complete. -/
  | tooShort (length : Nat)
  /-- The inviter's name would reach beyond the end. -/
  | inviterOutOfRange (declared available : Nat)
  /-- One of the names is not UTF-8 on its own. -/
  | notUtf8
  deriving DecidableEq

/-- The wording of a fault. -/
def Fault.message : Fault → String
  | .tooShort length => s!"Payload too short: {length} bytes (minimum {headerSize})"
  | .inviterOutOfRange declared available =>
    s!"Inviter length {declared} exceeds available {available} bytes"
  | .notUtf8 => "Identifier is not valid UTF-8"

/-- The inviter's name as far as it fits into a payload. -/
def fittingInviter (p : Payload) : String := Text.cut maxInviterLength p.inviter

/-- The bytes of a payload. -/
def encode (p : Payload) : Bytes :=
  let inviter := Utf8.encode p.fittingInviter
  p.entropy.bytes ++ Bytes.toBig timestampSize p.timestamp.toNat
    ++ Bytes.toBig inviterLengthSize inviter.length ++ inviter ++ Utf8.encode p.invitee

/-- The payload that bytes spell. -/
def decode (b : Bytes) : Except Fault Payload :=
  if h : headerSize ≤ b.length then
    let entropy : Block entropySize :=
      ⟨b.take entropySize, List.length_take_of_le (Nat.le_trans (by decide) h)⟩
    let timestamp := Bytes.ofBig ((b.drop entropySize).take timestampSize)
    let declared := Bytes.ofBig ((b.drop (entropySize + timestampSize)).take inviterLengthSize)
    let names := b.drop headerSize
    if names.length < declared then .error (.inviterOutOfRange declared names.length)
    else
      match Utf8.decode (names.take declared), Utf8.decode (names.drop declared) with
      | .ok inviter, .ok invitee => .ok ⟨entropy, UInt64.ofNat timestamp, inviter, invitee⟩
      | _, _ => .error .notUtf8
  else .error (.tooShort b.length)

end Payload

end Invitation
