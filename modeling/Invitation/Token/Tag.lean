import Invitation.Hash.Hmac

/-!
# Tags

A tag shows that a message was written by somebody who has the key. It is the first half of the
message's digest under that key.
-/

namespace Invitation

/-- The length of a tag in bytes. -/
def Tag.size : Nat := 16

/-- What shows that a message is authentic. -/
abbrev Tag := Block Tag.size

namespace Tag

/-- The tag of a message under a key. -/
def of (key message : Bytes) : Tag :=
  ⟨(hmac key message).bytes.take size,
    List.length_take_of_le (by rw [(hmac key message).property]; decide)⟩

/-- Whether bytes are the tag of a message under a key. -/
def check (key message tag : Bytes) : Bool := (of key message).bytes == tag

/-- The check passes exactly for the tag itself, so never for bytes of another length. -/
theorem check_eq_true_iff {key message tag : Bytes} :
    check key message tag = true ↔ tag = (of key message).bytes := by
  rw [check, beq_iff_eq, eq_comm]

end Tag

end Invitation
