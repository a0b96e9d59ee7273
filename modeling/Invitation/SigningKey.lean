import Invitation.Action
import Invitation.Bytes.Hex
import Invitation.Hash.Hkdf
import Invitation.Text.Utf8

/-!
# Signing keys

A signing key is a secret of at least 32 bytes; there is no upper limit. The key for texts in
storage is derived from it. A signing key never shows more than its length.
-/

namespace Invitation

/-- A secret that is long enough to sign with. -/
structure SigningKey where
  bytes : Bytes
  minSize_le : SigningKey.minSize ≤ bytes.length
  deriving DecidableEq

namespace SigningKey

/-- The signing key of given bytes. -/
def ofBytes (b : Bytes) : Except Error SigningKey :=
  if h : minSize ≤ b.length then .ok ⟨b, h⟩ else .error (.keyTooShort b.length)

/-- A new signing key of the least length. -/
def generate : Action SigningKey := do
  let b ← Action.draw minSize
  return ⟨b.bytes, Nat.le_of_eq b.property.symm⟩

/-- The length of a signing key in bytes. -/
def length (key : SigningKey) : Nat := key.bytes.length

/-- The salt that storage keys are derived under. -/
def storageSalt : Bytes := Utf8.encode "InviteToken-v1-storage"

/-- The use that storage keys are derived for. -/
def storageInfo : Bytes := Utf8.encode "chacha20poly1305-key"

/-- The length of a storage key in bytes. -/
def storageKeySize : Nat := 32

/-- The key for texts in storage. -/
def storageKey (key : SigningKey) : Block storageKeySize :=
  Hkdf.derive storageSalt key.bytes storageInfo

example :
    Hex.encode (storageKey ⟨List.replicate 32 0x42, by decide⟩).bytes
      = "0256f2e3b5f3e33c4ca0ef43cdb2db5e78f93d8e6f9ad9d42e00d9031604c4af" := by
  decide +kernel

/-- A signing key as it may be shown. -/
def describe (key : SigningKey) : String := s!"SigningKey([REDACTED; {key.length} bytes])"

end SigningKey

end Invitation
