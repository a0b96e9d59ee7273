import Invitation.Cipher.Stored
import Invitation.Text.Base64Url

/-!
# Errors

Every operation that can fail names its cause. A token that is refused says only that it is invalid
or that it has expired, so that nobody learns from the answer why a forgery failed; what is kept in
storage is refused with the reason.
-/

namespace Invitation

/-- The least length of a signing key in bytes. -/
def SigningKey.minSize : Nat := 32

/-- Why a text was not sealed for storage. -/
inductive SealingFault
  /-- The key does not have the length that the cipher takes. -/
  | keyLength
  /-- The text is longer than one nonce can encipher. -/
  | tooLong
  deriving DecidableEq

/-- Why a stored text was not opened. -/
inductive OpeningFault
  /-- The stored text is not base64. -/
  | notBase64 (fault : Base64Url.Fault)
  /-- The stored text has no room for a nonce and a tag. -/
  | tooShort (length : Nat)
  /-- The key does not have the length that the cipher takes. -/
  | keyLength
  /-- The stored text was not sealed under this key, or it was changed. -/
  | unauthentic
  /-- What was sealed is not UTF-8. -/
  | notUtf8 (fault : Utf8.Fault)
  /-- The stored text has no label. -/
  | unlabelled
  /-- The stored text has the label of another key. -/
  | mislabelled
  deriving DecidableEq

/-- Why an operation failed. -/
inductive Error
  /-- The signing key is below the least length. -/
  | keyTooShort (length : Nat)
  /-- The token is malformed, forged or made out to somebody else. -/
  | invalidToken
  /-- The token is authentic, but its lifetime is over. -/
  | tokenExpired
  /-- Fewer random bytes are left than the operation needs. -/
  | randomnessExhausted
  | sealing (fault : SealingFault)
  | opening (fault : OpeningFault)
  deriving DecidableEq

/-- The wording of a sealing fault. -/
def SealingFault.message : SealingFault → String
  | .keyLength => "Cipher init failed: Invalid Length"
  | .tooLong => "Encryption failed: aead::Error"

/-- The wording of an opening fault. -/
def OpeningFault.message : OpeningFault → String
  | .notBase64 fault => s!"Invalid base64url: {fault.message}"
  | .tooShort length => s!"Ciphertext too short: {length} bytes (minimum {Stored.minSize})"
  | .keyLength => "Cipher init failed: Invalid Length"
  | .unauthentic => "Decryption failed: aead::Error"
  | .notUtf8 fault => s!"Invalid UTF-8: {fault.message}"
  | .unlabelled => "missing key prefix"
  | .mislabelled => "wrong key"

/-- The wording of an error. -/
def Error.message : Error → String
  | .keyTooShort length => s!"Signing key too short: {length} bytes (minimum {SigningKey.minSize})"
  | .invalidToken => "Invalid invite token"
  | .tokenExpired => "Invite token expired"
  | .randomnessExhausted => "Random generation failed"
  | .sealing fault => s!"Storage encryption failed: {fault.message}"
  | .opening fault => s!"Storage decryption failed: {fault.message}"

end Invitation
