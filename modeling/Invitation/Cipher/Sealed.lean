import Invitation.Cipher.ChaCha20
import Invitation.Cipher.Poly1305

/-!
# Sealed texts

ChaCha20-Poly1305 without associated data: a text is enciphered, and the ciphertext is tagged under
a key that the first block of the keystream gives. `unseal?_seal?` and `seal?_unseal?` say that
under a given key and nonce a sealed text opens exactly if it is what sealing produces.
-/

namespace Invitation

/-- A ciphertext and its tag. -/
structure Sealed where
  body : Bytes
  tag : Block Poly1305.tagSize
  deriving DecidableEq

namespace Sealed

open ChaCha20 (keySize nonceSize)

/-- The most whole blocks of keystream that one nonce may give. -/
def maxBlocks : Nat := UInt32.size - 1

/-- A text so long that the block counter would run out. -/
def TooLong (text : Bytes) : Prop := maxBlocks ≤ text.length / ChaCha20.blockSize

instance (text : Bytes) : Decidable (TooLong text) := inferInstanceAs (Decidable (_ ≤ _))

/-- The authenticator's key for a nonce: half of the keystream's block zero. -/
def tagKey (key : Block keySize) (nonce : Block nonceSize) : Block Poly1305.keySize :=
  ⟨(ChaCha20.block key nonce 0).take Poly1305.keySize, by
    simp [Poly1305.keySize, ChaCha20.blockSize]⟩

/-- The tag of a ciphertext: it covers the ciphertext, filled up with zeros to whole pieces of
sixteen, and the lengths of the associated data, which there is none of, and of the ciphertext. -/
def tagOf (key : Block keySize) (nonce : Block nonceSize) (body : Bytes) :
    Block Poly1305.tagSize :=
  let zeros := (16 - body.length % 16) % 16
  Poly1305.tag (tagKey key nonce)
    (body ++ List.replicate zeros 0 ++ Bytes.toLittle 8 0 ++ Bytes.toLittle 8 body.length)

/-- Seals a text, unless it is too long. -/
def seal? (key : Block keySize) (nonce : Block nonceSize) (text : Bytes) : Option Sealed :=
  if TooLong text then none
  else
    let body := ChaCha20.cipher key nonce text
    some ⟨body, tagOf key nonce body⟩

/-- Opens a sealed text, if its tag is right. -/
def unseal? (key : Block keySize) (nonce : Block nonceSize) (s : Sealed) : Option Bytes :=
  if TooLong s.body ∨ tagOf key nonce s.body ≠ s.tag then none
  else some (ChaCha20.cipher key nonce s.body)

/-- Enciphering keeps the length, so a ciphertext is too long if its text is. -/
theorem tooLong_cipher (key : Block keySize) (nonce : Block nonceSize) (text : Bytes) :
    TooLong (ChaCha20.cipher key nonce text) ↔ TooLong text := by
  simp [TooLong]

/-- Sealing gives the ciphertext of the text and the tag of that, unless the text is too long. -/
theorem seal?_eq_some_iff {key : Block keySize} {nonce : Block nonceSize} {text : Bytes}
    {s : Sealed} :
    seal? key nonce text = some s ↔ ¬ TooLong text
      ∧ s = ⟨ChaCha20.cipher key nonce text, tagOf key nonce (ChaCha20.cipher key nonce text)⟩ := by
  unfold seal?
  split
  · next h => simp [h]
  · next h => simp [h, eq_comm]

/-- Nothing is opened that is too long or has another tag. -/
theorem unseal?_eq_none_iff {key : Block keySize} {nonce : Block nonceSize} {s : Sealed} :
    unseal? key nonce s = none ↔ TooLong s.body ∨ tagOf key nonce s.body ≠ s.tag := by
  unfold unseal?
  split
  · next h => simp [h]
  · next h => simp [h]

/-- What was sealed opens to the text that was sealed. -/
theorem unseal?_seal? {key : Block keySize} {nonce : Block nonceSize} {text : Bytes} {s : Sealed}
    (h : seal? key nonce text = some s) : unseal? key nonce s = some text := by
  obtain ⟨hroom, rfl⟩ := seal?_eq_some_iff.1 h
  simp [unseal?, tooLong_cipher, hroom, ChaCha20.cipher_cipher]

/-- What opens to a text is what sealing that text produces. -/
theorem seal?_unseal? {key : Block keySize} {nonce : Block nonceSize} {text : Bytes} {s : Sealed}
    (h : unseal? key nonce s = some text) : seal? key nonce text = some s := by
  unfold unseal? at h
  split at h
  · cases h
  · next hright =>
    cases h
    obtain ⟨hroom, htag⟩ := not_or.1 hright
    rw [seal?_eq_some_iff, tooLong_cipher, ChaCha20.cipher_cipher, Decidable.not_not.1 htag]
    exact ⟨hroom, rfl⟩

end Sealed

end Invitation
