import Invitation.Cipher.Sealed

/-!
# Stored texts

A sealed text is stored with its nonce in front and its tag behind it. `ofBytes?_bytes` and
`bytes_ofBytes?` say that exactly the strings with room for both are read this way, and each in one
way only.
-/

namespace Invitation

/-- A sealed text with the nonce it was sealed under. -/
structure Stored where
  nonce : Block ChaCha20.nonceSize
  sealed : Sealed
  deriving DecidableEq

namespace Stored

/-- The length in bytes of a stored text that is empty: a nonce and a tag. -/
def minSize : Nat := ChaCha20.nonceSize + Poly1305.tagSize

/-- The bytes of a stored text. -/
def bytes (s : Stored) : Bytes := s.nonce.bytes ++ s.sealed.body ++ s.sealed.tag.bytes

/-- The stored text that bytes spell. -/
def ofBytes? (b : Bytes) : Option Stored :=
  if h : minSize ≤ b.length then
    let size := b.length - Poly1305.tagSize
    have hn : ChaCha20.nonceSize ≤ b.length := Nat.le_trans (Nat.le_add_right _ _) h
    have ht : Poly1305.tagSize ≤ b.length := Nat.le_trans (Nat.le_add_left _ _) h
    some {
      nonce := ⟨b.take ChaCha20.nonceSize, List.length_take_of_le hn⟩
      sealed := {
        body := (b.take size).drop ChaCha20.nonceSize
        tag := ⟨b.drop size, by rw [List.length_drop]; omega⟩ } }
  else none

/-- Reading gives back what was written. -/
theorem ofBytes?_bytes (s : Stored) : ofBytes? s.bytes = some s := by
  obtain ⟨⟨n, hn⟩, ⟨body, ⟨t, ht⟩⟩⟩ := s
  have hlen : minSize ≤ (n ++ body ++ t).length := by
    simp only [List.length_append, minSize]
    omega
  have hsize : (n ++ body ++ t).length - Poly1305.tagSize = (n ++ body).length := by
    simp only [List.length_append, ht]
    omega
  simp only [ofBytes?, bytes, hlen, dite_true, hsize, List.drop_left, List.take_left]
  simp [← hn]

/-- Writing gives back what was read. -/
theorem bytes_ofBytes? {b : Bytes} {s : Stored} (h : ofBytes? b = some s) : s.bytes = b := by
  unfold ofBytes? at h
  split at h
  · next hb =>
    cases h
    have hle : ChaCha20.nonceSize ≤ b.length - Poly1305.tagSize := by
      unfold minSize at hb
      omega
    have hnonce : b.take ChaCha20.nonceSize
        = (b.take (b.length - Poly1305.tagSize)).take ChaCha20.nonceSize := by
      rw [List.take_take, Nat.min_eq_left hle]
    have hparts : b.take ChaCha20.nonceSize
        ++ (b.take (b.length - Poly1305.tagSize)).drop ChaCha20.nonceSize
        ++ b.drop (b.length - Poly1305.tagSize) = b := by
      rw [hnonce, List.take_append_drop, List.take_append_drop]
    exact hparts
  · cases h

end Stored

end Invitation
