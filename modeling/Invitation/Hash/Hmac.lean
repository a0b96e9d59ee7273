import Invitation.Hash.Sha256

/-!
# Keyed digests

HMAC-SHA256 folds a key of any length into one block, a long key through the hash and a short one
by zeros at its end, and hashes the message under two masked forms of that block. Hence two keys
within one block that differ by trailing zeros only are one key (`keyBlock_append_zeros`).
-/

namespace Invitation

namespace Hmac

/-- A key in the room of a block: its digest if it is longer than that, else the key itself. -/
def folded (key : Bytes) : Bytes :=
  if Sha256.blockSize < key.length then (sha256 key).bytes else key

/-- The block that a key is folded into, with zeros to its end. -/
def keyBlock (key : Bytes) : Bytes := Bytes.padRight Sha256.blockSize (folded key)

/-- Every byte of a key block combined with the same byte. -/
def mask (x : UInt8) (block : Bytes) : Bytes := block.map (· ^^^ x)

/-- A key that fits in a block is folded into itself. -/
theorem folded_eq_self {key : Bytes} (h : key.length ≤ Sha256.blockSize) : folded key = key :=
  if_neg (Nat.not_lt.2 h)

/-- A folded key fits in a block. -/
theorem length_folded_le (key : Bytes) : (folded key).length ≤ Sha256.blockSize := by
  unfold folded
  split
  · rw [(sha256 key).property]
    decide
  · next h => exact Nat.not_lt.1 h

/-- A key block has the length of a block. -/
@[simp] theorem length_keyBlock (key : Bytes) : (keyBlock key).length = Sha256.blockSize :=
  Bytes.length_padRight (length_folded_le key)

/-- Zeros at the end of a key do not change its block while the key fits in one. -/
theorem keyBlock_append_zeros {key : Bytes} {k : Nat} (h : key.length + k ≤ Sha256.blockSize) :
    keyBlock (key ++ List.replicate k 0) = keyBlock key := by
  have hlong : (key ++ List.replicate k 0).length ≤ Sha256.blockSize := by
    rw [List.length_append, List.length_replicate]
    exact h
  have hshort : key.length ≤ Sha256.blockSize := Nat.le_trans (Nat.le_add_right _ _) h
  rw [keyBlock, keyBlock, folded_eq_self hlong, folded_eq_self hshort]
  exact Bytes.padRight_append_zeros h

end Hmac

/-- The HMAC-SHA256 digest of a message under a key. -/
def hmac (key message : Bytes) : Block Sha256.digestSize :=
  let block := Hmac.keyBlock key
  sha256 (Hmac.mask 0x5c block ++ (sha256 (Hmac.mask 0x36 block ++ message)).bytes)

end Invitation
