import Invitation.Token.Tag
import Mathlib.Data.List.Basic
import Mathlib.Tactic.Lemma

/-!
# When two keys give the same tag

A keyed digest sees of its key only the block that the key is folded into.  Two keys share that
block exactly if one of them, as it is folded, is the other followed by zeros (`keyBlock_eq_iff`);
then they give every message the same digest.  Keys with different blocks can still give a message
the same tag, but only by a collision of the digest's first half, and of two texts that are named
here (`Tag.of_eq_of_iff`).  Nothing is assumed of the digest.
-/

namespace Invitation

/-- Two texts whose digests begin with the same sixteen bytes. -/
def Sha256.HalfCollision (x y : Bytes) : Prop :=
  x ≠ y ∧ (sha256 x).bytes.take 16 = (sha256 y).bytes.take 16

/-! ## Filling up with zeros -/

/-- Of two strings that are filled up to the same, the longer one is the other followed by zeros. -/
lemma Bytes.eq_append_zeros_of_padRight_eq {n : Nat} {a b : Bytes}
    (h : padRight n a = padRight n b) (hle : a.length ≤ b.length) :
    b = a ++ List.replicate (b.length - a.length) 0 := by
  have ha : a <+: padRight n a := List.prefix_append _ _
  have hb : b <+: padRight n a := h ▸ List.prefix_append _ _
  obtain ⟨rest, rfl⟩ := List.prefix_of_prefix_length_le ha hb hle
  have hrest : List.replicate (n - a.length) 0
      = rest ++ List.replicate (n - (a ++ rest).length) 0 := by
    rw [padRight, padRight, List.append_assoc] at h
    exact List.append_cancel_left h
  have hzeros : ∀ x ∈ rest, x = 0 := by
    intro x hx
    have hmem : x ∈ List.replicate (n - a.length) 0 := by
      rw [hrest]
      exact List.mem_append_left _ hx
    exact List.eq_of_mem_replicate hmem
  rw [List.length_append, Nat.add_sub_cancel_left, ← List.eq_replicate_of_mem hzeros]

/-- Two strings are filled up to the same exactly if one is the other followed by zeros. -/
lemma Bytes.padRight_eq_iff {n : Nat} {a b : Bytes} (ha : a.length ≤ n) (hb : b.length ≤ n) :
    padRight n a = padRight n b ↔
      (∃ k, b = a ++ List.replicate k 0) ∨ ∃ k, a = b ++ List.replicate k 0 := by
  constructor
  · intro h
    rcases Nat.le_total a.length b.length with hle | hle
    · exact .inl ⟨_, eq_append_zeros_of_padRight_eq h hle⟩
    · exact .inr ⟨_, eq_append_zeros_of_padRight_eq h.symm hle⟩
  · rintro (⟨k, rfl⟩ | ⟨k, rfl⟩)
    · rw [List.length_append, List.length_replicate] at hb
      exact (padRight_append_zeros hb).symm
    · rw [List.length_append, List.length_replicate] at ha
      exact padRight_append_zeros ha

namespace Hmac

/-! ## Folded keys -/

/-- Two keys have the same block exactly if one of them, folded, is the other followed by zeros. -/
theorem keyBlock_eq_iff {key key' : Bytes} :
    keyBlock key = keyBlock key' ↔
      (∃ k, folded key' = folded key ++ List.replicate k 0)
        ∨ ∃ k, folded key = folded key' ++ List.replicate k 0 :=
  Bytes.padRight_eq_iff (length_folded_le key) (length_folded_le key')

/-- Keys of one length that fit in a block have blocks of their own. -/
lemma eq_of_keyBlock_eq {key key' : Bytes} (hsize : key.length ≤ Sha256.blockSize)
    (hlen : key.length = key'.length) (h : keyBlock key = keyBlock key') : key = key' := by
  rw [keyBlock, keyBlock, folded_eq_self hsize, folded_eq_self (hlen ▸ hsize)] at h
  have hzeros := Bytes.eq_append_zeros_of_padRight_eq h (Nat.le_of_eq hlen)
  rw [hzeros, hlen, Nat.sub_self, List.replicate_zero, List.append_nil]

/-! ## The outer text -/

/-- Masking loses nothing. -/
lemma mask_injective (x : UInt8) : Function.Injective (mask x) := by
  refine List.map_injective_iff.2 ?_
  intro a b h
  exact (UInt8.xor_left_inj x).1 h

/-- The text whose digest is the keyed digest of a message. -/
def outer (key message : Bytes) : Bytes :=
  mask 0x5c (keyBlock key) ++ (sha256 (mask 0x36 (keyBlock key) ++ message)).bytes

/-- A keyed digest is the digest of its outer text. -/
lemma hmac_eq_sha256_outer (key message : Bytes) : hmac key message = sha256 (outer key message) :=
  rfl

/-- The outer text shows the block of the key. -/
lemma outer_eq_iff {key key' message : Bytes} :
    outer key message = outer key' message ↔ keyBlock key = keyBlock key' := by
  constructor
  · intro h
    have hlen : (mask 0x5c (keyBlock key)).length = (mask 0x5c (keyBlock key')).length := by
      simp only [mask, List.length_map, length_keyBlock]
    exact mask_injective 0x5c (List.append_inj_left h hlen)
  · intro h
    rw [outer, outer, h]

end Hmac

/-! ## Tags -/

/-- Two keys give a message the same tag exactly if they have the same block, or if their outer
texts for that message collide. -/
theorem Tag.of_eq_of_iff {key key' message : Bytes} :
    Tag.of key message = Tag.of key' message ↔
      Hmac.keyBlock key = Hmac.keyBlock key'
        ∨ Sha256.HalfCollision (Hmac.outer key message) (Hmac.outer key' message) := by
  have htag : Tag.of key message = Tag.of key' message ↔
      (sha256 (Hmac.outer key message)).bytes.take 16
        = (sha256 (Hmac.outer key' message)).bytes.take 16 := by
    rw [← Hmac.hmac_eq_sha256_outer, ← Hmac.hmac_eq_sha256_outer]
    exact Subtype.ext_iff
  rw [htag, Sha256.HalfCollision, ne_eq, Hmac.outer_eq_iff]
  constructor
  · intro h
    by_cases hblock : Hmac.keyBlock key = Hmac.keyBlock key'
    · exact .inl hblock
    · exact .inr ⟨hblock, h⟩
  · rintro (hblock | ⟨-, h⟩)
    · rw [Hmac.outer_eq_iff.2 hblock]
    · exact h

end Invitation
