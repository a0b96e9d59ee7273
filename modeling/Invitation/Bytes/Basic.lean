/-!
# Strings of bytes

Keys, payloads, digests and ciphertexts are strings of bytes. Where a length is fixed it is part of
the type: `Block n` holds the strings of exactly `n` bytes.
-/

namespace Invitation

/-- A string of bytes. -/
abbrev Bytes := List UInt8

/-- A string of exactly `n` bytes. -/
abbrev Block (n : Nat) := { b : Bytes // b.length = n }

namespace Block

variable {n : Nat}

/-- The bytes of a block. -/
abbrev bytes (b : Block n) : Bytes := b.val

/-- A string of bytes as a block, if it has the length of one. -/
def ofBytes? (n : Nat) (b : Bytes) : Option (Block n) :=
  if h : b.length = n then some ⟨b, h⟩ else none

/-- The bytes of a block are read back as the block. -/
@[simp] theorem ofBytes?_bytes (b : Block n) : ofBytes? n b.bytes = some b := by
  simp [ofBytes?, b.property]

/-- A string that is long enough begins with a block. -/
theorem exists_eq_append {b : Bytes} (h : n ≤ b.length) :
    ∃ (front : Block n) (rest : Bytes), b = front.bytes ++ rest :=
  ⟨⟨b.take n, List.length_take_of_le h⟩, b.drop n, (List.take_append_drop n b).symm⟩

end Block

namespace Bytes

/-- The bitwise exclusive or of two strings, as long as the shorter of the two. -/
def xor (a b : Bytes) : Bytes := List.zipWith (· ^^^ ·) a b

/-- Masking reaches as far as the shorter string. -/
@[simp] theorem length_xor (a b : Bytes) : (xor a b).length = min a.length b.length := by
  simp [xor]

/-- Masking twice with the same mask, at least as long as the text, restores the text. -/
theorem xor_xor {a b : Bytes} (h : a.length ≤ b.length) : xor (xor a b) b = a := by
  induction a generalizing b with
  | nil => simp [xor]
  | cons x a ih =>
    cases b with
    | nil => simp at h
    | cons y b =>
      have h' : a.length ≤ b.length := by simpa using h
      have hx : x ^^^ y ^^^ y = x := by rw [UInt8.xor_assoc, UInt8.xor_self, UInt8.xor_zero]
      have ha : xor (xor a b) b = a := ih h'
      simpa only [xor, List.zipWith_cons_cons, List.cons.injEq] using ⟨hx, ha⟩

/-- The string `b`, filled up to `n` bytes with zeros at its end. -/
def padRight (n : Nat) (b : Bytes) : Bytes := b ++ List.replicate (n - b.length) 0

/-- A string that fits is filled up to the length asked for. -/
theorem length_padRight {n : Nat} {b : Bytes} (h : b.length ≤ n) : (padRight n b).length = n := by
  simp [padRight]; omega

/-- Zeros at the end of a string make no difference once it is filled up, as long as they fit. -/
theorem padRight_append_zeros {n k : Nat} {b : Bytes} (h : b.length + k ≤ n) :
    padRight n (b ++ List.replicate k 0) = padRight n b := by
  rw [padRight, padRight, List.append_assoc, List.replicate_append_replicate, List.length_append,
    List.length_replicate]
  congr 2
  omega

end Bytes

end Invitation
