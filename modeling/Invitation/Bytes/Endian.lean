import Invitation.Bytes.Basic

/-!
# Numbers as bytes

A number below `capacity n` is written in `n` bytes with either end first. `ofLittle_toLittle` and
`toLittle_ofLittle` say that writing and reading undo each other; the other byte order is the
reverse of this one and inherits both.
-/

namespace Invitation.Bytes

/-- How many numbers can be written in `n` bytes. -/
def capacity : Nat → Nat
  | 0 => 1
  | n + 1 => 256 * capacity n

/-- The number that a string spells, least significant byte first. -/
def ofLittle (b : Bytes) : Nat := b.foldr (fun x v => x.toNat + 256 * v) 0

/-- The `n` lowest bytes of a number, least significant byte first. -/
def toLittle : Nat → Nat → Bytes
  | 0, _ => []
  | n + 1, v => UInt8.ofNat v :: toLittle n (v / 256)

/-- The number that a string spells, most significant byte first. -/
def ofBig (b : Bytes) : Nat := ofLittle b.reverse

/-- The `n` lowest bytes of a number, most significant byte first. -/
def toBig (n v : Nat) : Bytes := (toLittle n v).reverse

/-- A number is written in as many bytes as were asked for, the least significant first. -/
@[simp] theorem length_toLittle (n v : Nat) : (toLittle n v).length = n := by
  induction n generalizing v with
  | zero => rfl
  | succ n ih => simp [toLittle, ih]

/-- A number is written in as many bytes as were asked for, the most significant first. -/
@[simp] theorem length_toBig (n v : Nat) : (toBig n v).length = n := by simp [toBig]

/-- Bytes, read from the least significant on, are below the capacity of their number. -/
theorem ofLittle_lt (b : Bytes) : ofLittle b < capacity b.length := by
  induction b with
  | nil => simp [ofLittle, capacity]
  | cons x b ih =>
    have hx := x.toNat_lt
    simp only [ofLittle, List.foldr_cons, List.length_cons, capacity] at ih ⊢
    omega

/-- Reading what was written gives the number back, up to the bytes that were kept. -/
theorem ofLittle_toLittle (n v : Nat) : ofLittle (toLittle n v) = v % capacity n := by
  induction n generalizing v with
  | zero => simp [toLittle, ofLittle, capacity, Nat.mod_one]
  | succ n ih =>
    have := ih (v / 256)
    simp only [ofLittle, toLittle, List.foldr_cons] at this ⊢
    rw [this, capacity, Nat.mod_mul, UInt8.toNat_ofNat']

/-- Writing what was read gives the string back. -/
theorem toLittle_ofLittle (b : Bytes) : toLittle b.length (ofLittle b) = b := by
  induction b with
  | nil => rfl
  | cons x b ih =>
    have hx := x.toNat_lt
    simp only [ofLittle, List.foldr_cons, List.length_cons, toLittle] at ih ⊢
    rw [show (x.toNat + 256 * List.foldr (fun x v => x.toNat + 256 * v) 0 b) / 256
      = List.foldr (fun x v => x.toNat + 256 * v) 0 b by omega, ih]
    congr 1
    apply UInt8.toNat_inj.1
    rw [UInt8.toNat_ofNat']
    omega

/-- A number is read back up to what its bytes can hold. -/
theorem ofBig_toBig (n v : Nat) : ofBig (toBig n v) = v % capacity n := by
  simp [ofBig, toBig, ofLittle_toLittle]

/-- Bytes are written back as they were read. -/
theorem toBig_ofBig (b : Bytes) : toBig b.length (ofBig b) = b := by
  rw [toBig, ofBig, ← List.length_reverse, toLittle_ofLittle, List.reverse_reverse]

/-- Two bytes spell 256 times the first of them and the second. -/
theorem ofBig_pair (x y : UInt8) : ofBig [x, y] = 256 * x.toNat + y.toNat := by
  simp only [ofBig, ofLittle, List.reverse_cons, List.reverse_nil, List.nil_append,
    List.cons_append, List.foldr_cons, List.foldr_nil]
  omega

/-- Bytes, read from the most significant on, are below the capacity of their number. -/
theorem ofBig_lt (b : Bytes) : ofBig b < capacity b.length := by
  simpa [ofBig] using ofLittle_lt b.reverse

end Invitation.Bytes
