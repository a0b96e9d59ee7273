import Invitation.Bytes.Basic

/-!
# UTF-8

Texts travel as UTF-8. `decode_eq_ok_iff` says that reading accepts exactly what writing produces,
so a text has one spelling in bytes. A string of bytes that is refused comes with its first fault.
-/

namespace Invitation.Utf8

/-- Why a string of bytes is not UTF-8. -/
inductive Fault
  /-- The `length` bytes from `index` on begin no character, whatever follows. -/
  | invalid (length index : Nat)
  /-- The string ends inside the character that begins at `index`. -/
  | incomplete (index : Nat)
  deriving DecidableEq

/-- The wording of a fault. -/
def Fault.message : Fault → String
  | .invalid length index => s!"invalid utf-8 sequence of {length} bytes from index {index}"
  | .incomplete index => s!"incomplete utf-8 byte sequence from index {index}"

/-! ## Faults -/

/-- The ranges of the bytes that follow the first byte of a character, or `none` if no character
begins with that byte. -/
def following (b : UInt8) : Option (List (UInt8 × UInt8)) :=
  let any := (0x80, 0xbf)
  if b < 0x80 then some []
  else if b < 0xc2 then none
  else if b < 0xe0 then some [any]
  else if b = 0xe0 then some [(0xa0, 0xbf), any]
  else if b = 0xed then some [(0x80, 0x9f), any]
  else if b < 0xf0 then some [any, any]
  else if b = 0xf0 then some [(0x90, 0xbf), any, any]
  else if b < 0xf4 then some [any, any, any]
  else if b = 0xf4 then some [(0x80, 0x8f), any, any]
  else none

/-- The first fault of a string whose bytes count from `index`: `owed` are the ranges of the bytes
that the character begun at `start` still lacks. -/
def fault? (start index : Nat) : List (UInt8 × UInt8) → Bytes → Option Fault
  | [], [] => none
  | _ :: _, [] => some (.incomplete start)
  | [], b :: rest =>
    match following b with
    | none => some (.invalid 1 index)
    | some owed => fault? index (index + 1) owed rest
  | (low, high) :: owed, b :: rest =>
    if low ≤ b ∧ b ≤ high then fault? start (index + 1) owed rest
    else some (.invalid (index - start) start)

/-- The first fault of a string that is not UTF-8. -/
def firstFault (b : Bytes) : Fault := (fault? 0 0 [] b).getD (.incomplete b.length)

/-! ## Writing and reading -/

/-- The bytes of a text. -/
def encode (s : String) : Bytes := s.toUTF8.data.toList

/-- The text that a string of bytes spells. -/
def decode (b : Bytes) : Except Fault String :=
  match String.fromUTF8? b.toByteArray with
  | some s => .ok s
  | none => .error (firstFault b)

/-- The bytes of a text are those that it is kept as. -/
theorem toByteArray_encode (s : String) : (encode s).toByteArray = s.toByteArray := by
  apply ByteArray.ext
  simp [encode]

/-- Texts with the same bytes are equal. -/
theorem encode_injective {s t : String} (h : encode s = encode t) : s = t := by
  rw [← String.toByteArray_inj, ← toByteArray_encode, h, toByteArray_encode]

/-- A text is written character by character. -/
theorem encode_ofList (cs : List Char) :
    encode (String.ofList cs) = cs.flatMap String.utf8EncodeChar := by
  simp [encode, List.utf8Encode]

/-- A text has as many bytes as its size says. -/
@[simp] theorem length_encode (s : String) : (encode s).length = s.utf8ByteSize := by
  rw [← String.size_toByteArray, ← toByteArray_encode]
  simp

/-- Reading gives a text exactly if the bytes are those that writing the text gives. -/
theorem decode_eq_ok_iff {b : Bytes} {s : String} : decode b = .ok s ↔ b = encode s := by
  have hb : b.toByteArray.data.toList = b := by simp
  unfold decode String.fromUTF8?
  constructor
  · intro h
    split at h
    · next t ht =>
      cases h
      split at ht
      · cases ht
        rw [encode, String.toUTF8_eq_toByteArray]
        exact hb.symm
      · cases ht
    · cases h
  · rintro rfl
    have hv : (encode s).toByteArray.IsValidUTF8 := by
      rw [toByteArray_encode]; exact s.isValidUTF8
    simp only [hv, dite_true]
    congr 1
    rw [← String.toByteArray_inj]
    exact toByteArray_encode s

/-- A text is read back from its bytes. -/
@[simp] theorem decode_encode (s : String) : decode (encode s) = .ok s := decode_eq_ok_iff.2 rfl

end Invitation.Utf8
