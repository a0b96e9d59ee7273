import Invitation.Json.Basic

/-!
# Strings

A string is read behind its opening quote. A strict reader asks that it denotes a text, so that
escapes by number spell characters; a lax one asks only for well-formed escapes, and what it reads
is of no use but for the characters that follow.
-/

namespace Invitation.Json

/-! ## Escapes -/

/-- What a hexadecimal digit is worth. -/
def hexDigit? (c : Char) : Option Nat :=
  if '0' ≤ c ∧ c ≤ '9' then some (c.toNat - '0'.toNat)
  else if 'a' ≤ c ∧ c ≤ 'f' then some (c.toNat - 'a'.toNat + 10)
  else if 'A' ≤ c ∧ c ≤ 'F' then some (c.toNat - 'A'.toNat + 10)
  else none

/-- The number that four hexadecimal digits spell. -/
def fourDigits? : List Char → Option Nat
  | [a, b, c, d] => do
    let a ← hexDigit? a
    let b ← hexDigit? b
    let c ← hexDigit? c
    let d ← hexDigit? d
    return ((a * 16 + b) * 16 + c) * 16 + d
  | _ => none

/-- The number that the next four characters spell. The text counts as ending too soon if fewer
than four bytes of it are left, whatever they are. -/
def codeUnit (cs : List Char) : Reading Nat :=
  match fourDigits? (cs.take 4) with
  | some n => .ok (n, cs.drop 4)
  | none => .error (if (String.ofList (cs.take 4)).utf8ByteSize < 4 then .truncated else .malformed)

/-- The first number of a pair that spells one character. -/
def isLeading (n : Nat) : Bool := 0xd800 ≤ n && n < 0xdc00

/-- The second number of a pair that spells one character. -/
def isTrailing (n : Nat) : Bool := 0xdc00 ≤ n && n < 0xe000

/-- The character that a pair spells: each number holds ten bits of what exceeds sixteen. -/
def ofPair (n m : Nat) : Char := Char.ofNat (0x10000 + (n - 0xd800) * 0x400 + (m - 0xdc00))

/-- The second number of a pair, with its own escape mark. -/
def trailingUnit : List Char → Reading Nat
  | [] => .error .truncated
  | '\\' :: [] => .error .truncated
  | '\\' :: 'u' :: cs =>
    match codeUnit cs with
    | .error f => .error f
    | .ok (n, rest) => if isTrailing n then .ok (n, rest) else .error .malformed
  | _ => .error .malformed

/-- The character that an escape by number spells, in one number or in a pair. -/
def numbered (strict : Bool) (cs : List Char) : Reading Char :=
  match codeUnit cs with
  | .error f => .error f
  | .ok (n, rest) =>
    if strict && isTrailing n then .error .malformed
    else if strict && isLeading n then
      match trailingUnit rest with
      | .error f => .error f
      | .ok (m, rest) => .ok (ofPair n m, rest)
    else .ok (Char.ofNat n, rest)

/-- The character that a one-letter escape stands for. -/
def lettered? (c : Char) : Option Char :=
  if c = '"' ∨ c = '\\' ∨ c = '/' then some c
  else if c = 'b' then some '\x08'
  else if c = 'f' then some '\x0c'
  else if c = 'n' then some '\n'
  else if c = 'r' then some '\r'
  else if c = 't' then some '\t'
  else none

/-- The character that an escape stands for, read behind its mark. -/
def escape (strict : Bool) : List Char → Reading Char
  | [] => .error .truncated
  | c :: cs =>
    if c = 'u' then numbered strict cs
    else
      match lettered? c with
      | some d => .ok (d, cs)
      | none => .error .malformed

/-- The four digits of a code unit add no characters. -/
theorem le_of_codeUnit {cs rest : List Char} {n : Nat} (h : codeUnit cs = .ok (n, rest)) :
    rest.length ≤ cs.length := by
  unfold codeUnit at h
  split at h
  · cases h
    simp
  · cases h

/-- The second half of a pair adds no characters. -/
theorem le_of_trailingUnit {cs rest : List Char} {n : Nat} (h : trailingUnit cs = .ok (n, rest)) :
    rest.length ≤ cs.length := by
  unfold trailingUnit at h
  split at h
  · cases h
  · cases h
  · split at h
    · cases h
    · next hc =>
      split at h
      · cases h
        have := le_of_codeUnit hc
        simp only [List.length_cons]
        omega
      · cases h
  · cases h

/-- A character by its number adds no characters, whether it takes one unit or a pair. -/
theorem le_of_numbered {strict : Bool} {cs rest : List Char} {c : Char}
    (h : numbered strict cs = .ok (c, rest)) : rest.length ≤ cs.length := by
  unfold numbered at h
  split at h
  · cases h
  · next hn =>
    have := le_of_codeUnit hn
    split at h
    · cases h
    · split at h
      · split at h
        · cases h
        · next hm =>
          simp only [Except.ok.injEq, Prod.mk.injEq] at h
          obtain ⟨-, rfl⟩ := h
          have := le_of_trailingUnit hm
          omega
      · cases h
        exact this

/-- An escape takes characters, so that the rest of the string is shorter. -/
theorem lt_of_escape {strict : Bool} {cs rest : List Char} {c : Char}
    (h : escape strict cs = .ok (c, rest)) : rest.length < cs.length := by
  unfold escape at h
  split at h
  · cases h
  · split at h
    · have := le_of_numbered h
      simp only [List.length_cons]
      omega
    · split at h
      · cases h
        simp
      · cases h

/-! ## Strings -/

/-- The characters of a string up to its closing quote, behind those in `before`, which are the
ones already read, last one first. -/
def stringBody (strict : Bool) (before : List Char) (cs : List Char) : Reading (List Char) :=
  match cs with
  | [] => .error .truncated
  | c :: cs =>
    if c = '"' then .ok (before.reverse, cs)
    else if c = '\\' then
      match _h : escape strict cs with
      | .error f => .error f
      | .ok (d, rest) => stringBody strict (d :: before) rest
    else if c.val < 0x20 then .error .malformed
    else stringBody strict (c :: before) cs
termination_by cs.length
decreasing_by
  · have := lt_of_escape _h
    simp only [List.length_cons]
    omega
  · simp

/-- The characters of a string, read behind its opening quote. -/
def stringLiteral (strict : Bool) (cs : List Char) : Reading (List Char) := stringBody strict [] cs

/-- A string takes its closing quote at least. -/
theorem lt_of_stringBody {strict : Bool} {before cs s rest : List Char}
    (h : stringBody strict before cs = .ok (s, rest)) : rest.length < cs.length := by
  fun_induction stringBody strict before cs with
  | case1 => cases h
  | case2 => cases h; simp
  | case3 => cases h
  | case4 before cs d r he _ ih =>
    have := ih h
    have := lt_of_escape he
    simp only [List.length_cons]
    omega
  | case5 => cases h
  | case6 before c cs _ _ _ ih =>
    have := ih h
    simp only [List.length_cons]
    omega

/-- A string takes characters behind its opening quote. -/
theorem lt_of_stringLiteral {strict : Bool} {cs s rest : List Char}
    (h : stringLiteral strict cs = .ok (s, rest)) : rest.length < cs.length := lt_of_stringBody h

end Invitation.Json
