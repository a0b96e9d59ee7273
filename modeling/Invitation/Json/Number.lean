import Invitation.Json.Basic

/-!
# Numbers

A number is read as the digits it is written with. What they are worth is asked in two ways only:
whether they are a plain natural number of 64 bits, and whether they are too large for a binary
floating-point number of 64 bits.
-/

namespace Invitation.Json

/-- A number as it is written. -/
structure Number where
  /-- A minus stands before it. -/
  negative : Bool
  /-- The digits before the point. -/
  whole : List Char
  /-- The digits after the point. -/
  fraction : List Char
  /-- The sign and the digits of the exponent. -/
  exponent : Option (Bool × List Char)
  deriving DecidableEq

/-! ## Reading -/

/-- One digit or more. -/
def someDigits : List Char → Reading (List Char)
  | [] => .error .truncated
  | c :: cs =>
    if c.isDigit then .ok (c :: cs.takeWhile Char.isDigit, cs.dropWhile Char.isDigit)
    else .error .malformed

/-- The digits before the point, which begin with a zero only if they are a single zero. -/
def wholeDigits (cs : List Char) : Reading (List Char) :=
  match someDigits cs with
  | .error f => .error f
  | .ok (ds, rest) =>
    if ds.head? = some '0' ∧ 1 < ds.length then .error .malformed else .ok (ds, rest)

/-- The digits after a point, if there is one. -/
def fractionDigits : List Char → Reading (List Char)
  | '.' :: cs => someDigits cs
  | cs => .ok ([], cs)

/-- Whether a minus comes first, and the characters after it. -/
def minus : List Char → Bool × List Char
  | '-' :: cs => (true, cs)
  | cs => (false, cs)

/-- Whether the sign that may come first is a minus, and the characters after it. -/
def sign : List Char → Bool × List Char
  | '+' :: cs => (false, cs)
  | cs => minus cs

/-- The sign and the digits after an exponent mark, if there is one. -/
def exponentDigits : List Char → Reading (Option (Bool × List Char))
  | [] => .ok (none, [])
  | c :: cs =>
    if c = 'e' ∨ c = 'E' then
      match someDigits (sign cs).2 with
      | .error f => .error f
      | .ok (ds, rest) => .ok (some ((sign cs).1, ds), rest)
    else .ok (none, c :: cs)

/-- A number. -/
def number (cs : List Char) : Reading Number :=
  match wholeDigits (minus cs).2 with
  | .error f => .error f
  | .ok (whole, rest) =>
    match fractionDigits rest with
    | .error f => .error f
    | .ok (fraction, rest) =>
      match exponentDigits rest with
      | .error f => .error f
      | .ok (exponent, rest) => .ok (⟨(minus cs).1, whole, fraction, exponent⟩, rest)

/-- Looking for a minus adds no characters. -/
theorem length_minus_le (cs : List Char) : (minus cs).2.length ≤ cs.length := by
  unfold minus
  split <;> simp

/-- Looking for a sign adds no characters. -/
theorem length_sign_le (cs : List Char) : (sign cs).2.length ≤ cs.length := by
  unfold sign
  split
  · simp
  · exact length_minus_le _

/-- One digit or more take characters. -/
theorem lt_of_someDigits {cs ds rest : List Char} (h : someDigits cs = .ok (ds, rest)) :
    rest.length < cs.length := by
  unfold someDigits at h
  split at h
  · cases h
  · next c cs =>
    split at h
    · cases h
      have := (List.dropWhile_sublist Char.isDigit (l := cs)).length_le
      simp only [List.length_cons]
      omega
    · cases h

/-- The digits before the point take characters. -/
theorem lt_of_wholeDigits {cs ds rest : List Char} (h : wholeDigits cs = .ok (ds, rest)) :
    rest.length < cs.length := by
  unfold wholeDigits at h
  split at h
  · cases h
  · next hd =>
    split at h
    · cases h
    · cases h
      exact lt_of_someDigits hd

/-- The digits after a point add no characters; there may be none. -/
theorem le_of_fractionDigits {cs ds rest : List Char} (h : fractionDigits cs = .ok (ds, rest)) :
    rest.length ≤ cs.length := by
  unfold fractionDigits at h
  split at h
  · have := lt_of_someDigits h
    simp only [List.length_cons]
    omega
  · cases h
    exact Nat.le_refl _

/-- An exponent adds no characters; there may be none. -/
theorem le_of_exponentDigits {cs rest : List Char} {e : Option (Bool × List Char)}
    (h : exponentDigits cs = .ok (e, rest)) : rest.length ≤ cs.length := by
  unfold exponentDigits at h
  split at h
  · cases h
    exact Nat.le_refl _
  · next c cs =>
    split at h
    · split at h
      · cases h
      · next hd =>
        cases h
        have := lt_of_someDigits hd
        have := length_sign_le cs
        simp only [List.length_cons]
        omega
    · cases h
      exact Nat.le_refl _

/-- A number takes characters. -/
theorem lt_of_number {cs rest : List Char} {n : Number} (h : number cs = .ok (n, rest)) :
    rest.length < cs.length := by
  unfold number at h
  split at h
  · cases h
  · next hw =>
    split at h
    · cases h
    · next hf =>
      split at h
      · cases h
      · next he =>
        cases h
        have := lt_of_wholeDigits hw
        have := le_of_fractionDigits hf
        have := le_of_exponentDigits he
        have := length_minus_le cs
        omega

namespace Number

/-! ## Natural numbers of 64 bits -/

/-- What a digit is worth. -/
def digit (c : Char) : Nat := c.toNat - '0'.toNat

/-- One more digit of a number that has to stay below `bound`. -/
def shift? (bound value : Nat) (c : Char) : Option Nat :=
  let next := 10 * value + digit c
  if next < bound then some next else none

/-- The value of a number that is written with digits alone and fits in 64 bits. -/
def toUInt64? (n : Number) : Option UInt64 :=
  if n.negative = false ∧ n.fraction = [] ∧ n.exponent = none then
    (n.whole.foldlM (shift? UInt64.size) 0).map UInt64.ofNat
  else none

/-! ## Numbers out of range

The size of a number is judged by its leading digits, as far as they fit in 64 bits, and a power of
ten. Both are rounded to 53 bits before they are multiplied. -/

/-- Leading digits and the power of ten that they are multiplied by. -/
structure Scaled where
  digits : Nat
  power : Int
  deriving DecidableEq

/-- One more digit before the point. Once a digit has found no room, no later one is taken. -/
def Scaled.takeWhole (s : Scaled) (c : Char) : Scaled :=
  match (if s.power = 0 then shift? UInt64.size s.digits c else none) with
  | some digits => ⟨digits, 0⟩
  | none => ⟨s.digits, s.power + 1⟩

/-- The digits after the point, up to the first that finds no room. -/
def Scaled.takeFraction (s : Scaled) : List Char → Scaled
  | [] => s
  | c :: cs =>
    match shift? UInt64.size s.digits c with
    | some digits => Scaled.takeFraction ⟨digits, s.power - 1⟩ cs
    | none => s

/-- The value of an exponent, which is cut off where no other part of a number could make up for
it. -/
def exponentValue : Option (Bool × List Char) → Int
  | none => 0
  | some (negative, ds) =>
    let size := ds.foldl (fun value c => min (10 * value + digit c) UInt64.size) 0
    if negative then -(size : Int) else size

/-- The leading digits of a number and their power of ten. -/
def scaled (n : Number) : Scaled :=
  let s := (n.whole.foldl Scaled.takeWhole ⟨0, 0⟩).takeFraction n.fraction
  ⟨s.digits, s.power + exponentValue n.exponent⟩

/-- A natural number rounded to 53 significant bits, a tie to the even neighbour. -/
def round53 (v : Nat) : Nat :=
  let unit := Nat.pow 2 (v.log2 + 1 - 53)
  let low := v / unit * unit
  let rest := v - low
  if 2 * rest < unit ∨ 2 * rest = unit ∧ v / unit % 2 = 0 then low else low + unit

/-- The least number that rounds to infinity. -/
def overflowBound : Nat := Nat.pow 2 1024 - Nat.pow 2 970

/-- The largest power of ten among the floating-point numbers. -/
def maxPower : Int := 308

/-- Whether a number is too large for a binary floating-point number of 64 bits. -/
def outOfRange (n : Number) : Bool :=
  let s := n.scaled
  if s.digits = 0 ∨ s.power < 0 then false
  else if maxPower < s.power then true
  else overflowBound ≤ round53 s.digits * round53 (Nat.pow 10 s.power.toNat)

end Number

end Invitation.Json
