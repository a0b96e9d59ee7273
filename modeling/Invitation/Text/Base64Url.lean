import Invitation.Pieces
import Invitation.Text.Utf8

/-!
# Base64 with the alphabet for addresses

Three bytes are written as four symbols of six bits each, a last group of two or one as three or
two. Nothing is padded, and the bits of the last symbol that reach no byte are zero. A text that
breaks one of these rules is refused with the first fault, in the order of `fault?`.
-/

namespace Invitation.Base64Url

/-- A digit of the base. -/
abbrev Sextet := Fin 64

/-- Why a text is refused. Offsets count the bytes of its UTF-8 form. -/
inductive Fault
  /-- A byte that is no symbol, or padding where a symbol should stand. -/
  | symbol (byte : UInt8) (offset : Nat)
  /-- A last group of a single symbol. -/
  | length (size : Nat)
  /-- Padding at the end. -/
  | padding
  /-- A last symbol with bits that reach no byte. -/
  | lastSymbol (byte : UInt8) (offset : Nat)
  deriving DecidableEq

/-- The wording of a fault. -/
def Fault.message : Fault → String
  | .symbol byte offset => s!"Invalid symbol {byte.toNat}, offset {offset}."
  | .length size => s!"Invalid input length: {size}"
  | .padding => "Invalid padding"
  | .lastSymbol byte offset => s!"Invalid last symbol {byte.toNat}, offset {offset}."

/-! ## The alphabet -/

/-- The symbol of a digit: capitals, small letters, figures, a hyphen and a low line. -/
def symbol (x : Sextet) : UInt8 :=
  UInt8.ofNat <|
    if x < 26 then 65 + x
    else if x < 52 then 97 + (x - 26)
    else if x < 62 then 48 + (x - 52)
    else if x = 62 then 45
    else 95

/-- The digit of a symbol. -/
def sextet? (b : UInt8) : Option Sextet :=
  if 65 ≤ b ∧ b ≤ 90 then some (Fin.ofNat 64 (b.toNat - 65))
  else if 97 ≤ b ∧ b ≤ 122 then some (Fin.ofNat 64 (b.toNat - 97 + 26))
  else if 48 ≤ b ∧ b ≤ 57 then some (Fin.ofNat 64 (b.toNat - 48 + 52))
  else if b = 45 then some 62
  else if b = 95 then some 63
  else none

/-- The byte that other forms of the encoding pad with. -/
def pad : UInt8 := 61

/-! ## Groups -/

/-- The digits of up to three bytes. -/
def group : Bytes → List Sextet
  | [a, b, c] =>
    [Fin.ofNat 64 (a.toNat / 4), Fin.ofNat 64 (a.toNat % 4 * 16 + b.toNat / 16),
      Fin.ofNat 64 (b.toNat % 16 * 4 + c.toNat / 64), Fin.ofNat 64 (c.toNat % 64)]
  | [a, b] =>
    [Fin.ofNat 64 (a.toNat / 4), Fin.ofNat 64 (a.toNat % 4 * 16 + b.toNat / 16),
      Fin.ofNat 64 (b.toNat % 16 * 4)]
  | [a] => [Fin.ofNat 64 (a.toNat / 4), Fin.ofNat 64 (a.toNat % 4 * 16)]
  | _ => []

/-- The bytes of up to four digits. -/
def ungroup : List Sextet → Bytes
  | [w, x, y, z] =>
    [UInt8.ofNat (w.val * 4 + x.val / 16), UInt8.ofNat (x.val % 16 * 16 + y.val / 4),
      UInt8.ofNat (y.val % 4 * 64 + z.val)]
  | [w, x, y] => [UInt8.ofNat (w.val * 4 + x.val / 16), UInt8.ofNat (x.val % 16 * 16 + y.val / 4)]
  | [w, x] => [UInt8.ofNat (w.val * 4 + x.val / 16)]
  | _ => []

/-- The bits of the last digit that reach no byte, if `n` digits end with `x`. -/
def spare (n : Nat) (x : Sextet) : Nat :=
  if n % 4 = 2 then x.val % 16 else if n % 4 = 3 then x.val % 4 else 0

/-! ## Writing -/

/-- The digits of a string of bytes. -/
def digits (b : Bytes) : List Sextet := (pieces 3 b).flatMap group

/-- The text of a string of bytes. -/
def encode (b : Bytes) : String :=
  String.ofList ((digits b).map fun x => Char.ofNat (symbol x).toNat)

/-! ## Reading -/

/-- A fault that is found if a condition holds. -/
def faultIf (p : Prop) [Decidable p] (f : Fault) : Option Fault := if p then some f else none

/-- The first byte that is no symbol, in bytes that count from `offset`. -/
def foreign? (offset : Nat) : Bytes → Option Fault
  | [] => none
  | b :: rest =>
    if sextet? b = none then some (.symbol b offset) else foreign? (offset + 1) rest

/-- Where the last group begins in a text of `n` bytes; it is empty only if the text is. -/
def lastGroup (n : Nat) : Nat := n - if n % 4 = 0 then 4 else n % 4

/-- The fault of a last byte that stands alone after whole groups and is no symbol. -/
def loneByte? (b : Bytes) : Option Fault :=
  match b.getLast? with
  | some x => faultIf (b.length % 4 = 1 ∧ x ≠ pad ∧ sextet? x = none) (.symbol x (b.length - 1))
  | none => none

/-- The fault of the last symbol, if it has bits that reach no byte. -/
def lastSymbol? (start : Nat) (symbols : Bytes) : Option Fault :=
  match symbols.getLast? with
  | some b =>
    faultIf (∃ x ∈ sextet? b, spare symbols.length x ≠ 0)
      (.lastSymbol b (start + symbols.length - 1))
  | none => none

/-- The first fault of the last group, which begins at `start`: symbols come first, then padding
and nothing else. Padding is a fault of its own, named after all faults that stand before it. -/
def tailFault? (start : Nat) (tail : Bytes) : Option Fault :=
  let symbols := tail.takeWhile (· ≠ pad)
  let padding := tail.dropWhile (· ≠ pad)
  let stop := start + symbols.length
  foreign? start symbols
    <|> faultIf (padding ≠ [] ∧ (symbols.length < 2 ∨ ∃ b ∈ padding, b ≠ pad)) (.symbol pad stop)
    <|> faultIf (tail ≠ [] ∧ symbols.length < 2) (.length stop)
    <|> faultIf (padding ≠ []) .padding
    <|> lastSymbol? start symbols

/-- The fault that a text is refused for. -/
def fault? (b : Bytes) : Option Fault :=
  let start := lastGroup b.length
  loneByte? b <|> foreign? 0 (b.take start) <|> tailFault? start (b.drop start)

/-- The bytes that digits spell. -/
def undigits (xs : List Sextet) : Bytes := (pieces 4 xs).flatMap ungroup

/-- The bytes that a text spells. -/
def decode (s : String) : Except Fault Bytes :=
  match fault? (Utf8.encode s) with
  | some f => .error f
  | none => .ok (undigits ((Utf8.encode s).filterMap sextet?))

end Invitation.Base64Url
