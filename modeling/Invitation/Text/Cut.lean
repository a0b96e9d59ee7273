import Invitation.Text.Utf8

/-!
# Cutting a text to a number of bytes

A text that is too long for a field is cut where a character ends. What is left is the longest such
beginning that fits.
-/

namespace Invitation.Text

/-- How many of the characters fit into `budget` bytes, added to the `n` that came before. -/
def fitting : Nat → Nat → List Char → Nat
  | _, n, [] => n
  | budget, n, c :: cs =>
    if c.utf8Size ≤ budget then fitting (budget - c.utf8Size) (n + 1) cs else n

/-- The longest beginning of a text that takes at most `max` bytes of UTF-8. -/
def cut (max : Nat) (s : String) : String := String.ofList (s.toList.take (fitting max 0 s.toList))

end Invitation.Text
