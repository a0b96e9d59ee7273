/-!
# Reading JSON

Readers take a list of characters and give back what they read with the characters that are left.
A text is read once, from left to right, and the first fault decides. This module holds the faults
and the smallest readers: blanks and words.
-/

namespace Invitation.Json

/-- Why a text is refused. -/
inductive Fault
  /-- The text ends where more is needed. -/
  | truncated
  /-- The text is not JSON. -/
  | malformed
  /-- The text has a value of the wrong kind in this place. -/
  | unfit
  deriving DecidableEq

/-- A value that was read and the characters after it, or the fault that reading met. -/
abbrev Reading (α : Type) := Except Fault (α × List Char)

/-- The characters that may stand between any two parts of a text. -/
def isBlank (c : Char) : Bool := c == ' ' || c == '\n' || c == '\t' || c == '\r'

/-- The characters from the first one on that is not blank. -/
def skipBlank (cs : List Char) : List Char := cs.dropWhile isBlank

/-- Passing over blanks adds no characters. -/
theorem length_skipBlank_le (cs : List Char) : (skipBlank cs).length ≤ cs.length :=
  (List.dropWhile_sublist isBlank).length_le

/-- The characters after the given ones, which have to come first. -/
def expect : List Char → List Char → Except Fault (List Char)
  | [], rest => .ok rest
  | _ :: _, [] => .error .truncated
  | w :: ws, c :: cs => if w = c then expect ws cs else .error .malformed

/-- The given characters come first exactly if the text is they and what follows. -/
theorem expect_eq_ok_iff {w cs rest : List Char} : expect w cs = .ok rest ↔ cs = w ++ rest := by
  induction w generalizing cs with
  | nil => simp [expect, eq_comm]
  | cons a w ih =>
    cases cs with
    | nil => simp [expect]
    | cons c cs =>
      by_cases h : a = c
      · simp [expect, h, ih]
      · simp [expect, h, Ne.symm h]

/-- The characters after a word, if one of the three begins here. -/
def word (cs : List Char) : Except Fault (List Char) :=
  match cs with
  | 't' :: rest => expect ['r', 'u', 'e'] rest
  | 'f' :: rest => expect ['a', 'l', 's', 'e'] rest
  | 'n' :: rest => expect ['u', 'l', 'l'] rest
  | _ => .error .malformed

/-- Behind the first character that is not blank there are fewer characters than before. -/
theorem length_skipBlank_cons_le {cs rest : List Char} {c : Char} (h : skipBlank cs = c :: rest) :
    rest.length < cs.length := by
  have := length_skipBlank_le cs
  rw [h, List.length_cons] at this
  exact this

/-- A word takes characters. -/
theorem lt_of_word {cs rest : List Char} (h : word cs = .ok rest) : rest.length < cs.length := by
  unfold word at h
  split at h
  · have := congrArg List.length (expect_eq_ok_iff.1 h)
    simp at this ⊢
    omega
  · have := congrArg List.length (expect_eq_ok_iff.1 h)
    simp at this ⊢
    omega
  · have := congrArg List.length (expect_eq_ok_iff.1 h)
    simp at this ⊢
    omega
  · cases h

end Invitation.Json
