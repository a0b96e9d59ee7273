import Invitation.Json.Number
import Invitation.Json.StringLiteral

/-!
# Values that are passed over

A value that nobody asked for only has to be well formed. It may be nested to any depth, so the
reader keeps the brackets that are still open in a list instead of calling itself for each.
-/

namespace Invitation.Json

/-! ## Words, numbers and strings -/

/-- The characters after a value without brackets. A strict reader asks that a number is in range
and that a string denotes a text. A lax one does not, and to it a number that breaks off is
malformed, even at the end of the text. -/
def leaf (strict : Bool) (cs : List Char) : Except Fault (List Char) :=
  match cs with
  | [] => .error .truncated
  | c :: rest =>
    if c = '"' then
      match stringLiteral strict rest with
      | .error f => .error f
      | .ok (_, rest) => .ok rest
    else if c = '-' ∨ c.isDigit then
      match number cs with
      | .error f => .error (if strict then f else .malformed)
      | .ok (n, rest) => if strict && n.outOfRange then .error .malformed else .ok rest
    else word cs

/-! ## Brackets -/

/-- A bracket that is still open. -/
inductive Bracket
  | array
  | object
  deriving DecidableEq

/-- The characters after a colon. -/
def colon (cs : List Char) : Except Fault (List Char) :=
  match skipBlank cs with
  | [] => .error .truncated
  | c :: rest => if c = ':' then .ok rest else .error .malformed

/-- The name of a member. -/
def memberName (strict : Bool) (cs : List Char) : Reading (List Char) :=
  match skipBlank cs with
  | [] => .error .truncated
  | c :: rest => if c = '"' then stringLiteral strict rest else .error .malformed

/-- The characters after the name of a member that is passed over, and its colon. -/
def skipName (cs : List Char) : Except Fault (List Char) :=
  match memberName false cs with
  | .error f => .error f
  | .ok (_, rest) => colon rest

/-- Reads a value up to the first value inside it, and tells which bracket that one stands in. A
value that holds no other is read to its end. -/
def enter (cs : List Char) : Reading (Option Bracket) :=
  match skipBlank cs with
  | [] => .error .truncated
  | c :: rest =>
    if c = '[' then
      match skipBlank rest with
      | ']' :: rest => .ok (none, rest)
      | _ => .ok (some .array, rest)
    else if c = '{' then
      match skipBlank rest with
      | '}' :: rest => .ok (none, rest)
      | _ =>
        match skipName rest with
        | .error f => .error f
        | .ok rest => .ok (some .object, rest)
    else
      match leaf false (c :: rest) with
      | .error f => .error f
      | .ok rest => .ok (none, rest)

/-- Closes brackets behind a value until the next value, and tells which ones are open there. -/
def leave : List Bracket → List Char → Reading (List Bracket)
  | [], cs => .ok ([], cs)
  | b :: outer, cs =>
    match skipBlank cs with
    | [] => .error .truncated
    | c :: rest =>
      match b with
      | .array =>
        if c = ',' then .ok (.array :: outer, rest)
        else if c = ']' then leave outer rest
        else .error .malformed
      | .object =>
        if c = ',' then
          match skipName rest with
          | .error f => .error f
          | .ok rest => .ok (.object :: outer, rest)
        else if c = '}' then leave outer rest
        else .error .malformed

/-- A value without brackets takes characters. -/
theorem lt_of_leaf {strict : Bool} {cs rest : List Char} (h : leaf strict cs = .ok rest) :
    rest.length < cs.length := by
  unfold leaf at h
  split at h
  · cases h
  · next c cs =>
    split at h
    · split at h
      · cases h
      · next hs =>
        cases h
        have := lt_of_stringLiteral hs
        simp only [List.length_cons]
        omega
    · split at h
      · split at h
        · cases h
        · next hn =>
          split at h
          · cases h
          · cases h
            exact lt_of_number hn
      · exact lt_of_word h

/-- A colon takes characters. -/
theorem lt_of_colon {cs rest : List Char} (h : colon cs = .ok rest) : rest.length < cs.length := by
  unfold colon at h
  split at h
  · cases h
  · next hb =>
    split at h
    · cases h
      exact length_skipBlank_cons_le hb
    · cases h

/-- The name of a member takes characters. -/
theorem lt_of_memberName {strict : Bool} {cs name rest : List Char}
    (h : memberName strict cs = .ok (name, rest)) : rest.length < cs.length := by
  unfold memberName at h
  split at h
  · cases h
  · next hb =>
    split at h
    · have := lt_of_stringLiteral h
      have := length_skipBlank_cons_le hb
      omega
    · cases h

/-- A name that is passed over takes characters. -/
theorem lt_of_skipName {cs rest : List Char} (h : skipName cs = .ok rest) :
    rest.length < cs.length := by
  unfold skipName at h
  split at h
  · cases h
  · next hm =>
    have := lt_of_memberName hm
    have := lt_of_colon h
    omega

/-- A bracket that is opened, or a value that holds none, takes characters. -/
theorem lt_of_enter {cs rest : List Char} {b : Option Bracket} (h : enter cs = .ok (b, rest)) :
    rest.length < cs.length := by
  unfold enter at h
  split at h
  · cases h
  · next hb =>
    have := length_skipBlank_cons_le hb
    split at h
    · split at h
      · next hc =>
        cases h
        have := length_skipBlank_cons_le hc
        omega
      · cases h
        exact this
    · split at h
      · split at h
        · next hc =>
          cases h
          have := length_skipBlank_cons_le hc
          omega
        · split at h
          · cases h
          · next hn =>
            cases h
            have := lt_of_skipName hn
            omega
      · split at h
        · cases h
        · next hl =>
          cases h
          have := lt_of_leaf hl
          have := length_skipBlank_le cs
          simp_all only [List.length_cons]
          omega

/-- Closing brackets adds no characters; there may be none to close. -/
theorem le_of_leave {stack rest : List Bracket} {cs after : List Char}
    (h : leave stack cs = .ok (rest, after)) : after.length ≤ cs.length := by
  fun_induction leave stack cs with
  | case1 => cases h; exact Nat.le_refl _
  | case2 => cases h
  | case3 _ _ _ hb =>
    cases h
    exact Nat.le_of_lt (length_skipBlank_cons_le hb)
  | case4 _ _ _ hb _ ih =>
    have := ih h
    have := length_skipBlank_cons_le hb
    omega
  | case5 => cases h
  | case6 => cases h
  | case7 _ _ _ _ hn hb =>
    cases h
    have := lt_of_skipName hn
    have := length_skipBlank_cons_le hb
    omega
  | case8 _ _ _ hb _ ih =>
    have := ih h
    have := length_skipBlank_cons_le hb
    omega
  | case9 => cases h

/-! ## Values -/

/-- The characters after a value and after all brackets in `stack`, which are open where it
begins, innermost first. -/
def skipWithin (stack : List Bracket) (cs : List Char) : Except Fault (List Char) :=
  match _he : enter cs with
  | .error f => .error f
  | .ok (some b, rest) => skipWithin (b :: stack) rest
  | .ok (none, rest) =>
    match _hl : leave stack rest with
    | .error f => .error f
    | .ok ([], rest) => .ok rest
    | .ok (b :: outer, rest) => skipWithin (b :: outer) rest
termination_by cs.length
decreasing_by
  · exact lt_of_enter _he
  · have := lt_of_enter _he
    have := le_of_leave _hl
    omega

/-- The characters after a value that is passed over. -/
def skipValue (cs : List Char) : Except Fault (List Char) := skipWithin [] cs

/-- A value takes characters, whatever brackets are open around it. -/
theorem lt_of_skipWithin {stack : List Bracket} {cs rest : List Char}
    (h : skipWithin stack cs = .ok rest) : rest.length < cs.length := by
  fun_induction skipWithin stack cs with
  | case1 => cases h
  | case2 _ _ _ _ he ih =>
    have := ih h
    have := lt_of_enter he
    omega
  | case3 => cases h
  | case4 _ _ _ he _ hl =>
    cases h
    have := lt_of_enter he
    have := le_of_leave hl
    omega
  | case5 _ _ _ he _ _ _ hl ih =>
    have := ih h
    have := lt_of_enter he
    have := le_of_leave hl
    omega

/-- A value that is passed over takes characters. -/
theorem lt_of_skipValue {cs rest : List Char} (h : skipValue cs = .ok rest) :
    rest.length < cs.length := lt_of_skipWithin h

end Invitation.Json
