import Invitation.Json.Value
import Invitation.Proofs.Json.Numbers
import Invitation.Proofs.Json.Strings

/-!
# Passing over values

The reader that passes over a value keeps the brackets that are open in a list, and goes on from one
value to the next until the list is empty.  Where it stands behind a value, what is left to read up
to the end of the outermost one is `Closing`; where it stands before a value, it is `Within`.

Whatever the reader accepts has that shape (`exists_within_of_skipWithin`), and with no bracket open
that shape is a single well-formed value (`exists_wellFormed_of_skipValue`).  Conversely the reader
passes over every well-formed value, with any brackets open, and reads on as it would behind it
(`WellFormed.passedOver`), if what follows cannot be taken for a part of a number.
-/

namespace Invitation.Json

/-! ## Words, names and values without brackets -/

/-- The three words are read, and nothing else is read as one. -/
lemma word_eq_ok_iff {cs rest : List Char} :
    word cs = .ok rest ↔ ∃ w ∈ ["true".toList, "false".toList, "null".toList], cs = w ++ rest := by
  simp only [List.mem_cons, List.not_mem_nil, or_false, exists_eq_or_imp, exists_eq_left]
  constructor
  · intro h
    unfold word at h
    split at h
    · exact .inl (congrArg _ (expect_eq_ok_iff.1 h))
    · exact .inr (.inl (congrArg _ (expect_eq_ok_iff.1 h)))
    · exact .inr (.inr (congrArg _ (expect_eq_ok_iff.1 h)))
    · cases h
  · rintro (rfl | rfl | rfl)
    · exact expect_eq_ok_iff.2 rfl
    · exact expect_eq_ok_iff.2 rfl
    · exact expect_eq_ok_iff.2 rfl

/-- The name of a member and its colon are read as one key. -/
lemma memberName_colon_iff {strict : Bool} {cs name rest : List Char} :
    (∃ mid, memberName strict cs = .ok (name, mid) ∧ colon mid = .ok rest) ↔
      ∃ key, cs = key ++ rest ∧ Key strict name key := by
  constructor
  · rintro ⟨mid, hname, hcolon⟩
    unfold memberName at hname
    split at hname
    · cases hname
    · next hb =>
      split at hname
      · next hquote =>
        subst hquote
        obtain ⟨before, rfl, hbefore⟩ := exists_blanks hb
        obtain ⟨body, rfl, hspells⟩ := stringLiteral_eq_ok_iff.1 hname
        unfold colon at hcolon
        split at hcolon
        · cases hcolon
        · next hb' =>
          split at hcolon
          · next hc =>
            subst hc
            cases hcolon
            obtain ⟨after, rfl, hafter⟩ := exists_blanks hb'
            exact ⟨_, by simp, .mk hbefore hspells hafter⟩
          · cases hcolon
      · cases hname
  · rintro ⟨key, rfl, hkey⟩
    obtain @⟨before, _, body, after, hbefore, hspells, hafter⟩ := hkey
    refine ⟨after ++ ':' :: rest, ?_, ?_⟩
    · rw [List.append_assoc, memberName, List.cons_append,
        skipBlank_append_cons hbefore (by decide)]
      simp only [if_true]
      exact stringLiteral_eq_ok_iff.2 ⟨body, by simp, hspells⟩
    · rw [colon, skipBlank_append_cons hafter (by decide)]
      simp only [if_true]

/-- A name is passed over exactly if it is a key by the lax grammar. -/
lemma skipName_eq_ok_iff {cs rest : List Char} :
    skipName cs = .ok rest ↔ ∃ name key, cs = key ++ rest ∧ Key false name key := by
  simp only [← memberName_colon_iff]
  unfold skipName
  constructor
  · intro h
    split at h
    · cases h
    · next hname => exact ⟨_, _, hname, h⟩
  · rintro ⟨name, mid, hname, hcolon⟩
    simp only [hname, hcolon]

/-- What is read as a value without brackets is one. -/
lemma exists_wellFormed_of_leaf {cs rest : List Char} (h : leaf false cs = .ok rest) :
    ∃ value, cs = value ++ rest ∧ WellFormed .value value := by
  unfold leaf at h
  split at h
  · cases h
  · split at h
    · next hquote =>
      subst hquote
      split at h
      · cases h
      · next hs =>
        cases h
        obtain ⟨body, rfl, hspells⟩ := stringLiteral_eq_ok_iff.1 hs
        exact ⟨_, by simp, .string hspells⟩
    · split at h
      · split at h
        · cases h
        · next hn =>
          obtain ⟨text, htext, hspelled⟩ := exists_spelled_of_number hn
          rw [Bool.false_and, if_neg (by decide)] at h
          cases h
          exact ⟨text, htext, .number hspelled⟩
      · obtain ⟨w, hw, hcs⟩ := word_eq_ok_iff.1 h
        exact ⟨w, hcs, .word hw⟩

/-! ## The first character of a value -/

/-- A number begins with a minus or a digit. -/
lemma Number.Spelled.head {n : Number} {cs : List Char} (h : n.Spelled cs) :
    ∃ c rest, cs = c :: rest ∧ (c = '-' ∨ c.isDigit = true) := by
  cases h with
  | @positive whole fraction point mark e hwhole =>
    cases whole with
    | nil => exact absurd rfl hwhole.1.1
    | cons d ds => exact ⟨d, _, rfl, .inr (hwhole.1.2 d List.mem_cons_self)⟩
  | negative => exact ⟨'-', _, rfl, .inl rfl⟩

/-- What begins a number differs from whatever is neither a minus nor a digit. -/
lemma head_ne {c d : Char} (hc : c = '-' ∨ c.isDigit = true) (hd : d ≠ '-' ∧ d.isDigit = false) :
    c ≠ d := by
  rintro rfl
  rcases hc with rfl | hdigit
  · exact hd.1 rfl
  · rw [hd.2] at hdigit
    cases hdigit

/-- A value begins with a character that is no blank and closes no bracket. -/
lemma WellFormed.head {cs : List Char} (h : WellFormed .value cs) :
    ∃ c rest, cs = c :: rest ∧ isBlank c = false ∧ c ≠ ']' ∧ c ≠ '}' := by
  cases h with
  | word hw =>
    simp only [List.mem_cons, List.not_mem_nil, or_false] at hw
    rcases hw with rfl | rfl | rfl
    · exact ⟨'t', _, rfl, by decide⟩
    · exact ⟨'f', _, rfl, by decide⟩
    · exact ⟨'n', _, rfl, by decide⟩
  | number hn =>
    obtain ⟨c, rest, rfl, hc⟩ := hn.head
    refine ⟨c, rest, rfl, ?_⟩
    refine ⟨?_, head_ne hc (by decide), head_ne hc (by decide)⟩
    rw [Bool.eq_false_iff, ne_eq, isBlank_iff]
    simp only [List.mem_cons, List.not_mem_nil, or_false, not_or]
    exact ⟨head_ne hc (by decide), head_ne hc (by decide), head_ne hc (by decide),
      head_ne hc (by decide)⟩
  | string => exact ⟨'"', _, rfl, by decide⟩
  | noElements | array => exact ⟨'[', _, rfl, by decide⟩
  | noMembers | object => exact ⟨'{', _, rfl, by decide⟩

/-- Blanks before a value are passed over, and no more than they. -/
lemma WellFormed.skipBlank_append {before value : List Char} (hbefore : Blanks before)
    (h : WellFormed .value value) (rest : List Char) :
    skipBlank (before ++ (value ++ rest)) = value ++ rest := by
  obtain ⟨c, tail, rfl, hblank, -⟩ := h.head
  exact skipBlank_append_cons hbefore hblank _

/-! ## What has been read before a value inside -/

/-- What is read up to the first value inside a value, or all of a value that holds no other. -/
inductive Entered : Option Bracket → List Char → Prop
  | value {before cs : List Char} (hbefore : Blanks before) (h : WellFormed .value cs) :
    Entered none (before ++ cs)
  | array {before : List Char} (hbefore : Blanks before) : Entered (some .array) (before ++ ['['])
  | object {before name key : List Char} (hbefore : Blanks before) (hkey : Key false name key) :
    Entered (some .object) (before ++ '{' :: key)

/-- What is taken on the way into a value opens a bracket or is the value itself. -/
lemma exists_entered_of_enter {cs rest : List Char} {b : Option Bracket}
    (h : enter cs = .ok (b, rest)) : ∃ front, cs = front ++ rest ∧ Entered b front := by
  unfold enter at h
  split at h
  · cases h
  · next c cs' hb =>
    obtain ⟨before, rfl, hbefore⟩ := exists_blanks hb
    split at h
    · next hc =>
      subst hc
      split at h
      · next hend =>
        cases h
        obtain ⟨blanks, rfl, hblanks⟩ := exists_blanks hend
        exact ⟨_, by simp, .value hbefore (.noElements hblanks)⟩
      · cases h
        exact ⟨_, by simp, .array hbefore⟩
    · split at h
      · next hc =>
        subst hc
        split at h
        · next hend =>
          cases h
          obtain ⟨blanks, rfl, hblanks⟩ := exists_blanks hend
          exact ⟨_, by simp, .value hbefore (.noMembers hblanks)⟩
        · split at h
          · cases h
          · next hname =>
            cases h
            obtain ⟨name, key, rfl, hkey⟩ := skipName_eq_ok_iff.1 hname
            exact ⟨_, by simp, .object hbefore hkey⟩
      · split at h
        · cases h
        · next hl =>
          cases h
          obtain ⟨value, hvalue, hwell⟩ := exists_wellFormed_of_leaf hl
          rw [hvalue]
          exact ⟨_, by simp, .value hbefore hwell⟩

/-! ## What is left to read -/

/-- What may follow a value inside the brackets that are open, innermost first, up to the end of the
outermost. -/
inductive Closing : List Bracket → List Char → Prop
  | done : Closing [] []
  | array {outer : List Bracket} {after rest : List Char} (hafter : Blanks after)
      (h : Closing outer rest) : Closing (.array :: outer) (after ++ ']' :: rest)
  | object {outer : List Bracket} {after rest : List Char} (hafter : Blanks after)
      (h : Closing outer rest) : Closing (.object :: outer) (after ++ '}' :: rest)
  | element {outer : List Bracket} {after before value rest : List Char} (hafter : Blanks after)
      (hbefore : Blanks before) (hvalue : WellFormed .value value)
      (h : Closing (.array :: outer) rest) :
    Closing (.array :: outer) (after ++ ',' :: (before ++ (value ++ rest)))
  | member {outer : List Bracket} {after name key before value rest : List Char}
      (hafter : Blanks after) (hkey : Key false name key) (hbefore : Blanks before)
      (hvalue : WellFormed .value value) (h : Closing (.object :: outer) rest) :
    Closing (.object :: outer) (after ++ ',' :: (key ++ (before ++ (value ++ rest))))

/-- What may follow where a value is to begin. -/
def Within (stack : List Bracket) (cs : List Char) : Prop :=
  ∃ before value rest, cs = before ++ (value ++ rest) ∧ Blanks before ∧ WellFormed .value value
    ∧ Closing stack rest

/-- A value in an array, with what follows up to the end of the array, makes up its elements. -/
lemma Closing.elements {stack : List Bracket} {cs : List Char} (h : Closing stack cs)
    {outer : List Bracket} (hstack : stack = .array :: outer) {before value : List Char}
    (hbefore : Blanks before) (hvalue : WellFormed .value value) :
    ∃ inner rest, before ++ (value ++ cs) = inner ++ ']' :: rest ∧ WellFormed .elements inner
      ∧ Closing outer rest := by
  induction h generalizing before value with
  | done | object | member => cases hstack
  | array hafter h =>
    cases hstack
    exact ⟨_, _, by simp, .element hbefore hvalue hafter, h⟩
  | element hafter hbefore' hvalue' _ ih =>
    obtain ⟨inner, rest, hinner, hwell, hrest⟩ := ih hstack hbefore' hvalue'
    rw [hinner]
    exact ⟨_, rest, by simp, .elements hbefore hvalue hafter hwell, hrest⟩

/-- A member of an object, with what follows up to the end of the object, makes up its members. -/
lemma Closing.members {stack : List Bracket} {cs : List Char} (h : Closing stack cs)
    {outer : List Bracket} (hstack : stack = .object :: outer) {name key before value : List Char}
    (hkey : Key false name key) (hbefore : Blanks before) (hvalue : WellFormed .value value) :
    ∃ inner rest, key ++ (before ++ (value ++ cs)) = inner ++ '}' :: rest
      ∧ WellFormed .members inner ∧ Closing outer rest := by
  induction h generalizing name key before value with
  | done | array | element => cases hstack
  | object hafter h =>
    cases hstack
    exact ⟨_, _, by simp, .member hkey hbefore hvalue hafter, h⟩
  | member hafter hkey' hbefore' hvalue' _ ih =>
    obtain ⟨inner, rest, hinner, hwell, hrest⟩ := ih hstack hkey' hbefore' hvalue'
    rw [hinner]
    exact ⟨_, rest, by simp, .members hkey hbefore hvalue hafter hwell, hrest⟩

/-- Behind a value, the reader closes brackets up to the next value or to the end. -/
lemma exists_closing_of_leave {stack open' : List Bracket} {cs rest : List Char}
    (h : leave stack cs = .ok (open', rest)) :
    ∃ front, cs = front ++ rest ∧ (open' = [] → Closing stack front)
      ∧ (open' ≠ [] → ∀ back, Within open' back → Closing stack (front ++ back)) := by
  fun_induction leave stack cs with
  | case1 cs =>
    cases h
    exact ⟨[], rfl, fun _ => .done, fun hne => absurd rfl hne⟩
  | case2 => cases h
  | case3 outer cs rest hb =>
    cases h
    obtain ⟨after, rfl, hafter⟩ := exists_blanks hb
    refine ⟨after ++ [','], by simp, by simp, ?_⟩
    rintro - _ ⟨before, value, rest', rfl, hbefore, hvalue, hclosing⟩
    rw [List.append_assoc, List.singleton_append]
    exact .element hafter hbefore hvalue hclosing
  | case4 outer cs rest hb hne ih =>
    obtain ⟨after, rfl, hafter⟩ := exists_blanks hb
    obtain ⟨front, rfl, hdone, hgoes⟩ := ih h
    refine ⟨after ++ ']' :: front, by simp, fun hnil => .array hafter (hdone hnil), ?_⟩
    intro hopen back hback
    rw [List.append_assoc]
    exact .array hafter (hgoes hopen back hback)
  | case5 => cases h
  | case6 => cases h
  | case7 outer cs rest rest' hname hb =>
    cases h
    obtain ⟨after, rfl, hafter⟩ := exists_blanks hb
    obtain ⟨name, key, rfl, hkey⟩ := skipName_eq_ok_iff.1 hname
    refine ⟨after ++ ',' :: key, by simp, by simp, ?_⟩
    rintro - _ ⟨before, value, rest', rfl, hbefore, hvalue, hclosing⟩
    rw [List.append_assoc, List.cons_append]
    exact .member hafter hkey hbefore hvalue hclosing
  | case8 outer cs rest hb hne ih =>
    obtain ⟨after, rfl, hafter⟩ := exists_blanks hb
    obtain ⟨front, rfl, hdone, hgoes⟩ := ih h
    refine ⟨after ++ '}' :: front, by simp, fun hnil => .object hafter (hdone hnil), ?_⟩
    intro hopen back hback
    rw [List.append_assoc]
    exact .object hafter (hgoes hopen back hback)
  | case9 => cases h

/-- What is passed over up to the end of the outermost bracket has the shape that is expected. -/
lemma exists_within_of_skipWithin {stack : List Bracket} {cs rest : List Char}
    (h : skipWithin stack cs = .ok rest) : ∃ front, cs = front ++ rest ∧ Within stack front := by
  fun_induction skipWithin stack cs with
  | case1 => cases h
  | case2 stack cs b cs' he ih =>
    obtain ⟨front, rfl, hfront⟩ := exists_entered_of_enter he
    obtain ⟨inner, rfl, before, value, back, rfl, hbefore, hvalue, hclosing⟩ := ih h
    cases hfront with
    | array hblanks =>
      obtain ⟨elements, back', hsplit, hwell, hback⟩ := hclosing.elements rfl hbefore hvalue
      refine ⟨_, (List.append_assoc _ _ _).symm, _, _, back', ?_, hblanks, .array hwell, hback⟩
      rw [hsplit]
      simp
    | object hblanks hkey =>
      obtain ⟨members, back', hsplit, hwell, hback⟩ := hclosing.members rfl hkey hbefore hvalue
      refine ⟨_, (List.append_assoc _ _ _).symm, _, _, back', ?_, hblanks, .object hwell, hback⟩
      rw [List.append_assoc, List.cons_append, hsplit]
      simp
  | case3 => cases h
  | case4 stack cs cs' he rest' hl =>
    cases h
    obtain ⟨front, rfl, hfront⟩ := exists_entered_of_enter he
    obtain ⟨back, rfl, hdone, -⟩ := exists_closing_of_leave hl
    cases hfront with
    | value hblanks hvalue =>
      exact ⟨_, (List.append_assoc _ _ _).symm, _, _, back, List.append_assoc _ _ _, hblanks,
        hvalue, hdone rfl⟩
  | case5 stack cs cs' he b outer rest' hl ih =>
    obtain ⟨front, rfl, hfront⟩ := exists_entered_of_enter he
    obtain ⟨mid, rfl, -, hgoes⟩ := exists_closing_of_leave hl
    obtain ⟨back, rfl, hback⟩ := ih h
    cases hfront with
    | value hblanks hvalue =>
      refine ⟨_, ?_, _, _, mid ++ back, List.append_assoc _ _ _, hblanks, hvalue,
        hgoes (List.cons_ne_nil _ _) back hback⟩
      simp

/-- What is passed over is a well-formed value. -/
theorem exists_wellFormed_of_skipValue {cs rest : List Char} (h : skipValue cs = .ok rest) :
    ∃ before value, cs = before ++ (value ++ rest) ∧ Blanks before
      ∧ WellFormed .value value := by
  obtain ⟨_, rfl, before, value, back, rfl, hbefore, hvalue, hclosing⟩ :=
    exists_within_of_skipWithin h
  cases hclosing
  exact ⟨before, value, by simp, hbefore, hvalue⟩

/-! ## Passing over what is well formed -/

/-- Reads on behind a value, up to the end of the outermost bracket. -/
def resume (stack : List Bracket) (cs : List Char) : Except Fault (List Char) :=
  match leave stack cs with
  | .error f => .error f
  | .ok ([], rest) => .ok rest
  | .ok (b :: outer, rest) => skipWithin (b :: outer) rest

/-- With no bracket open nothing more is read. -/
lemma resume_nil (cs : List Char) : resume [] cs = .ok cs := rfl

section Resume

variable {outer : List Bracket} {after rest : List Char}

/-- Behind the end of an array reading goes on outside of it. -/
lemma resume_array (h : Blanks after) :
    resume (.array :: outer) (after ++ ']' :: rest) = resume outer rest := by
  rw [resume, leave, skipBlank_append_cons h (by decide)]
  rfl

/-- Behind the end of an object reading goes on outside of it. -/
lemma resume_object (h : Blanks after) :
    resume (.object :: outer) (after ++ '}' :: rest) = resume outer rest := by
  rw [resume, leave, skipBlank_append_cons h (by decide)]
  rfl

/-- Behind a comma in an array the next element is read. -/
lemma resume_element (h : Blanks after) :
    resume (.array :: outer) (after ++ ',' :: rest) = skipWithin (.array :: outer) rest := by
  rw [resume, leave, skipBlank_append_cons h (by decide)]
  rfl

/-- Behind a comma in an object the next name is passed over and its value is read. -/
lemma resume_member (h : Blanks after) {mid : List Char} (hname : skipName rest = .ok mid) :
    resume (.object :: outer) (after ++ ',' :: rest) = skipWithin (.object :: outer) mid := by
  rw [resume, leave, skipBlank_append_cons h (by decide)]
  simp only [if_true, hname]

end Resume

section Enter

variable {stack : List Bracket} {cs rest : List Char}

/-- Once a value that holds no other is read, reading goes on behind it. -/
lemma skipWithin_of_enter_none (h : enter cs = .ok (none, rest)) :
    skipWithin stack cs = resume stack rest := by
  rw [skipWithin, resume]
  split
  · next he => rw [h] at he; cases he
  · next he => rw [h] at he; cases he
  · next he =>
    rw [h] at he
    cases he
    split <;> simp only [*]

/-- Once a bracket is opened, reading goes on with one bracket more. -/
lemma skipWithin_of_enter_some {b : Bracket} (h : enter cs = .ok (some b, rest)) :
    skipWithin stack cs = skipWithin (b :: stack) rest := by
  rw [skipWithin]
  split
  · next he => rw [h] at he; cases he
  · next he => rw [h] at he; cases he; rfl
  · next he => rw [h] at he; cases he

/-- Behind blanks a value without brackets is taken whole. -/
lemma enter_of_leaf {before value : List Char} (hbefore : Blanks before) {c : Char}
    {tail : List Char} (hvalue : value = c :: tail) (hblank : isBlank c = false)
    (harray : c ≠ '[') (hobject : c ≠ '{') (h : leaf false (value ++ rest) = .ok rest) :
    enter (before ++ (value ++ rest)) = .ok (none, rest) := by
  subst hvalue
  rw [List.cons_append] at h ⊢
  rw [enter, skipBlank_append_cons hbefore hblank]
  simp only [if_neg harray, if_neg hobject, h]

/-- An array without elements is taken whole. -/
lemma enter_noElements {before inner : List Char} (hbefore : Blanks before) (h : Blanks inner) :
    enter (before ++ ('[' :: (inner ++ [']']) ++ rest)) = .ok (none, rest) := by
  rw [enter, List.cons_append, skipBlank_append_cons hbefore (by decide)]
  simp only [if_true, List.append_assoc, List.singleton_append,
    skipBlank_append_cons h (show isBlank ']' = false by decide)]

/-- An object without members is taken whole. -/
lemma enter_noMembers {before inner : List Char} (hbefore : Blanks before) (h : Blanks inner) :
    enter (before ++ ('{' :: (inner ++ ['}']) ++ rest)) = .ok (none, rest) := by
  rw [enter, List.cons_append, skipBlank_append_cons hbefore (by decide)]
  simp only [if_neg (show '{' ≠ '[' by decide), if_true, List.append_assoc, List.singleton_append,
    skipBlank_append_cons h (show isBlank '}' = false by decide)]

/-- Elements begin as their first value does. -/
lemma WellFormed.elements_head {inner : List Char} (h : WellFormed .elements inner) :
    ∃ blanks c tail, inner = blanks ++ c :: tail ∧ Blanks blanks ∧ isBlank c = false ∧ c ≠ ']' := by
  cases h with
  | element hbefore h =>
    obtain ⟨c, tail, rfl, hc⟩ := h.head
    exact ⟨_, c, _, rfl, hbefore, hc.1, hc.2.1⟩
  | elements hbefore h =>
    obtain ⟨c, tail, rfl, hc⟩ := h.head
    exact ⟨_, c, _, rfl, hbefore, hc.1, hc.2.1⟩

/-- The bracket of an array with elements is opened before the first of them. -/
lemma enter_array {before inner : List Char} (hbefore : Blanks before)
    (h : WellFormed .elements inner) :
    enter (before ++ ('[' :: (inner ++ [']']) ++ rest))
      = .ok (some .array, inner ++ ']' :: rest) := by
  obtain ⟨blanks, c, tail, rfl, hblanks, hblank, hc⟩ := h.elements_head
  rw [enter, List.cons_append, skipBlank_append_cons hbefore (by decide)]
  simp only [if_true, List.append_assoc, List.cons_append, List.nil_append,
    skipBlank_append_cons hblanks hblank]
  split
  · next heq => exact absurd (List.cons.inj heq).1 hc
  · rfl

/-- Members begin with the key of the first one. -/
lemma WellFormed.members_key {inner : List Char} (h : WellFormed .members inner) :
    ∃ name key tail, inner = key ++ tail ∧ Key false name key := by
  cases h with
  | member hkey | members hkey => exact ⟨_, _, _, rfl, hkey⟩

/-- A key begins with a quote. -/
lemma skipBlank_key {strict : Bool} {name key : List Char} (h : Key strict name key) :
    ∃ tail, ∀ rest, skipBlank (key ++ rest) = '"' :: (tail ++ rest) := by
  obtain @⟨before, _, body, after, hbefore, _, _⟩ := h
  refine ⟨body ++ '"' :: (after ++ [':']), fun rest => ?_⟩
  rw [List.append_assoc, List.cons_append, skipBlank_append_cons hbefore (by decide)]

/-- The bracket of an object with members is opened, and the first name is passed over. -/
lemma enter_object {before inner mid : List Char} (hbefore : Blanks before)
    {name key tail : List Char} (hkey : Key false name key) (hinner : inner = key ++ tail)
    (h : skipName (inner ++ '}' :: rest) = .ok mid) :
    enter (before ++ ('{' :: (inner ++ ['}']) ++ rest)) = .ok (some .object, mid) := by
  obtain ⟨tail', htail⟩ := skipBlank_key hkey
  rw [enter, List.cons_append, skipBlank_append_cons hbefore (by decide)]
  simp only [if_neg (show '{' ≠ '[' by decide), if_true, List.append_assoc, List.singleton_append,
    h]
  split
  · next heq =>
    rw [hinner, List.append_assoc, htail] at heq
    cases heq
  · rfl

end Enter

/-- How the reader passes over a part of a text, whatever brackets are open around it. -/
def PassedOver : Part → List Char → Prop
  | .value, cs => ∀ stack before rest, Blanks before → Delimited rest →
    skipWithin stack (before ++ (cs ++ rest)) = resume stack rest
  | .elements, cs => ∀ outer rest,
    skipWithin (.array :: outer) (cs ++ ']' :: rest) = resume outer rest
  | .members, cs => ∀ outer rest, ∃ mid, skipName (cs ++ '}' :: rest) = .ok mid
    ∧ skipWithin (.object :: outer) mid = resume outer rest

/-- A value without brackets is passed over if it is read whole. -/
lemma passedOver_of_leaf {value : List Char} {c : Char} {tail : List Char}
    (hvalue : value = c :: tail) (hblank : isBlank c = false) (harray : c ≠ '[') (hobject : c ≠ '{')
    (h : ∀ rest, Delimited rest → leaf false (value ++ rest) = .ok rest) :
    PassedOver .value value := by
  intro stack before rest hbefore hrest
  exact skipWithin_of_enter_none
    (enter_of_leaf hbefore hvalue hblank harray hobject (h rest hrest))

/-- A word is passed over. -/
lemma passedOver_word {w : List Char} (h : w ∈ ["true".toList, "false".toList, "null".toList]) :
    PassedOver .value w := by
  have hread (rest : List Char) : word (w ++ rest) = .ok rest := word_eq_ok_iff.2 ⟨w, h, rfl⟩
  simp only [List.mem_cons, List.not_mem_nil, or_false] at h
  rcases h with rfl | rfl | rfl
  · exact passedOver_of_leaf rfl (by decide) (by decide) (by decide) fun rest _ => hread rest
  · exact passedOver_of_leaf rfl (by decide) (by decide) (by decide) fun rest _ => hread rest
  · exact passedOver_of_leaf rfl (by decide) (by decide) (by decide) fun rest _ => hread rest

/-- A number is passed over, however large it is. -/
lemma passedOver_number {n : Number} {text : List Char} (h : n.Spelled text) :
    PassedOver .value text := by
  obtain ⟨c, tail, rfl, hc⟩ := h.head
  obtain ⟨_, _, hhead, hblank, -⟩ := (WellFormed.number h).head
  cases hhead
  refine passedOver_of_leaf rfl hblank (head_ne hc (by decide)) (head_ne hc (by decide))
    fun rest hrest => ?_
  have hnumber := number_append h hrest
  rw [List.cons_append] at hnumber ⊢
  rw [leaf, if_neg (head_ne hc (by decide)), if_pos hc]
  simp only [hnumber, Bool.false_and, Bool.false_eq_true, if_false]

/-- A string is passed over, also if it does not denote Unicode text. -/
lemma passedOver_string {text body : List Char} (h : Spells false text body) :
    PassedOver .value ('"' :: (body ++ ['"'])) := by
  refine passedOver_of_leaf rfl (by decide) (by decide) (by decide) fun rest _ => ?_
  have hliteral := stringLiteral_eq_ok_iff.2 ⟨body, (rfl : body ++ '"' :: rest = _), h⟩
  rw [List.cons_append, List.append_assoc, List.singleton_append, leaf]
  simp only [if_true, hliteral]

/-- The reader passes over whatever is well formed. -/
lemma WellFormed.passedOver {part : Part} {cs : List Char} (h : WellFormed part cs) :
    PassedOver part cs := by
  -- A value is passed over with any brackets open, so that the hypothesis for what stands inside
  -- brackets can be used with one bracket more, which `resume` takes off again where they close.
  induction h with
  | word h => exact passedOver_word h
  | number h => exact passedOver_number h
  | string h => exact passedOver_string h
  | noElements h =>
    intro stack before rest hbefore _
    exact skipWithin_of_enter_none (enter_noElements hbefore h)
  | noMembers h =>
    intro stack before rest hbefore _
    exact skipWithin_of_enter_none (enter_noMembers hbefore h)
  | array h ih =>
    intro stack before rest hbefore _
    rw [skipWithin_of_enter_some (enter_array hbefore h)]
    exact ih stack rest
  | object h ih =>
    intro stack before rest hbefore _
    obtain ⟨mid, hname, hmid⟩ := ih stack rest
    obtain ⟨name, key, tail, hinner, hkey⟩ := h.members_key
    rw [skipWithin_of_enter_some (enter_object hbefore hkey hinner hname)]
    exact hmid
  | element hbefore _ hafter ih =>
    intro outer rest
    rw [List.append_assoc, List.append_assoc,
      ih _ _ _ hbefore (delimited_append_cons hafter (by decide) rest), resume_array hafter]
  | elements hbefore _ hafter _ ih ihrest =>
    intro outer rest
    rw [List.append_assoc, List.append_assoc, List.append_assoc, List.cons_append,
      ih _ _ _ hbefore (delimited_append_cons hafter (by decide) _), resume_element hafter]
    exact ihrest outer rest
  | member hkey hbefore _ hafter ih =>
    intro outer rest
    refine ⟨_, skipName_eq_ok_iff.2 ⟨_, _, List.append_assoc _ _ _, hkey⟩, ?_⟩
    rw [List.append_assoc, List.append_assoc,
      ih _ _ _ hbefore (delimited_append_cons hafter (by decide) rest), resume_object hafter]
  | members hkey hbefore _ hafter _ ih ihrest =>
    intro outer rest
    obtain ⟨mid, hname, hmid⟩ := ihrest outer rest
    refine ⟨_, skipName_eq_ok_iff.2 ⟨_, _, List.append_assoc _ _ _, hkey⟩, ?_⟩
    rw [List.append_assoc, List.append_assoc, List.append_assoc, List.cons_append,
      ih _ _ _ hbefore (delimited_append_cons hafter (by decide) _), resume_member hafter hname]
    exact hmid

/-- A well-formed value is passed over, with the blanks before it. -/
theorem skipValue_append {before value rest : List Char} (hbefore : Blanks before)
    (h : WellFormed .value value) (hrest : Delimited rest) :
    skipValue (before ++ (value ++ rest)) = .ok rest :=
  (h.passedOver [] before rest hbefore hrest).trans (resume_nil rest)

end Invitation.Json
