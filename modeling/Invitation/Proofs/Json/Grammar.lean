import Invitation.Json.Number
import Mathlib.Data.List.TakeWhile
import Mathlib.Tactic.Lemma

/-!
# The grammar of JSON

What a well-formed text is, said without a reader.  `WellFormed .value` holds of the texts of single
values, nested to any depth; numbers are the ones of the standard, with no leading zeros, and
strings may hold any escapes by number.  Where the text that a string denotes matters, numbers in
escapes have to spell characters, alone or in pairs: `Spells true` relates such a string to its
text, and `Spells false` is the laxer relation for strings that are passed over.

A list of things between brackets is `Bracketed`, whatever the things are.  It comes with the list
itself, so that something can be said of what stands between the brackets.
-/

namespace Invitation.Json

/-! ## Blanks -/

/-- Nothing but blanks. -/
def Blanks (cs : List Char) : Prop := ∀ c ∈ cs, c ∈ [' ', '\n', '\t', '\r']

instance : DecidablePred Blanks := fun cs => List.decidableBAll _ cs

/-- What a predicate holds of, with blanks before and after it. -/
def Padded (P : List Char → Prop) (cs : List Char) : Prop :=
  ∃ before inner after, cs = before ++ (inner ++ after) ∧ Blanks before ∧ P inner ∧ Blanks after

/-- No characters are blanks. -/
lemma blanks_nil : Blanks [] := by
  intro c hc
  cases hc

/-- The reader takes the four blanks for blanks, and nothing else. -/
lemma isBlank_iff {c : Char} : isBlank c = true ↔ c ∈ [' ', '\n', '\t', '\r'] := by
  simp [isBlank, or_assoc]

/-- Blanks are passed over. -/
lemma skipBlank_append {blanks : List Char} (h : Blanks blanks) (cs : List Char) :
    skipBlank (blanks ++ cs) = skipBlank cs :=
  List.dropWhile_append_of_pos fun c hc => isBlank_iff.2 (h c hc)

/-- Nothing but blanks is passed over. -/
lemma skipBlank_append_cons {blanks : List Char} (h : Blanks blanks) {c : Char}
    (hc : isBlank c = false) (cs : List Char) : skipBlank (blanks ++ c :: cs) = c :: cs := by
  rw [skipBlank_append h, skipBlank, List.dropWhile_cons_of_neg (by simp [hc])]

/-- Nothing is left of blanks. -/
lemma skipBlank_of_blanks {blanks : List Char} (h : Blanks blanks) : skipBlank blanks = [] := by
  have hnil := skipBlank_append h []
  rwa [List.append_nil] at hnil

/-- What is passed over is blanks. -/
lemma exists_blanks {cs rest : List Char} (h : skipBlank cs = rest) :
    ∃ blanks, cs = blanks ++ rest ∧ Blanks blanks := by
  refine ⟨cs.takeWhile isBlank, ?_, ?_⟩
  · rw [← h]
    exact List.takeWhile_append_dropWhile.symm
  · intro c hc
    exact isBlank_iff.1 (List.mem_takeWhile_imp hc)

/-! ## Numbers -/

/-- One digit or more, and nothing else. -/
def Digits (cs : List Char) : Prop := cs ≠ [] ∧ ∀ c ∈ cs, c.isDigit = true

/-- Digits that begin with a zero only if they are a single zero. -/
def Whole (cs : List Char) : Prop := Digits cs ∧ (cs.head? = some '0' → cs = ['0'])

/-- The digits after a point, and their text. -/
inductive Fraction : List Char → List Char → Prop
  | absent : Fraction [] []
  | present {ds : List Char} (h : Digits ds) : Fraction ds ('.' :: ds)

/-- The sign and the digits of an exponent, and their text. -/
inductive Exponent : Option (Bool × List Char) → List Char → Prop
  | absent : Exponent none []
  | bare {mark : Char} {ds : List Char} (hmark : mark = 'e' ∨ mark = 'E') (h : Digits ds) :
    Exponent (some (false, ds)) (mark :: ds)
  | plus {mark : Char} {ds : List Char} (hmark : mark = 'e' ∨ mark = 'E') (h : Digits ds) :
    Exponent (some (false, ds)) (mark :: '+' :: ds)
  | minus {mark : Char} {ds : List Char} (hmark : mark = 'e' ∨ mark = 'E') (h : Digits ds) :
    Exponent (some (true, ds)) (mark :: '-' :: ds)

/-- A number, and its text. -/
inductive Number.Spelled : Number → List Char → Prop
  | positive {whole fraction point mark : List Char} {exponent : Option (Bool × List Char)}
      (hwhole : Whole whole) (hfraction : Fraction fraction point)
      (hexponent : Exponent exponent mark) :
    Number.Spelled ⟨false, whole, fraction, exponent⟩ (whole ++ (point ++ mark))
  | negative {whole fraction point mark : List Char} {exponent : Option (Bool × List Char)}
      (hwhole : Whole whole) (hfraction : Fraction fraction point)
      (hexponent : Exponent exponent mark) :
    Number.Spelled ⟨true, whole, fraction, exponent⟩ ('-' :: (whole ++ (point ++ mark)))

/-- A number of 64 bits in decimal figures. -/
def numeral (n : UInt64) : List Char := (toString n).toList

/-! ## Strings -/

/-- What hexadecimal digits are worth, in either case. -/
def hexValues : List (Char × Nat) := "0123456789abcdef".toList.zipIdx ++ "ABCDEF".toList.zipIdx 10

/-- The number that four hexadecimal digits spell. -/
inductive FourDigits : List Char → Nat → Prop
  | mk {a b c d : Char} {w x y z : Nat} (ha : (a, w) ∈ hexValues) (hb : (b, x) ∈ hexValues)
      (hc : (c, y) ∈ hexValues) (hd : (d, z) ∈ hexValues) :
    FourDigits [a, b, c, d] (w * 0x1000 + x * 0x100 + y * 0x10 + z)

/-- The letters of escapes, and what they stand for. -/
def letters : List (Char × Char) :=
  [('"', '"'), ('\\', '\\'), ('/', '/'), ('b', '\x08'), ('f', '\x0c'), ('n', '\n'), ('r', '\r'),
    ('t', '\t')]

/-- The character that an escape stands for, and what follows the mark of the escape.  An escape by
number stands for the character of that number, or together with a second one for a character
beyond sixteen bits; where it does not matter what is denoted, any number will do. -/
inductive Escape : Bool → Char → List Char → Prop
  | letter {strict : Bool} {c letter : Char} (h : (letter, c) ∈ letters) : Escape strict c [letter]
  | number {c : Char} {ds : List Char} (h : FourDigits ds c.toNat) : Escape true c ('u' :: ds)
  | pair {c : Char} {ds es : List Char} {high low : Nat} (hds : FourDigits ds (0xd800 + high))
      (hes : FourDigits es (0xdc00 + low)) (hhigh : high < 0x400) (hlow : low < 0x400)
      (hc : c.toNat = 0x10000 + high * 0x400 + low) :
    Escape true c ('u' :: (ds ++ '\\' :: 'u' :: es))
  | any {n : Nat} {ds : List Char} (h : FourDigits ds n) : Escape false (Char.ofNat n) ('u' :: ds)

/-- A text, and what stands for it between quotes. -/
inductive Spells (strict : Bool) : List Char → List Char → Prop
  | nil : Spells strict [] []
  | plain {c : Char} {text cs : List Char} (hquote : c ≠ '"') (hmark : c ≠ '\\')
      (hcontrol : 0x20 ≤ c.toNat) (h : Spells strict text cs) : Spells strict (c :: text) (c :: cs)
  | escaped {c : Char} {text escape cs : List Char} (hescape : Escape strict c escape)
      (h : Spells strict text cs) : Spells strict (c :: text) ('\\' :: (escape ++ cs))

/-- Nothing but characters that stand for themselves between quotes. -/
def Plain (text : List Char) : Prop := ∀ c ∈ text, c ≠ '"' ∧ c ≠ '\\' ∧ 0x20 ≤ c.toNat

instance : DecidablePred Plain := fun text => List.decidableBAll _ text

/-- Characters that stand for themselves spell themselves. -/
lemma spells_of_plain {strict : Bool} {text : List Char} (h : Plain text) :
    Spells strict text text := by
  induction text with
  | nil => exact .nil
  | cons c text ih =>
    obtain ⟨hquote, hmark, hcontrol⟩ := h c List.mem_cons_self
    exact .plain hquote hmark hcontrol (ih fun d hd => h d (List.mem_cons_of_mem c hd))

/-- The name of a member, and its text with the colon and all blanks around it. -/
inductive Key (strict : Bool) : List Char → List Char → Prop
  | mk {before name cs after : List Char} (hbefore : Blanks before) (h : Spells strict name cs)
      (hafter : Blanks after) :
    Key strict name (before ++ '"' :: (cs ++ '"' :: (after ++ [':'])))

/-! ## Values -/

/-- The parts that a text has. -/
inductive Part
  | value
  /-- What stands between the brackets of an array that is not empty. -/
  | elements
  /-- What stands between the brackets of an object that is not empty. -/
  | members

/-- The texts of a part. -/
inductive WellFormed : Part → List Char → Prop
  | word {cs : List Char} (h : cs ∈ ["true".toList, "false".toList, "null".toList]) :
    WellFormed .value cs
  | number {n : Number} {cs : List Char} (h : n.Spelled cs) : WellFormed .value cs
  | string {text cs : List Char} (h : Spells false text cs) :
    WellFormed .value ('"' :: (cs ++ ['"']))
  | noElements {cs : List Char} (h : Blanks cs) : WellFormed .value ('[' :: (cs ++ [']']))
  | array {cs : List Char} (h : WellFormed .elements cs) : WellFormed .value ('[' :: (cs ++ [']']))
  | noMembers {cs : List Char} (h : Blanks cs) : WellFormed .value ('{' :: (cs ++ ['}']))
  | object {cs : List Char} (h : WellFormed .members cs) : WellFormed .value ('{' :: (cs ++ ['}']))
  | element {before cs after : List Char} (hbefore : Blanks before) (h : WellFormed .value cs)
      (hafter : Blanks after) : WellFormed .elements (before ++ (cs ++ after))
  | elements {before cs after rest : List Char} (hbefore : Blanks before)
      (h : WellFormed .value cs) (hafter : Blanks after) (hrest : WellFormed .elements rest) :
    WellFormed .elements (before ++ (cs ++ (after ++ ',' :: rest)))
  | member {name key before cs after : List Char} (hkey : Key false name key)
      (hbefore : Blanks before) (h : WellFormed .value cs) (hafter : Blanks after) :
    WellFormed .members (key ++ (before ++ (cs ++ after)))
  | members {name key before cs after rest : List Char} (hkey : Key false name key)
      (hbefore : Blanks before) (h : WellFormed .value cs) (hafter : Blanks after)
      (hrest : WellFormed .members rest) :
    WellFormed .members (key ++ (before ++ (cs ++ (after ++ ',' :: rest))))

/-! ## Lists between brackets -/

section Lists

variable {α : Type}

/-- One thing or more, with commas between them. -/
inductive Separated (P : α → List Char → Prop) : List α → List Char → Prop
  | last {a : α} {cs : List Char} (h : P a cs) : Separated P [a] cs
  | cons {a : α} {as : List α} {cs rest : List Char} (h : P a cs) (hrest : Separated P as rest) :
    Separated P (a :: as) (cs ++ ',' :: rest)

/-- Any number of things between brackets, with commas between them. -/
inductive Bracketed (opening closing : Char) (P : α → List Char → Prop) :
    List α → List Char → Prop
  | empty {cs : List Char} (h : Blanks cs) :
    Bracketed opening closing P [] (opening :: (cs ++ [closing]))
  | filled {as : List α} {cs : List Char} (h : Separated P as cs) :
    Bracketed opening closing P as (opening :: (cs ++ [closing]))

/-- A list between brackets begins and ends with its brackets. -/
lemma Bracketed.exists_eq {opening closing : Char} {P : α → List Char → Prop} {as : List α}
    {cs : List Char} (h : Bracketed opening closing P as cs) :
    ∃ inner, cs = opening :: (inner ++ [closing]) := by
  cases h with
  | empty | filled => exact ⟨_, rfl⟩

end Lists

end Invitation.Json
