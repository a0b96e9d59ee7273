import Invitation.Json.StringLiteral
import Invitation.Proofs.Json.Grammar
import Mathlib.Tactic.Ring
import Mathlib.Tactic.SplitIfs

/-!
# Reading strings

A quote ends a string unless it is escaped, so no string is the beginning of another and reading one
needs no look at what follows.  Strict and lax readers are treated alike: each reads exactly the
strings of its own grammar, and gives back the text that the string denotes there
(`stringLiteral_eq_ok_iff`).
-/

namespace Invitation.Json

/-! ## Digits and letters of escapes -/

/-- The reader knows the hexadecimal digits of the table, in both cases. -/
lemma hexDigit?_eq_some_iff {c : Char} {v : Nat} : hexDigit? c = some v ↔ (c, v) ∈ hexValues := by
  have hsmall : ∀ n < 103, ∀ w ∈ hexDigit? (Char.ofNat n), (Char.ofNat n, w) ∈ hexValues := by
    decide
  have htable : ∀ p ∈ hexValues, hexDigit? p.1 = some p.2 := by
    decide
  constructor
  · intro h
    have hc : c.toNat < 103 := by
      by_contra hlarge
      have hrange (d : Char) (hd : d.toNat < 103) : ¬ c ≤ d := by
        intro hle
        have : c.toNat ≤ d.toNat := hle
        omega
      simp [hexDigit?, hrange] at h
    have := hsmall c.toNat hc v
    rw [Char.ofNat_toNat] at this
    exact this h
  · intro h
    exact htable (c, v) h

/-- A hexadecimal digit stands for less than sixteen. -/
lemma lt_of_mem_hexValues {c : Char} {v : Nat} (h : (c, v) ∈ hexValues) : v < 16 := by
  have htable : ∀ p ∈ hexValues, p.2 < 16 := by
    decide
  exact htable (c, v) h

/-- The reader knows the escapes of the table that are one letter. -/
lemma lettered?_eq_some_iff {c d : Char} : lettered? c = some d ↔ (c, d) ∈ letters := by
  have htable : ∀ p ∈ letters, lettered? p.1 = some p.2 := by
    decide
  constructor
  · intro h
    unfold lettered? at h
    split_ifs at h with hself hb hf hn hr ht
    · cases h
      rcases hself with rfl | rfl | rfl <;> decide
    all_goals
      subst c
      cases h
      decide
  · intro h
    exact htable (c, d) h

/-- Escapes by number have a letter of their own. -/
lemma ne_of_mem_letters {c d : Char} (h : (c, d) ∈ letters) : c ≠ 'u' := by
  have htable : ∀ p ∈ letters, p.1 ≠ 'u' := by
    decide
  exact htable (c, d) h

/-- Four digits are read as the number that they spell by the grammar. -/
lemma fourDigits?_eq_some_iff {ds : List Char} {n : Nat} :
    fourDigits? ds = some n ↔ FourDigits ds n := by
  constructor
  · intro h
    unfold fourDigits? at h
    split at h
    · simp only [bind, pure, Option.bind_eq_some_iff, hexDigit?_eq_some_iff] at h
      obtain ⟨w, hw, x, hx, y, hy, z, hz, hn⟩ := h
      have hvalue : n = w * 0x1000 + x * 0x100 + y * 0x10 + z := by
        cases hn
        ring
      rw [hvalue]
      exact .mk hw hx hy hz
    · cases h
  · rintro ⟨ha, hb, hc, hd⟩
    simp only [fourDigits?, hexDigit?_eq_some_iff.2 ha, hexDigit?_eq_some_iff.2 hb,
      hexDigit?_eq_some_iff.2 hc, hexDigit?_eq_some_iff.2 hd, bind, pure, Option.bind_some]
    congr 1
    ring

/-- Four hexadecimal digits spell a number of sixteen bits. -/
lemma FourDigits.lt {ds : List Char} {n : Nat} (h : FourDigits ds n) : n < 0x10000 := by
  obtain ⟨ha, hb, hc, hd⟩ := h
  have := lt_of_mem_hexValues ha
  have := lt_of_mem_hexValues hb
  have := lt_of_mem_hexValues hc
  have := lt_of_mem_hexValues hd
  omega

/-- Four digits are four characters. -/
lemma FourDigits.length {ds : List Char} {n : Nat} (h : FourDigits ds n) : ds.length = 4 := by
  cases h
  rfl

/-- Four digits are read as the number that they spell. -/
lemma codeUnit_eq_ok_iff {cs rest : List Char} {n : Nat} :
    codeUnit cs = .ok (n, rest) ↔ ∃ ds, cs = ds ++ rest ∧ FourDigits ds n := by
  unfold codeUnit
  constructor
  · intro h
    split at h
    · next hds =>
      cases h
      exact ⟨cs.take 4, (List.take_append_drop 4 cs).symm, fourDigits?_eq_some_iff.1 hds⟩
    · cases h
  · rintro ⟨ds, rfl, hds⟩
    have htake : (ds ++ rest).take 4 = ds := List.take_left' hds.length
    have hdrop : (ds ++ rest).drop 4 = rest := List.drop_left' hds.length
    simp only [htake, hdrop, fourDigits?_eq_some_iff.2 hds]

/-! ## Escapes -/

/-- A second number is read with its own mark. -/
lemma trailingUnit_eq_ok_iff {cs rest : List Char} {m : Nat} :
    trailingUnit cs = .ok (m, rest) ↔
      ∃ es low, cs = '\\' :: 'u' :: (es ++ rest) ∧ FourDigits es m ∧ m = 0xdc00 + low
        ∧ low < 0x400 := by
  have htrailing {m : Nat} : isTrailing m = true ↔ ∃ low, m = 0xdc00 + low ∧ low < 0x400 := by
    simp only [isTrailing, Bool.and_eq_true, decide_eq_true_eq]
    constructor
    · rintro ⟨hlow, hhigh⟩
      exact ⟨m - 0xdc00, by omega, by omega⟩
    · rintro ⟨low, rfl, hlow⟩
      omega
  constructor
  · intro h
    unfold trailingUnit at h
    split at h
    · cases h
    · cases h
    · split at h
      · cases h
      · next hn =>
        obtain ⟨es, rfl, hes⟩ := codeUnit_eq_ok_iff.1 hn
        split at h
        · next ht =>
          cases h
          obtain ⟨low, hm, hlow⟩ := htrailing.1 ht
          exact ⟨es, low, rfl, hes, hm, hlow⟩
        · cases h
    · cases h
  · rintro ⟨es, low, rfl, hes, hm, hlow⟩
    rw [trailingUnit]
    simp only [codeUnit_eq_ok_iff.2 ⟨es, rfl, hes⟩, htrailing.2 ⟨low, hm, hlow⟩, if_true]

/-- A number outside the surrogates is the number of its character. -/
lemma toNat_ofNat {n : Nat} (h : n < 0xd800 ∨ 0xdfff < n ∧ n < 0x110000) :
    (Char.ofNat n).toNat = n := by
  rw [Char.ofNat, dif_pos h]
  rfl

/-- A lax reader takes any number. -/
lemma numbered_lax_eq_ok_iff {cs rest : List Char} {c : Char} :
    numbered false cs = .ok (c, rest) ↔
      ∃ ds n, cs = ds ++ rest ∧ FourDigits ds n ∧ c = Char.ofNat n := by
  unfold numbered
  constructor
  · intro h
    split at h
    · cases h
    · next hn =>
      obtain ⟨ds, rfl, hds⟩ := codeUnit_eq_ok_iff.1 hn
      cases h
      exact ⟨ds, _, rfl, hds, rfl⟩
  · rintro ⟨ds, n, rfl, hds, rfl⟩
    simp [codeUnit_eq_ok_iff.2 ⟨ds, rfl, hds⟩]

/-- A strict reader takes the number of a character, or a pair of numbers. -/
lemma numbered_strict_eq_ok_iff {cs rest : List Char} {c : Char} :
    numbered true cs = .ok (c, rest) ↔ ∃ e, cs = e ++ rest ∧ Escape true c ('u' :: e) := by
  unfold numbered
  constructor
  · intro h
    split at h
    · cases h
    · next n cs' hn =>
      obtain ⟨ds, rfl, hds⟩ := codeUnit_eq_ok_iff.1 hn
      have hlt := hds.lt
      simp only [Bool.true_and, isTrailing, isLeading, Bool.and_eq_true, decide_eq_true_eq] at h
      split at h
      · cases h
      · next htrailing =>
        split at h
        · next hleading =>
          split at h
          · cases h
          · next hm =>
            simp only [Except.ok.injEq, Prod.mk.injEq] at h
            obtain ⟨rfl, rfl⟩ := h
            obtain ⟨es, low, rfl, hes, rfl, hlow⟩ := trailingUnit_eq_ok_iff.1 hm
            obtain ⟨high, rfl⟩ := Nat.exists_eq_add_of_le hleading.1
            refine ⟨ds ++ '\\' :: 'u' :: es, by simp, .pair hds hes (by omega) hlow ?_⟩
            rw [ofPair, toNat_ofNat (by omega)]
            omega
        · next hleading =>
          cases h
          refine ⟨ds, rfl, .number ?_⟩
          rw [toNat_ofNat (by omega)]
          exact hds
  · rintro ⟨e, rfl, he⟩
    cases he with
    | letter h =>
      exact absurd rfl (ne_of_mem_letters h)
    | number hds =>
      have hvalid : c.toNat < 0xd800 ∨ 0xdfff < c.toNat ∧ c.toNat < 0x110000 := c.valid
      have htrailing : isTrailing c.toNat = false := by
        rw [isTrailing, Bool.and_eq_false_iff, decide_eq_false_iff_not, decide_eq_false_iff_not]
        omega
      have hleading : isLeading c.toNat = false := by
        rw [isLeading, Bool.and_eq_false_iff, decide_eq_false_iff_not, decide_eq_false_iff_not]
        omega
      simp [codeUnit_eq_ok_iff.2 ⟨_, rfl, hds⟩, htrailing, hleading]
    | @pair _ ds es high low hds hes hhigh hlow hc =>
      have hunit : codeUnit (ds ++ '\\' :: 'u' :: (es ++ rest))
          = .ok (0xd800 + high, '\\' :: 'u' :: (es ++ rest)) :=
        codeUnit_eq_ok_iff.2 ⟨ds, rfl, hds⟩
      have hsecond : trailingUnit ('\\' :: 'u' :: (es ++ rest)) = .ok (0xdc00 + low, rest) :=
        trailingUnit_eq_ok_iff.2 ⟨es, low, rfl, hes, rfl, hlow⟩
      have htrailing : isTrailing (0xd800 + high) = false := by
        rw [isTrailing, Bool.and_eq_false_iff, decide_eq_false_iff_not]
        omega
      have hleading : isLeading (0xd800 + high) = true := by
        rw [isLeading, Bool.and_eq_true, decide_eq_true_eq, decide_eq_true_eq]
        omega
      have hpair : ofPair (0xd800 + high) (0xdc00 + low) = c := by
        apply Char.toNat_inj.1
        rw [ofPair, toNat_ofNat (by omega), hc]
        omega
      rw [List.append_assoc, List.cons_append, List.cons_append, hunit]
      simp only [htrailing, hleading, hsecond, hpair, Bool.and_false, Bool.and_true, if_true,
        Bool.false_eq_true, if_false]

/-- An escape is read for what it stands for. -/
lemma escape_eq_ok_iff {strict : Bool} {cs rest : List Char} {c : Char} :
    escape strict cs = .ok (c, rest) ↔ ∃ e, cs = e ++ rest ∧ Escape strict c e := by
  constructor
  · intro h
    unfold escape at h
    split at h
    · cases h
    · split at h
      · next hu =>
        subst hu
        cases strict with
        | false =>
          obtain ⟨ds, n, rfl, hds, rfl⟩ := numbered_lax_eq_ok_iff.1 h
          exact ⟨_, rfl, .any hds⟩
        | true =>
          obtain ⟨e, rfl, he⟩ := numbered_strict_eq_ok_iff.1 h
          exact ⟨_, rfl, he⟩
      · split at h
        · next hl =>
          cases h
          exact ⟨_, rfl, .letter (lettered?_eq_some_iff.1 hl)⟩
        · cases h
  · rintro ⟨e, rfl, he⟩
    cases he with
    | letter hl =>
      simp only [List.cons_append, List.nil_append, escape, if_neg (ne_of_mem_letters hl),
        lettered?_eq_some_iff.2 hl]
    | number hds =>
      rw [List.cons_append, escape, if_pos rfl]
      exact numbered_strict_eq_ok_iff.2 ⟨_, rfl, .number hds⟩
    | pair hds hes hhigh hlow hc =>
      rw [List.cons_append, escape, if_pos rfl]
      exact numbered_strict_eq_ok_iff.2 ⟨_, rfl, .pair hds hes hhigh hlow hc⟩
    | any hds =>
      rw [List.cons_append, escape, if_pos rfl]
      exact numbered_lax_eq_ok_iff.2 ⟨_, _, rfl, hds, rfl⟩

/-! ## Strings -/

/-- What is read up to the closing quote, behind what was read before. -/
lemma exists_spells_of_stringBody {strict : Bool} {before cs s rest : List Char}
    (h : stringBody strict before cs = .ok (s, rest)) :
    ∃ text body, s = before.reverse ++ text ∧ cs = body ++ '"' :: rest
      ∧ Spells strict text body := by
  fun_induction stringBody strict before cs with
  | case1 => cases h
  | case2 before cs =>
    cases h
    exact ⟨[], [], (List.append_nil _).symm, rfl, .nil⟩
  | case3 => cases h
  | case4 before cs d r he _ ih =>
    obtain ⟨text, body, rfl, rfl, hspells⟩ := ih h
    obtain ⟨e, rfl, hescape⟩ := escape_eq_ok_iff.1 he
    refine ⟨d :: text, '\\' :: (e ++ body), ?_, ?_, .escaped hescape hspells⟩
    · simp
    · simp
  | case5 => cases h
  | case6 before c cs hquote hmark hcontrol ih =>
    obtain ⟨text, body, rfl, rfl, hspells⟩ := ih h
    refine ⟨c :: text, c :: body, ?_, rfl, .plain hquote hmark ?_ hspells⟩
    · simp
    · exact Nat.le_of_not_lt hcontrol

/-- What spells a text is read as that text, up to the closing quote. -/
lemma stringBody_append {strict : Bool} {text body : List Char} (h : Spells strict text body)
    (before rest : List Char) :
    stringBody strict before (body ++ '"' :: rest) = .ok (before.reverse ++ text, rest) := by
  induction h generalizing before with
  | nil =>
    rw [List.nil_append, stringBody, if_pos rfl, List.append_nil]
  | @plain c text body hquote hmark hcontrol _ ih =>
    have hplain : ¬ c.val < 0x20 := Nat.not_lt_of_le hcontrol
    rw [List.cons_append, stringBody, if_neg hquote, if_neg hmark, if_neg hplain, ih]
    simp
  | @escaped c text e body hescape _ ih =>
    have hread : escape strict (e ++ (body ++ '"' :: rest)) = .ok (c, body ++ '"' :: rest) :=
      escape_eq_ok_iff.2 ⟨e, rfl, hescape⟩
    rw [List.cons_append, List.append_assoc, stringBody, if_neg (by decide), if_pos rfl]
    split
    · next hf =>
      rw [hread] at hf
      cases hf
    · next hok =>
      rw [hread] at hok
      cases hok
      rw [ih]
      simp

/-- A reader reads the strings of its grammar, up to their closing quotes. -/
theorem stringLiteral_eq_ok_iff {strict : Bool} {cs s rest : List Char} :
    stringLiteral strict cs = .ok (s, rest) ↔
      ∃ body, cs = body ++ '"' :: rest ∧ Spells strict s body := by
  constructor
  · intro h
    obtain ⟨text, body, rfl, hcs, hspells⟩ := exists_spells_of_stringBody h
    exact ⟨body, hcs, hspells⟩
  · rintro ⟨body, rfl, hspells⟩
    exact stringBody_append hspells [] rest

end Invitation.Json
