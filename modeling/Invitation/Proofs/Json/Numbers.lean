import Invitation.Proofs.Json.Grammar
import Mathlib.Data.List.Basic
import Mathlib.Data.List.Induction

/-!
# Reading numbers

The reader of numbers takes as many characters as it can, so what it is shown to read here is a
number with something behind it that does not go on with the number (`Delimited`).  With that,
reading gives back the parts that a number was spelled with (`number_append`), and whatever it reads
is spelled that way (`exists_spelled_of_number`).

Natural numbers of 64 bits are read off their digits.  As no leading zero is allowed, each has one
numeral, and a number that is worth `v` is spelled as the numeral of `v` (`eq_numeral`).
-/

namespace Invitation.Json

/-- What does not begin with a digit. -/
def NoDigit (cs : List Char) : Prop := ∀ c ∈ cs.head?, c.isDigit = false

/-- What no number goes on with. -/
def Delimited (cs : List Char) : Prop :=
  ∀ c ∈ cs.head?, c.isDigit = false ∧ c ≠ '.' ∧ c ≠ 'e' ∧ c ≠ 'E'

/-- No number goes on with blanks, a comma or a closing bracket. -/
lemma delimited_append_cons {blanks : List Char} (h : Blanks blanks) {c : Char}
    (hc : c ∈ [',', ']', '}']) (cs : List Char) : Delimited (blanks ++ c :: cs) := by
  have htable : ∀ d ∈ [' ', '\n', '\t', '\r'] ++ [',', ']', '}'],
      d.isDigit = false ∧ d ≠ '.' ∧ d ≠ 'e' ∧ d ≠ 'E' :=
    List.forall_iff_forall_mem.1 (by decide)
  intro d hd
  apply htable
  rw [List.mem_append]
  cases blanks with
  | nil =>
    cases hd
    exact .inr hc
  | cons b blanks =>
    cases hd
    exact .inl (h d List.mem_cons_self)

/-! ## Digits -/

/-- Digits end where the first character stands that is none. -/
lemma takeWhile_digits {ds rest : List Char} (h : ∀ c ∈ ds, c.isDigit = true) (hr : NoDigit rest) :
    (ds ++ rest).takeWhile Char.isDigit = ds ∧ (ds ++ rest).dropWhile Char.isDigit = rest := by
  rw [List.takeWhile_append_of_pos h, List.dropWhile_append_of_pos h]
  cases rest with
  | nil => simp
  | cons c rest =>
    have hc : c.isDigit = false := hr c rfl
    simp [hc]

/-- The reader of digits takes all digits that there are, and at least one. -/
lemma someDigits_eq_ok_iff {cs ds rest : List Char} :
    someDigits cs = .ok (ds, rest) ↔ cs = ds ++ rest ∧ Digits ds ∧ NoDigit rest := by
  constructor
  · intro h
    cases cs with
    | nil => cases h
    | cons c cs =>
      rw [someDigits] at h
      split at h
      · next hc =>
        cases h
        refine ⟨?_, ⟨List.cons_ne_nil _ _, ?_⟩, ?_⟩
        · rw [List.cons_append, List.takeWhile_append_dropWhile]
        · intro d hd
          rcases List.mem_cons.1 hd with rfl | hd
          · exact hc
          · exact List.mem_takeWhile_imp hd
        · intro d hd
          have := List.head?_dropWhile_not Char.isDigit cs
          rw [Option.mem_def] at hd
          rwa [hd] at this
      · cases h
  · rintro ⟨rfl, ⟨hne, hds⟩, hr⟩
    cases ds with
    | nil => exact absurd rfl hne
    | cons c ds =>
      obtain ⟨htake, hdrop⟩ :=
        takeWhile_digits (fun d hd => hds d (List.mem_cons_of_mem _ hd)) hr
      rw [List.cons_append, someDigits, if_pos (hds c List.mem_cons_self), htake, hdrop]

/-- The reader of whole numbers refuses leading zeros. -/
lemma wholeDigits_eq_ok_iff {cs ds rest : List Char} :
    wholeDigits cs = .ok (ds, rest) ↔ cs = ds ++ rest ∧ Whole ds ∧ NoDigit rest := by
  have hzero {ds : List Char} (hne : ds ≠ []) :
      ¬ (ds.head? = some '0' ∧ 1 < ds.length) ↔ (ds.head? = some '0' → ds = ['0']) := by
    cases ds with
    | nil => exact absurd rfl hne
    | cons c ds => cases ds <;> simp
  unfold wholeDigits
  constructor
  · intro h
    split at h
    · cases h
    · next hd =>
      obtain ⟨rfl, hds, hr⟩ := someDigits_eq_ok_iff.1 hd
      split at h
      · cases h
      · next hlead =>
        cases h
        exact ⟨rfl, ⟨hds, (hzero hds.1).1 hlead⟩, hr⟩
  · rintro ⟨rfl, ⟨hds, hlead⟩, hr⟩
    simp only [someDigits_eq_ok_iff.2 ⟨rfl, hds, hr⟩, if_neg ((hzero hds.1).2 hlead)]

/-! ## The parts of a number -/

/-- What is read as digits after a point is a fraction by the grammar. -/
lemma exists_fraction_of_fractionDigits {cs ds rest : List Char}
    (h : fractionDigits cs = .ok (ds, rest)) : ∃ point, cs = point ++ rest ∧ Fraction ds point := by
  unfold fractionDigits at h
  split at h
  · obtain ⟨rfl, hds, -⟩ := someDigits_eq_ok_iff.1 h
    exact ⟨_, rfl, .present hds⟩
  · cases h
    exact ⟨[], rfl, .absent⟩

/-- A fraction is read up to the first character that is neither a digit nor a point. -/
lemma fractionDigits_append {ds point rest : List Char} (h : Fraction ds point)
    (hr : ∀ c ∈ rest.head?, c.isDigit = false ∧ c ≠ '.') :
    fractionDigits (point ++ rest) = .ok (ds, rest) := by
  cases h with
  | absent =>
    rw [List.nil_append]
    unfold fractionDigits
    split
    · exact absurd rfl (hr '.' rfl).2
    · rfl
  | present hds =>
    rw [List.cons_append, fractionDigits]
    exact someDigits_eq_ok_iff.2 ⟨rfl, hds, fun c hc => (hr c hc).1⟩

/-- A minus is taken where one stands, and else nothing is. -/
lemma minus_cases (cs : List Char) :
    (∃ rest, cs = '-' :: rest ∧ minus cs = (true, rest)) ∨ minus cs = (false, cs) := by
  unfold minus
  split
  · exact .inl ⟨_, rfl, rfl⟩
  · exact .inr rfl

/-- A sign of either kind is taken where one stands, and else nothing is. -/
lemma sign_cases (cs : List Char) :
    (∃ rest, cs = '+' :: rest ∧ sign cs = (false, rest))
      ∨ (∃ rest, cs = '-' :: rest ∧ sign cs = (true, rest)) ∨ sign cs = (false, cs) := by
  unfold sign
  split
  · exact .inl ⟨_, rfl, rfl⟩
  · exact .inr (minus_cases _)

/-- Before digits no sign is read. -/
lemma sign_of_digits {ds rest : List Char} (h : Digits ds) :
    sign (ds ++ rest) = (false, ds ++ rest) ∧ minus (ds ++ rest) = (false, ds ++ rest) := by
  cases ds with
  | nil => exact absurd rfl h.1
  | cons c ds =>
    have hc : c.isDigit = true := h.2 c List.mem_cons_self
    have hplus : c ≠ '+' := by
      rintro rfl
      cases hc
    have hminus : c ≠ '-' := by
      rintro rfl
      cases hc
    simp [sign, minus, hplus, hminus]

/-- What is read as an exponent is one by the grammar. -/
lemma exists_exponent_of_exponentDigits {cs rest : List Char} {e : Option (Bool × List Char)}
    (h : exponentDigits cs = .ok (e, rest)) : ∃ mark, cs = mark ++ rest ∧ Exponent e mark := by
  unfold exponentDigits at h
  split at h
  · cases h
    exact ⟨[], rfl, .absent⟩
  · split at h
    · next cs hmark =>
      split at h
      · cases h
      · next hd =>
        cases h
        rcases sign_cases cs with ⟨cs, rfl, hsign⟩ | ⟨cs, rfl, hsign⟩ | hsign
        · rw [hsign] at hd ⊢
          obtain ⟨rfl, hds, -⟩ := someDigits_eq_ok_iff.1 hd
          exact ⟨_, rfl, .plus hmark hds⟩
        · rw [hsign] at hd ⊢
          obtain ⟨rfl, hds, -⟩ := someDigits_eq_ok_iff.1 hd
          exact ⟨_, rfl, .minus hmark hds⟩
        · rw [hsign] at hd ⊢
          obtain ⟨rfl, hds, -⟩ := someDigits_eq_ok_iff.1 hd
          exact ⟨_, rfl, .bare hmark hds⟩
    · cases h
      exact ⟨[], rfl, .absent⟩

/-- An exponent is read up to where the number ends. -/
lemma exponentDigits_append {e : Option (Bool × List Char)} {mark rest : List Char}
    (h : Exponent e mark) (hr : Delimited rest) :
    exponentDigits (mark ++ rest) = .ok (e, rest) := by
  have hdigits {ds : List Char} (hds : Digits ds) : someDigits (ds ++ rest) = .ok (ds, rest) :=
    someDigits_eq_ok_iff.2 ⟨rfl, hds, fun c hc => (hr c hc).1⟩
  cases h with
  | absent =>
    cases rest with
    | nil => rfl
    | cons c rest =>
      obtain ⟨-, -, he, hE⟩ := hr c rfl
      simp [exponentDigits, he, hE]
  | bare hmark hds =>
    simp only [List.cons_append, exponentDigits, if_pos hmark, (sign_of_digits hds).1, hdigits hds]
  | plus hmark hds =>
    simp only [List.cons_append, exponentDigits, if_pos hmark, sign, hdigits hds]
  | @minus _ ds hmark hds =>
    have hsign : sign ('-' :: (ds ++ rest)) = (true, ds ++ rest) := rfl
    simp only [List.cons_append, exponentDigits, if_pos hmark, hsign, hdigits hds]

/-! ## Numbers -/

/-- What follows a fraction is neither a digit nor another point. -/
lemma Exponent.head {e : Option (Bool × List Char)} {mark rest : List Char}
    (h : Exponent e mark) (hr : Delimited rest) :
    ∀ c ∈ (mark ++ rest).head?, c.isDigit = false ∧ c ≠ '.' := by
  have hletter {m : Char} (hm : m = 'e' ∨ m = 'E') : m.isDigit = false ∧ m ≠ '.' := by
    rcases hm with rfl | rfl <;> decide
  intro c hc
  cases h with
  | absent => exact ⟨(hr c hc).1, (hr c hc).2.1⟩
  | bare hmark | plus hmark | minus hmark =>
    cases hc
    exact hletter hmark

/-- What follows whole digits is no digit. -/
lemma Fraction.noDigit {ds point rest : List Char} (h : Fraction ds point) (hr : NoDigit rest) :
    NoDigit (point ++ rest) := by
  cases h with
  | absent => exact hr
  | present =>
    intro c hc
    cases hc
    rfl

/-- What is read as a number is spelled that way. -/
lemma exists_spelled_of_number {cs rest : List Char} {n : Number} (h : number cs = .ok (n, rest)) :
    ∃ text, cs = text ++ rest ∧ n.Spelled text := by
  unfold number at h
  split at h
  · cases h
  · next hw =>
    split at h
    · cases h
    · next hf =>
      split at h
      · cases h
      · next he =>
        cases h
        obtain ⟨hcs, hwhole, -⟩ := wholeDigits_eq_ok_iff.1 hw
        obtain ⟨point, rfl, hfraction⟩ := exists_fraction_of_fractionDigits hf
        obtain ⟨mark, rfl, hexponent⟩ := exists_exponent_of_exponentDigits he
        rcases minus_cases cs with ⟨cs, rfl, hminus⟩ | hminus
        · rw [hminus] at hcs ⊢
          refine ⟨_, ?_, .negative hwhole hfraction hexponent⟩
          rw [List.cons_append, List.append_assoc, List.append_assoc, ← hcs]
        · rw [hminus] at hcs ⊢
          refine ⟨_, ?_, .positive hwhole hfraction hexponent⟩
          rw [List.append_assoc, List.append_assoc, ← hcs]

/-- A number is read as it is spelled, if what follows does not go on with it. -/
lemma number_append {n : Number} {text rest : List Char} (h : n.Spelled text)
    (hr : Delimited rest) : number (text ++ rest) = .ok (n, rest) := by
  have hparts {whole fraction point mark : List Char} {e : Option (Bool × List Char)}
      (hwhole : Whole whole) (hfraction : Fraction fraction point) (hexponent : Exponent e mark) :
      wholeDigits (whole ++ (point ++ (mark ++ rest))) = .ok (whole, point ++ (mark ++ rest))
        ∧ fractionDigits (point ++ (mark ++ rest)) = .ok (fraction, mark ++ rest)
        ∧ exponentDigits (mark ++ rest) = .ok (e, rest) := by
    have hhead := hexponent.head hr
    refine ⟨wholeDigits_eq_ok_iff.2 ⟨rfl, hwhole, ?_⟩, fractionDigits_append hfraction hhead,
      exponentDigits_append hexponent hr⟩
    exact hfraction.noDigit fun c hc => (hhead c hc).1
  cases h with
  | positive hwhole hfraction hexponent =>
    obtain ⟨hw, hf, he⟩ := hparts hwhole hfraction hexponent
    rw [List.append_assoc, List.append_assoc]
    simp only [number, (sign_of_digits hwhole.1).2, hw, hf, he]
  | negative hwhole hfraction hexponent =>
    obtain ⟨hw, hf, he⟩ := hparts hwhole hfraction hexponent
    rw [List.cons_append, List.append_assoc, List.append_assoc]
    simp only [number, minus, hw, hf, he]

/-! ## Numerals -/

/-- A numeral is the list of decimal digits. -/
lemma numeral_eq_toDigits (n : UInt64) : numeral n = Nat.toDigits 10 n.toNat := by
  have h : toString n = toString n.toNat := rfl
  rw [numeral, h, Nat.toString_eq_ofList_toDigits, String.toList_ofList]

/-- Different numbers have different numerals. -/
lemma numeral_injective {m n : UInt64} (h : numeral m = numeral n) : m = n := by
  rw [numeral_eq_toDigits, numeral_eq_toDigits] at h
  apply UInt64.toNat_inj.1
  rw [← Nat.ofDigitChars_ten_toDigits (n := m.toNat), h, Nat.ofDigitChars_ten_toDigits]

/-- The figures of a number do not begin with a zero. -/
lemma head?_toDigits_ne {n : Nat} (h : 0 < n) : (Nat.toDigits 10 n).head? ≠ some '0' := by
  induction n using Nat.strong_induction_on with
  | _ n ih =>
    by_cases hsmall : n < 10
    · rw [Nat.toDigits_of_lt_base hsmall, List.head?_cons, ne_eq, Option.some_inj,
        Nat.digitChar_eq_zero]
      omega
    · rw [Nat.toDigits_of_base_le (by decide) (Nat.le_of_not_lt hsmall),
        List.head?_append_of_ne_nil _ Nat.toDigits_ne_nil]
      exact ih (n / 10) (by omega) (by omega)

/-- A numeral begins with a zero only if it is one. -/
lemma whole_numeral (n : UInt64) : Whole (numeral n) := by
  rw [numeral_eq_toDigits]
  refine ⟨⟨Nat.toDigits_ne_nil, fun c hc => Nat.isDigit_of_mem_toDigits (by decide) (by decide) hc⟩,
    ?_⟩
  intro hzero
  by_cases hn : n.toNat = 0
  · rw [hn, Nat.toDigits_zero]
  · exact absurd hzero (head?_toDigits_ne (Nat.pos_of_ne_zero hn))

/-- A numeral is a number with nothing but whole digits. -/
lemma spelled_numeral (n : UInt64) : Number.Spelled ⟨false, numeral n, [], none⟩ (numeral n) := by
  have h := Number.Spelled.positive (whole_numeral n) .absent .absent
  rwa [List.append_nil, List.append_nil] at h

/-- A decimal digit is the character of its value. -/
lemma digitChar_of_isDigit {c : Char} (h : c.isDigit = true) :
    c.toNat - '0'.toNat < 10 ∧ (c.toNat - '0'.toNat).digitChar = c := by
  have hzero : '0'.toNat = 48 := rfl
  have hrange : 48 ≤ c.toNat ∧ c.toNat ≤ 57 := by
    simpa [Char.isDigit, UInt32.le_iff_toNat_le] using h
  have hlt : c.toNat - '0'.toNat < 10 := by omega
  refine ⟨hlt, Char.toNat_inj.1 ?_⟩
  rw [Nat.toNat_digitChar_of_lt_ten hlt]
  omega

/-- Without leading zeros, digits are the figures of what they are worth. -/
lemma toDigits_ofDigitChars {ds : List Char} (h : Whole ds) :
    Nat.toDigits 10 (Nat.ofDigitChars 10 ds 0) = ds := by
  induction ds using List.reverseRecOn with
  | nil => exact absurd rfl h.1.1
  | append_singleton ds d ih =>
    obtain ⟨⟨-, hds⟩, hzero⟩ := h
    obtain ⟨hlt, hchar⟩ := digitChar_of_isDigit (hds d (by simp))
    rw [Nat.ofDigitChars_append, Nat.ofDigitChars_cons, Nat.ofDigitChars_nil]
    by_cases hnil : ds = []
    · subst hnil
      rw [Nat.ofDigitChars_nil, Nat.mul_zero, Nat.zero_add, Nat.toDigits_of_lt_base hlt, hchar]
      rfl
    · have hlead : ds.head? ≠ some '0' := by
        intro hhead
        have := hzero (by rw [List.head?_append_of_ne_nil _ hnil, hhead])
        exact hnil (List.append_eq_singleton_iff.1 this |>.elim And.left (by simp))
      have hfront := ih ⟨⟨hnil, fun c hc => hds c (by simp [hc])⟩, fun hhead => absurd hhead hlead⟩
      have hpos : 0 < Nat.ofDigitChars 10 ds 0 := by
        by_contra hnot
        rw [Nat.eq_zero_of_not_pos hnot, Nat.toDigits_zero] at hfront
        exact hlead (by rw [← hfront]; rfl)
      rw [← Nat.toDigits_append_toDigits (by decide) hpos hlt, hfront,
        Nat.toDigits_of_lt_base hlt, hchar]

/-! ## Natural numbers of 64 bits -/

/-- Reading digits on never makes the value smaller. -/
lemma le_ofDigitChars (ds : List Char) (v : Nat) : v ≤ Nat.ofDigitChars 10 ds v := by
  rw [Nat.ofDigitChars_eq_ofDigitChars_zero]
  exact Nat.le_add_right_of_le (Nat.le_mul_of_pos_left v (Nat.pow_pos (by decide)))

/-- Digits are added up as long as their number stays below the bound. -/
lemma foldlM_shift? {bound v : Nat} (ds : List Char) (h : v < bound) :
    ds.foldlM (Number.shift? bound) v =
      if Nat.ofDigitChars 10 ds v < bound then some (Nat.ofDigitChars 10 ds v) else none := by
  induction ds generalizing v with
  | nil => simp [h]
  | cons c ds ih =>
    rw [List.foldlM_cons, Nat.ofDigitChars_cons, Number.shift?]
    by_cases hnext : 10 * v + Number.digit c < bound
    · simp only [if_pos hnext]
      exact ih hnext
    · have hlate : ¬ Nat.ofDigitChars 10 ds (10 * v + (c.toNat - '0'.toNat)) < bound :=
        fun hlt => hnext (Nat.lt_of_le_of_lt (le_ofDigitChars ds _) hlt)
      simp only [if_neg hnext, if_neg hlate]
      rfl

/-- A number that is worth `v` is spelled as the numeral of `v`. -/
lemma eq_numeral {n : Number} {text : List Char} {v : UInt64} (h : n.Spelled text)
    (hv : n.toUInt64? = some v) : text = numeral v := by
  unfold Number.toUInt64? at hv
  split at hv
  · next hplain =>
    obtain ⟨hsign, hfraction, hexponent⟩ := hplain
    cases h with
    | positive hwhole hpoint hmark =>
      cases hexponent
      cases hfraction
      cases hmark
      cases hpoint with
      | present hds => exact absurd rfl hds.1
      | absent =>
        rw [foldlM_shift? _ (by decide)] at hv
        split at hv
        · next hfits =>
          cases hv
          rw [numeral_eq_toDigits, UInt64.toNat_ofNat', Nat.mod_eq_of_lt hfits,
            toDigits_ofDigitChars hwhole, List.append_nil, List.append_nil]
        · cases hv
    | negative => cases hsign
  · cases hv

/-- The numeral of `v` is worth `v`. -/
lemma toUInt64?_numeral (v : UInt64) :
    Number.toUInt64? ⟨false, numeral v, [], none⟩ = some v := by
  have hfits : v.toNat < UInt64.size := v.toNat_lt
  rw [Number.toUInt64?, if_pos ⟨rfl, rfl, rfl⟩, foldlM_shift? _ (by decide), numeral_eq_toDigits,
    Nat.ofDigitChars_ten_toDigits, if_pos hfits, Option.map_some, UInt64.ofNat_toNat]

end Invitation.Json
