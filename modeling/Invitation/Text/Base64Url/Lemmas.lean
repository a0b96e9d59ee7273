import Invitation.Text.Base64Url

/-!
# Laws of the base64 texts

Digits and symbols correspond one to one, and so do the strings of bytes and the canonical digits,
those with no single digit in the last group and no bits to spare in the last digit. The texts
without a fault are the ones that spell canonical digits, so `decode_eq_ok_iff`: reading accepts
exactly what writing produces, and a string of bytes has one text.
-/

namespace Invitation.Base64Url

/-! ## The alphabet -/

/-- The symbol of a digit is read as that digit. -/
theorem sextet?_symbol (x : Sextet) : sextet? (symbol x) = some x := by
  revert x
  decide

/-- A byte that is read as a digit is the symbol of it. -/
theorem symbol_of_sextet? {b : UInt8} {x : Sextet} (h : sextet? b = some x) : symbol x = b := by
  have key : ∀ n : Fin 256,
      (sextet? (UInt8.ofNat n.val)).all (fun y => symbol y == UInt8.ofNat n.val) = true := by
    decide +kernel
  have hb : UInt8.ofNat (⟨b.toNat, b.toNat_lt⟩ : Fin 256).val = b := by simp
  have := key ⟨b.toNat, b.toNat_lt⟩
  rwa [hb, h, Option.all_some, beq_iff_eq] at this

/-- A symbol is a character of one byte. -/
theorem utf8_symbol (x : Sextet) :
    String.utf8EncodeChar (Char.ofNat (symbol x).toNat) = [symbol x] := by
  revert x
  decide

/-- Padding is no symbol. -/
theorem symbol_ne_pad (x : Sextet) : symbol x ≠ pad := by
  revert x
  decide

/-- Digits are written in as many bytes as there are digits, each the symbol of its digit. -/
theorem utf8_symbols (xs : List Sextet) :
    Utf8.encode (String.ofList (xs.map fun x => Char.ofNat (symbol x).toNat)) = xs.map symbol := by
  rw [Utf8.encode_ofList, List.flatMap_map]
  induction xs with
  | nil => rfl
  | cons x xs ih => rw [List.flatMap_cons, ih, utf8_symbol, List.map_cons, List.singleton_append]

/-- A text is written in as many bytes as it has digits. -/
theorem utf8_encode (b : Bytes) : Utf8.encode (encode b) = (digits b).map symbol :=
  utf8_symbols (digits b)

/-- A text has one character for each digit. -/
@[simp] theorem length_encode (b : Bytes) : (encode b).length = (digits b).length := by
  simp [encode]

/-! ## Groups -/

/-- The group of three bytes. -/
theorem group_three (a b c : UInt8) :
    group [a, b, c] = [Fin.ofNat 64 (a.toNat / 4), Fin.ofNat 64 (a.toNat % 4 * 16 + b.toNat / 16),
      Fin.ofNat 64 (b.toNat % 16 * 4 + c.toNat / 64), Fin.ofNat 64 (c.toNat % 64)] := rfl

/-- The group of two bytes. -/
theorem group_two (a b : UInt8) :
    group [a, b] = [Fin.ofNat 64 (a.toNat / 4), Fin.ofNat 64 (a.toNat % 4 * 16 + b.toNat / 16),
      Fin.ofNat 64 (b.toNat % 16 * 4)] := rfl

/-- The group of a single byte. -/
theorem group_one (a : UInt8) :
    group [a] = [Fin.ofNat 64 (a.toNat / 4), Fin.ofNat 64 (a.toNat % 4 * 16)] := rfl

/-- What four digits spell. -/
theorem ungroup_four (w x y z : Sextet) :
    ungroup [w, x, y, z] = [UInt8.ofNat (w.val * 4 + x.val / 16),
      UInt8.ofNat (x.val % 16 * 16 + y.val / 4), UInt8.ofNat (y.val % 4 * 64 + z.val)] := rfl

/-- What three digits spell. -/
theorem ungroup_three (w x y : Sextet) :
    ungroup [w, x, y]
      = [UInt8.ofNat (w.val * 4 + x.val / 16), UInt8.ofNat (x.val % 16 * 16 + y.val / 4)] := rfl

/-- What two digits spell. -/
theorem ungroup_two (w x : Sextet) : ungroup [w, x] = [UInt8.ofNat (w.val * 4 + x.val / 16)] := rfl

/-- Three bytes make a group of digits in front of those of the rest. -/
theorem digits_cons_three (a b c : UInt8) (rest : Bytes) :
    digits (a :: b :: c :: rest) = group [a, b, c] ++ digits rest := by
  rw [digits, pieces_eq_cons (by decide) (by simp)]
  simp [digits]

/-- Two bytes alone make one group. -/
theorem digits_two (a b : UInt8) : digits [a, b] = group [a, b] := by
  simp [digits, pieces_eq_cons (n := 3) (by decide) (l := [a, b]) (by simp)]

/-- A single byte makes one group. -/
theorem digits_one (a : UInt8) : digits [a] = group [a] := by
  simp [digits, pieces_eq_cons (n := 3) (by decide) (l := [a]) (by simp)]

/-- No bytes make no digits. -/
@[simp] theorem digits_nil : digits [] = [] := rfl

/-- Four digits spell what their group does, in front of the bytes of the rest. -/
theorem undigits_cons_four (w x y z : Sextet) (rest : List Sextet) :
    undigits (w :: x :: y :: z :: rest) = ungroup [w, x, y, z] ++ undigits rest := by
  rw [undigits, pieces_eq_cons (by decide) (by simp)]
  simp [undigits]

/-- Three bytes take four digits, and a rest takes as many as its bits need. -/
theorem length_digits : ∀ b : Bytes, (digits b).length = (4 * b.length + 2) / 3
  | [] => rfl
  | [a] => by simp [digits_one, group_one]
  | [a, b] => by simp [digits_two, group_two]
  | a :: b :: c :: rest => by
    rw [digits_cons_three, List.length_append, length_digits rest]
    simp only [group_three, List.length_cons, List.length_nil]
    omega

/-- The group of three bytes spells them. -/
theorem ungroup_group_three (a b c : UInt8) : ungroup (group [a, b, c]) = [a, b, c] := by
  have ha := a.toNat_lt
  have hb := b.toNat_lt
  have hc := c.toNat_lt
  simp only [group_three, ungroup_four, Fin.val_ofNat, List.cons.injEq, and_true]
  refine ⟨?_, ?_, ?_⟩ <;> apply UInt8.toNat_inj.1 <;> rw [UInt8.toNat_ofNat'] <;> omega

/-- The group of two bytes spells them. -/
theorem ungroup_group_two (a b : UInt8) : ungroup (group [a, b]) = [a, b] := by
  have ha := a.toNat_lt
  have hb := b.toNat_lt
  simp only [group_two, ungroup_three, Fin.val_ofNat, List.cons.injEq, and_true]
  refine ⟨?_, ?_⟩ <;> apply UInt8.toNat_inj.1 <;> rw [UInt8.toNat_ofNat'] <;> omega

/-- The group of a single byte spells it. -/
theorem ungroup_group_one (a : UInt8) : ungroup (group [a]) = [a] := by
  have ha := a.toNat_lt
  simp only [group_one, ungroup_two, Fin.val_ofNat, List.cons.injEq, and_true]
  apply UInt8.toNat_inj.1
  rw [UInt8.toNat_ofNat']
  omega

/-- Four digits or fewer are one group. -/
theorem undigits_short {xs : List Sextet} (h₁ : xs ≠ []) (h₂ : xs.length ≤ 4) :
    undigits xs = ungroup xs := by
  rw [undigits, pieces_eq_cons (by decide) h₁, List.take_of_length_le h₂, List.drop_of_length_le h₂]
  simp

/-- The digits of a string spell that string. -/
theorem undigits_digits : ∀ b : Bytes, undigits (digits b) = b
  | [] => rfl
  | [a] => by
    rw [digits_one, undigits_short (by simp [group_one]) (by simp [group_one]), ungroup_group_one]
  | [a, b] => by
    rw [digits_two, undigits_short (by simp [group_two]) (by simp [group_two]), ungroup_group_two]
  | a :: b :: c :: rest => by
    have hgroup := ungroup_group_three a b c
    rw [group_three] at hgroup
    rw [digits_cons_three, group_three, List.cons_append, List.cons_append, List.cons_append,
      List.cons_append, List.nil_append, undigits_cons_four, hgroup, undigits_digits rest]
    rfl

/-- Four digits are the group of what they spell. -/
theorem group_ungroup_four (w x y z : Sextet) : group (ungroup [w, x, y, z]) = [w, x, y, z] := by
  have hw := w.isLt
  have hx := x.isLt
  have hy := y.isLt
  have hz := z.isLt
  simp only [group_three, ungroup_four, UInt8.toNat_ofNat', List.cons.injEq, and_true]
  refine ⟨?_, ?_, ?_, ?_⟩ <;> apply Fin.ext <;> rw [Fin.val_ofNat] <;> omega

/-- Three digits are the group of what they spell, if the last one has no bits to spare. -/
theorem group_ungroup_three {w x y : Sextet} (h : y.val % 4 = 0) :
    group (ungroup [w, x, y]) = [w, x, y] := by
  have hw := w.isLt
  have hx := x.isLt
  have hy := y.isLt
  simp only [group_two, ungroup_three, UInt8.toNat_ofNat', List.cons.injEq, and_true]
  refine ⟨?_, ?_, ?_⟩ <;> apply Fin.ext <;> rw [Fin.val_ofNat] <;> omega

/-- Two digits are the group of what they spell, if the last one has no bits to spare. -/
theorem group_ungroup_two {w x : Sextet} (h : x.val % 16 = 0) :
    group (ungroup [w, x]) = [w, x] := by
  have hw := w.isLt
  have hx := x.isLt
  simp only [group_one, ungroup_two, UInt8.toNat_ofNat', List.cons.injEq, and_true]
  refine ⟨?_, ?_⟩ <;> apply Fin.ext <;> rw [Fin.val_ofNat] <;> omega

/-- Digits that spell whole bytes and nothing more: the last group is no single digit, and the last
digit has no bits to spare. -/
def Canonical (xs : List Sextet) : Prop :=
  xs.length % 4 ≠ 1 ∧ ∀ x ∈ xs.getLast?, spare xs.length x = 0

/-- Whole groups do not change how many bits the last digit has to spare. -/
theorem spare_add_four (n : Nat) (x : Sextet) : spare (n + 4) x = spare n x := by
  simp [spare]

/-- Canonical digits are the digits of the string they spell. -/
theorem digits_undigits : ∀ {xs : List Sextet}, Canonical xs → digits (undigits xs) = xs
  | [], _ => rfl
  | [x], h => absurd rfl h.1
  | [w, x], h => by
    have hx : x.val % 16 = 0 := by simpa [spare] using h.2 x (by simp)
    rw [undigits_short (by simp) (by simp)]
    exact (digits_one _).trans (group_ungroup_two hx)
  | [w, x, y], h => by
    have hy : y.val % 4 = 0 := by simpa [spare] using h.2 y (by simp)
    rw [undigits_short (by simp) (by simp)]
    exact (digits_two _ _).trans (group_ungroup_three hy)
  | w :: x :: y :: z :: rest, h => by
    have hrest : Canonical rest := by
      refine ⟨by have := h.1; simp at this; omega, ?_⟩
      intro v hv
      have hne : rest ≠ [] := by
        rintro rfl
        cases hv
      have := h.2 v (by
        rw [List.getLast?_cons_cons, List.getLast?_cons_cons, List.getLast?_cons_cons,
          List.getLast?_cons_of_ne_nil hne]
        exact hv)
      rwa [List.length_cons, List.length_cons, List.length_cons, List.length_cons,
        spare_add_four] at this
    rw [undigits_cons_four]
    refine (digits_cons_three _ _ _ (undigits rest)).trans ?_
    rw [digits_undigits hrest]
    exact congrArg (· ++ rest) (group_ungroup_four w x y z)

/-- The digits of a string are canonical. -/
theorem canonical_digits : ∀ b : Bytes, Canonical (digits b)
  | [] => by simp [Canonical]
  | [a] => by
    have ha := a.toNat_lt
    rw [digits_one]
    simp [Canonical, group_one, spare]
  | [a, b] => by
    have hb := b.toNat_lt
    rw [digits_two]
    simp [Canonical, group_two, spare]
  | a :: b :: c :: rest => by
    have ih := canonical_digits rest
    rw [digits_cons_three]
    refine ⟨?_, ?_⟩
    · have := ih.1
      simp [group_three]
      omega
    · intro x hx
      by_cases hr : digits rest = []
      · rw [hr] at hx ⊢
        simp [group_three, spare]
      · have hlast : x ∈ (digits rest).getLast? := by
          rw [List.getLast?_append, List.getLast?_eq_some_getLast hr, Option.some_or] at hx
          rwa [List.getLast?_eq_some_getLast hr]
        rw [List.length_append, Nat.add_comm]
        exact (spare_add_four _ x).trans (ih.2 x hlast)

/-! ## Faults -/

/-- There is no fault exactly where its condition fails. -/
theorem faultIf_eq_none_iff {p : Prop} [Decidable p] {f : Fault} : faultIf p f = none ↔ ¬p := by
  by_cases h : p <;> simp [faultIf, h]

/-- The first of two faults is none exactly if both are. -/
theorem orElse_eq_none_iff {a b : Option Fault} : (a <|> b) = none ↔ a = none ∧ b = none := by
  cases a <;> simp

/-- No byte is foreign exactly if each is a symbol. -/
theorem foreign?_eq_none_iff {offset : Nat} {b : Bytes} :
    foreign? offset b = none ↔ ∀ x ∈ b, sextet? x ≠ none := by
  induction b generalizing offset with
  | nil => simp [foreign?]
  | cons y b ih => by_cases h : sextet? y = none <;> simp [foreign?, h, ih]

/-- Symbols are read as their digits, and none of them is skipped. -/
theorem filterMap_sextet? (xs : List Sextet) : (xs.map symbol).filterMap sextet? = xs := by
  induction xs with
  | nil => rfl
  | cons x xs ih => simp [sextet?_symbol, ih]

/-- Bytes that are all symbols are the symbols of digits. -/
theorem exists_symbols {b : Bytes} (h : ∀ x ∈ b, sextet? x ≠ none) :
    ∃ xs : List Sextet, b = xs.map symbol := by
  induction b with
  | nil => exact ⟨[], rfl⟩
  | cons y b ih =>
    obtain ⟨xs, rfl⟩ := ih fun x hx => h x (List.mem_cons_of_mem _ hx)
    obtain ⟨x, hx⟩ := Option.ne_none_iff_exists'.1 (h y List.mem_cons_self)
    exact ⟨x :: xs, by rw [List.map_cons, symbol_of_sextet? hx]⟩

/-- What stands among symbols is a symbol. -/
theorem sextet?_ne_none_of_mem {xs : List Sextet} {b : UInt8} (h : b ∈ xs.map symbol) :
    sextet? b ≠ none := by
  obtain ⟨x, -, rfl⟩ := List.mem_map.1 h
  simp [sextet?_symbol]

/-- No symbol is a fault where it stands alone in the last group. -/
theorem loneByte?_symbols (xs : List Sextet) : loneByte? (xs.map symbol) = none := by
  unfold loneByte?
  split
  · next b hb =>
    rw [faultIf_eq_none_iff]
    exact fun h => sextet?_ne_none_of_mem (List.mem_of_getLast? hb) h.2.2
  · rfl

/-- The last symbol is faultless exactly if its digit has no bits to spare. -/
theorem lastSymbol?_symbols {start : Nat} {xs : List Sextet} :
    lastSymbol? start (xs.map symbol) = none ↔ ∀ x ∈ xs.getLast?, spare xs.length x = 0 := by
  rw [lastSymbol?, List.getLast?_map]
  cases xs.getLast? with
  | none => simp
  | some x => simp [faultIf_eq_none_iff, sextet?_symbol]

/-- Symbols hold no padding to stop at. -/
theorem takeWhile_symbols (xs : List Sextet) :
    (xs.map symbol).takeWhile (· ≠ pad) = xs.map symbol := by
  induction xs with
  | nil => rfl
  | cons x xs ih => simp_all [symbol_ne_pad]

/-- Nothing is left of symbols where padding would begin. -/
theorem dropWhile_symbols (xs : List Sextet) : (xs.map symbol).dropWhile (· ≠ pad) = [] := by
  induction xs with
  | nil => rfl
  | cons x xs ih => simp_all [symbol_ne_pad]

/-- A last group without a fault consists of two symbols or more, if of any, and its last one has no
bits to spare. -/
theorem tailFault?_eq_none_iff {start : Nat} {tail : Bytes} :
    tailFault? start tail = none ↔ ∃ xs : List Sextet, tail = xs.map symbol
      ∧ xs.length ≠ 1 ∧ ∀ x ∈ xs.getLast?, spare xs.length x = 0 := by
  simp only [tailFault?, orElse_eq_none_iff, faultIf_eq_none_iff]
  constructor
  · rintro ⟨hforeign, -, hlength, hpad, hlast⟩
    have hnil : tail.dropWhile (· ≠ pad) = [] := Classical.byContradiction hpad
    have htail : tail.takeWhile (· ≠ pad) = tail := by
      have := List.takeWhile_append_dropWhile (p := (· ≠ pad)) (l := tail)
      rwa [hnil, List.append_nil] at this
    rw [htail] at hforeign hlength hlast
    obtain ⟨xs, rfl⟩ := exists_symbols (foreign?_eq_none_iff.1 hforeign)
    refine ⟨xs, rfl, ?_, lastSymbol?_symbols.1 hlast⟩
    intro hone
    refine hlength ⟨?_, ?_⟩
    · intro h
      simp [List.map_eq_nil_iff.1 h] at hone
    · simp [hone]
  · rintro ⟨xs, rfl, hone, hlast⟩
    rw [takeWhile_symbols, dropWhile_symbols]
    refine ⟨foreign?_eq_none_iff.2 fun b hb => sextet?_ne_none_of_mem hb, by simp, ?_, by simp,
      lastSymbol?_symbols.2 hlast⟩
    rintro ⟨hne, hlt⟩
    have : xs ≠ [] := by simpa using hne
    have := List.length_pos_iff.2 this
    simp only [List.length_map] at hlt
    omega

/-- Digits in whole groups before the last ones do not change the bits to spare. -/
theorem spare_length_append {xs ys : List Sextet} (h : xs.length % 4 = 0) (x : Sextet) :
    spare (xs ++ ys).length x = spare ys.length x := by
  simp only [spare, List.length_append, Nat.add_mod, h, Nat.zero_add, Nat.mod_mod]

/-- The last group begins within the text. -/
theorem lastGroup_le (n : Nat) : lastGroup n ≤ n := Nat.sub_le _ _

/-- The last group begins behind whole groups. -/
theorem lastGroup_mod (n : Nat) : lastGroup n % 4 = 0 := by
  unfold lastGroup
  split <;> omega

/-- The last group leaves the same rest by four as the text. -/
theorem sub_lastGroup_mod (n : Nat) : (n - lastGroup n) % 4 = n % 4 := by
  unfold lastGroup
  split <;> omega

/-- The last group has four symbols at most. -/
theorem sub_lastGroup_lt (n : Nat) : n - lastGroup n < 5 := by
  unfold lastGroup
  split <;> omega

/-- The texts without a fault are those that spell digits canonically. -/
theorem fault?_eq_none_iff {b : Bytes} :
    fault? b = none ↔ ∃ xs : List Sextet, b = xs.map symbol ∧ Canonical xs := by
  simp only [fault?, orElse_eq_none_iff, foreign?_eq_none_iff, tailFault?_eq_none_iff]
  have hle := lastGroup_le b.length
  have hmod := lastGroup_mod b.length
  have hsub := sub_lastGroup_mod b.length
  have hlt := sub_lastGroup_lt b.length
  constructor
  · rintro ⟨-, hfront, ys, hys, hone, hlast⟩
    obtain ⟨xs, hxs⟩ := exists_symbols hfront
    have hb : b = (xs ++ ys).map symbol := by
      rw [List.map_append, ← hxs, ← hys, List.take_append_drop]
    have hlx : xs.length % 4 = 0 := by
      have := congrArg List.length hxs
      rw [List.length_take, List.length_map, Nat.min_eq_left hle] at this
      rw [← this]
      exact hmod
    have hly : ys.length = b.length - lastGroup b.length := by
      have := congrArg List.length hys
      rw [List.length_drop, List.length_map] at this
      exact this.symm
    refine ⟨xs ++ ys, hb, ?_, ?_⟩
    · rw [List.length_append, Nat.add_mod, hlx, Nat.zero_add, Nat.mod_mod, hly, hsub]
      omega
    · intro x hx
      rw [spare_length_append hlx]
      by_cases hy : ys = []
      · simp [hy, spare]
      · refine hlast x ?_
        rw [List.getLast?_append, List.getLast?_eq_some_getLast hy, Option.some_or] at hx
        rwa [List.getLast?_eq_some_getLast hy]
  · rintro ⟨xs, rfl, hcanonical⟩
    simp only [List.length_map] at hle hmod hsub hlt ⊢
    refine ⟨loneByte?_symbols xs, ?_, xs.drop (lastGroup xs.length), List.map_drop.symm, ?_, ?_⟩
    · intro b hb
      exact sextet?_ne_none_of_mem (List.mem_of_mem_take hb)
    · have := hcanonical.1
      rw [List.length_drop]
      omega
    · intro x hx
      have hsplit := List.take_append_drop (lastGroup xs.length) xs
      have hlen : (xs.take (lastGroup xs.length)).length % 4 = 0 := by
        rw [List.length_take, Nat.min_eq_left hle]
        exact hmod
      have hxs : x ∈ xs.getLast? := by
        rw [← hsplit, List.getLast?_append]
        rw [Option.mem_def] at hx ⊢
        rw [hx, Option.some_or]
      have := hcanonical.2 x hxs
      rw [← hsplit, spare_length_append hlen] at this
      exact this

/-! ## Reading and writing -/

/-- Reading accepts exactly what writing produces, so a string of bytes has one text. -/
theorem decode_eq_ok_iff {s : String} {b : Bytes} : decode s = .ok b ↔ s = encode b := by
  unfold decode
  constructor
  · intro h
    split at h
    · cases h
    · next hf =>
      obtain ⟨xs, hxs, hcanonical⟩ := fault?_eq_none_iff.1 hf
      rw [hxs, filterMap_sextet?] at h
      have hb : undigits xs = b := Except.ok.inj h
      apply Utf8.encode_injective
      rw [utf8_encode, ← hb, digits_undigits hcanonical, hxs]
  · rintro rfl
    have hf : fault? (Utf8.encode (encode b)) = none :=
      fault?_eq_none_iff.2 ⟨digits b, utf8_encode b, canonical_digits b⟩
    simp only [hf]
    rw [utf8_encode, filterMap_sextet?]
    exact congrArg Except.ok (undigits_digits b)

/-- Different strings of bytes have different texts. -/
theorem encode_injective {a b : Bytes} (h : encode a = encode b) : a = b := by
  have ha : decode (encode b) = .ok a := decode_eq_ok_iff.2 h.symm
  have hb : decode (encode b) = .ok b := decode_eq_ok_iff.2 rfl
  exact Except.ok.inj (ha.symm.trans hb)

end Invitation.Base64Url
