import Invitation.Text.Base64Url.Lemmas
import Mathlib.Tactic.Lemma

/-!
# The form of base64 texts

Whether a text is base64 can be told by its looks, without reading it.  `Regular` lists what it
takes: all bytes are in the alphabet, no symbol stands alone behind whole groups of four, and where
the last group is not whole, those bits of its last symbol are zero that reach no byte.  The texts
that are read are exactly the regular ones (`decode_isOk_iff_regular`), and the length of a text
tells the length of what it spells (`length_of_decode`).
-/

namespace Invitation.Base64Url

/-! ## Symbols by their place -/

/-- The characters that bytes are spelled with, in the order of the digits they stand for. -/
def alphabet : List Char :=
  "ABCDEFGHIJKLMNOPQRSTUVWXYZabcdefghijklmnopqrstuvwxyz0123456789-_".toList

/-- The alphabet is the symbols of the digits in their order. -/
lemma alphabet_eq_map_symbol :
    alphabet = (List.finRange 64).map fun x => Char.ofNat (symbol x).toNat := by
  decide

/-- A base64 text has no characters but those of the alphabet. -/
lemma mem_alphabet {b : Bytes} {c : Char} (h : c ∈ (encode b).toList) : c ∈ alphabet := by
  rw [encode, String.toList_ofList] at h
  obtain ⟨x, -, rfl⟩ := List.mem_map.1 h
  rw [alphabet_eq_map_symbol]
  exact List.mem_map_of_mem (List.mem_finRange x)

/-- A byte stands for the number of its place in the alphabet. -/
def StandsFor (b : UInt8) (n : Nat) : Prop :=
  (Utf8.encode (String.ofList alphabet))[n]? = some b

/-- The bytes that stand for numbers are the symbols of the digits. -/
lemma standsFor_iff {b : UInt8} {n : Nat} :
    StandsFor b n ↔ ∃ x : Sextet, symbol x = b ∧ x.val = n := by
  rw [StandsFor, alphabet_eq_map_symbol, utf8_symbols, List.getElem?_map, Option.map_eq_some_iff]
  constructor
  · rintro ⟨x, hx, rfl⟩
    obtain ⟨hlt, rfl⟩ := List.getElem?_eq_some_iff.1 hx
    exact ⟨_, rfl, by simp⟩
  · rintro ⟨x, rfl, rfl⟩
    refine ⟨x, ?_, rfl⟩
    rw [List.getElem?_eq_some_iff]
    exact ⟨by simp, by simp⟩

/-- The symbol of a digit stands for that digit alone. -/
lemma standsFor_symbol_iff {x : Sextet} {n : Nat} : StandsFor (symbol x) n ↔ x.val = n := by
  rw [standsFor_iff]
  constructor
  · rintro ⟨y, hy, rfl⟩
    rw [Option.some.inj ((sextet?_symbol y).symm.trans (hy ▸ sextet?_symbol x))]
  · intro hn
    exact ⟨x, rfl, hn⟩

/-! ## Regular texts -/

/-- What a text looks like that is base64. -/
structure Regular (text : String) : Prop where
  /-- Every byte stands for a number. -/
  symbols : ∀ b ∈ Utf8.encode text, ∃ n, StandsFor b n
  /-- No symbol is left alone behind groups of four. -/
  groups : (Utf8.encode text).length % 4 ≠ 1
  /-- The second of two symbols behind such groups has four bits that reach no byte. -/
  two : (Utf8.encode text).length % 4 = 2 →
    ∀ b ∈ (Utf8.encode text).getLast?, ∀ n, StandsFor b n → n % 16 = 0
  /-- The third of three has two. -/
  three : (Utf8.encode text).length % 4 = 3 →
    ∀ b ∈ (Utf8.encode text).getLast?, ∀ n, StandsFor b n → n % 4 = 0

/-- What the last symbol stands for is the last digit. -/
lemma forall_last_standsFor_iff {xs : List Sextet} {p : Nat → Prop} :
    (∀ b ∈ (xs.map symbol).getLast?, ∀ n, StandsFor b n → p n) ↔ ∀ x ∈ xs.getLast?, p x.val := by
  rw [List.getLast?_map]
  cases xs.getLast? with
  | none => simp
  | some x => simp [standsFor_symbol_iff]

/-- What it takes for the bits of a last digit to be zero that reach no byte. -/
lemma spare_eq_zero_iff {n : Nat} {x : Sextet} :
    spare n x = 0 ↔ (n % 4 = 2 → x.val % 16 = 0) ∧ (n % 4 = 3 → x.val % 4 = 0) := by
  unfold spare
  split
  · omega
  · split <;> omega

/-- Regular texts spell digits canonically. -/
lemma regular_iff_canonical {text : String} :
    Regular text ↔ ∃ xs : List Sextet, Utf8.encode text = xs.map symbol ∧ Canonical xs := by
  constructor
  · rintro ⟨hsymbols, hgroups, htwo, hthree⟩
    have hdigits : ∀ b ∈ Utf8.encode text, sextet? b ≠ none := by
      intro b hb
      obtain ⟨n, hn⟩ := hsymbols b hb
      obtain ⟨x, rfl, -⟩ := standsFor_iff.1 hn
      simp [sextet?_symbol]
    obtain ⟨xs, hxs⟩ := exists_symbols hdigits
    simp only [hxs, forall_last_standsFor_iff, List.length_map] at hgroups htwo hthree
    refine ⟨xs, hxs, hgroups, ?_⟩
    intro x hx
    exact spare_eq_zero_iff.2 ⟨fun h => htwo h x hx, fun h => hthree h x hx⟩
  · rintro ⟨xs, hxs, hgroups, hlast⟩
    refine ⟨?_, ?_, ?_, ?_⟩
    · intro b hb
      rw [hxs] at hb
      obtain ⟨x, -, rfl⟩ := List.mem_map.1 hb
      exact ⟨x.val, standsFor_symbol_iff.2 rfl⟩
    · rwa [hxs, List.length_map]
    · rw [hxs, forall_last_standsFor_iff, List.length_map]
      intro h x hx
      exact (spare_eq_zero_iff.1 (hlast x hx)).1 h
    · rw [hxs, forall_last_standsFor_iff, List.length_map]
      intro h x hx
      exact (spare_eq_zero_iff.1 (hlast x hx)).2 h

/-- The texts that are read are the regular ones. -/
lemma decode_isOk_iff_regular {text : String} :
    (∃ b, decode text = .ok b) ↔ Regular text := by
  rw [regular_iff_canonical, ← fault?_eq_none_iff, decode]
  cases fault? (Utf8.encode text) <;> simp

/-- The length of a text tells the length of what it spells. -/
lemma length_of_decode {text : String} {b : Bytes} (h : decode text = .ok b) :
    (Utf8.encode text).length = (4 * b.length + 2) / 3 := by
  rw [decode_eq_ok_iff.1 h, utf8_encode, List.length_map, length_digits]

end Invitation.Base64Url
