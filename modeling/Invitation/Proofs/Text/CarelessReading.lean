import Invitation.Text.Base64Url.Lemmas
import Mathlib.Data.List.Basic
import Mathlib.Tactic.Lemma

/-!
# Base64 texts for a careless reader

A careless reader skips what is no symbol, padding included, drops the bits that reach no byte and
refuses nothing.  In the text of a string of bytes it finds that string (`readCarelessly_encode`),
in the first characters of such a text the bytes that they complete (`readCarelessly_take`), and in
a text that was padded what it found before (`readCarelessly_append_pad`).

It serves to say what two texts have in common that the strict reader tells apart, and what the
beginning of a text gives away.
-/

namespace Invitation.Base64Url

/-- The bytes of a text for a reader who skips what is no symbol and drops what reaches no byte. -/
def readCarelessly (text : String) : Bytes := undigits ((Utf8.encode text).filterMap sextet?)

/-! ## The first digits of a string -/

/-- The first group spells the first bytes, and the others spell the rest. -/
lemma undigits_eq_append (xs : List Sextet) :
    undigits xs = ungroup (xs.take 4) ++ undigits (xs.drop 4) := by
  by_cases h : xs = []
  · rw [h]
    rfl
  · rw [undigits, pieces_eq_cons (by decide) h, List.flatMap_cons, undigits]

/-- A group keeps what it spells when digits are added to it. -/
lemma ungroup_prefix_append : ∀ {g h : List Sextet}, (g ++ h).length ≤ 4 →
    ungroup g <+: ungroup (g ++ h)
  | [], _, _ => List.nil_prefix
  | [_], _, _ => List.nil_prefix
  | [_, _], [], _ => List.prefix_rfl
  | [_, _], [_], _ => ⟨_, rfl⟩
  | [_, _], [_, _], _ => ⟨_, rfl⟩
  | [_, _, _], [], _ => List.prefix_rfl
  | [_, _, _], [_], _ => ⟨_, rfl⟩
  | [_, _, _, _], [], _ => List.prefix_rfl
  | [_, _], _ :: _ :: _ :: _, hlen => by
    simp only [List.length_append, List.length_cons, List.length_nil] at hlen
    omega
  | [_, _, _], _ :: _ :: _, hlen => by
    simp only [List.length_append, List.length_cons, List.length_nil] at hlen
    omega
  | [_, _, _, _], _ :: _, hlen => by
    simp only [List.length_append, List.length_cons, List.length_nil] at hlen
    omega
  | _ :: _ :: _ :: _ :: _ :: _, _, hlen => by
    simp only [List.length_append, List.length_cons] at hlen
    omega

/-- What digits spell is the beginning of what they spell with others behind them. -/
lemma undigits_prefix_append : ∀ xs ys : List Sextet, undigits xs <+: undigits (xs ++ ys)
  | [], _ => List.nil_prefix
  | [_], _ => List.nil_prefix
  -- digits that do not fill a group share it with the first of those behind them
  | [w, x], ys => by
    have hgroup : ungroup [w, x] <+: ungroup ([w, x] ++ ys.take 2) :=
      ungroup_prefix_append (by simp; omega)
    rw [undigits_short (by simp) (by simp), undigits_eq_append ([w, x] ++ ys)]
    exact hgroup.trans (List.prefix_append _ _)
  | [w, x, y], ys => by
    have hgroup : ungroup [w, x, y] <+: ungroup ([w, x, y] ++ ys.take 1) :=
      ungroup_prefix_append (by simp; omega)
    rw [undigits_short (by simp) (by simp), undigits_eq_append ([w, x, y] ++ ys)]
    exact hgroup.trans (List.prefix_append _ _)
  | w :: x :: y :: z :: rest, ys => by
    rw [List.cons_append, List.cons_append, List.cons_append, List.cons_append,
      undigits_cons_four, undigits_cons_four, List.prefix_append_right_inj]
    exact undigits_prefix_append rest ys

/-- Four digits spell three bytes, and of a rest every digit but the first completes one. -/
lemma length_undigits : ∀ xs : List Sextet, (undigits xs).length = xs.length * 3 / 4
  | [] => rfl
  | [_] => by rw [undigits_short (by simp) (by simp)]; simp [ungroup]
  | [_, _] => by rw [undigits_short (by simp) (by simp)]; simp [ungroup]
  | [_, _, _] => by rw [undigits_short (by simp) (by simp)]; simp [ungroup]
  | w :: x :: y :: z :: rest => by
    rw [undigits_cons_four, List.length_append, length_undigits rest]
    simp only [ungroup, List.length_cons, List.length_nil]
    omega

/-- The first digits of a string spell the bytes that they complete. -/
lemma undigits_take_digits {n : Nat} {b : Bytes} (h : n ≤ (digits b).length) :
    undigits ((digits b).take n) = b.take (n * 3 / 4) := by
  have hbegins : undigits ((digits b).take n) <+: b := by
    have := undigits_prefix_append ((digits b).take n) ((digits b).drop n)
    rwa [List.take_append_drop, undigits_digits] at this
  have hlen : (undigits ((digits b).take n)).length = n * 3 / 4 := by
    rw [length_undigits, List.length_take_of_le h]
  rw [List.prefix_iff_eq_take.1 hbegins, hlen]

/-! ## What the careless reader finds -/

/-- In the text of a string the careless reader finds that string. -/
lemma readCarelessly_encode (b : Bytes) : readCarelessly (encode b) = b := by
  rw [readCarelessly, utf8_encode, filterMap_sextet?, undigits_digits]

/-- In the first characters of the text of a string the careless reader finds the bytes that they
complete. -/
lemma readCarelessly_take {n : Nat} {b : Bytes} (h : n ≤ (encode b).length) :
    readCarelessly (String.ofList ((encode b).toList.take n)) = b.take (n * 3 / 4) := by
  rw [length_encode] at h
  have hfirst : String.ofList ((encode b).toList.take n)
      = String.ofList (((digits b).take n).map fun x => Char.ofNat (symbol x).toNat) := by
    rw [encode, String.toList_ofList, List.map_take]
  rw [readCarelessly, hfirst, utf8_symbols, filterMap_sextet?, undigits_take_digits h]

/-- Padding makes no difference to the careless reader. -/
lemma readCarelessly_append_pad (text : String) :
    readCarelessly (text ++ "=") = readCarelessly text := by
  have happend : Utf8.encode (text ++ "=") = Utf8.encode text ++ [pad] := by
    simp only [Utf8.encode, String.toUTF8_eq_toByteArray, String.toByteArray_append]
    rfl
  have hpad : [pad].filterMap sextet? = [] := by decide
  rw [readCarelessly, happend, List.filterMap_append, hpad, List.append_nil, readCarelessly]

end Invitation.Base64Url
