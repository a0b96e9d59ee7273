import Invitation.Text.Cut
import Mathlib.Algebra.GroupWithZero.Nat
import Mathlib.Data.List.Infix

/-!
# The longest beginning that fits

`LongestFit max s t` says in terms of bytes what it means to cut the text `s` to `max` bytes: the
UTF-8 form of `t` is a beginning of that of `s`, it has at most `max` bytes, and no other text whose
form begins that of `s` has more of them.  As `t` is a text, it ends where a character of `s` ends.
A cut is the longest fit (`longestFit_cut`), and there is only one (`LongestFit.eq_cut`).

`Text.cut` counts characters against a budget of bytes.  The proofs run along that count: the
characters that are counted take no more than the budget, and every beginning that takes no more
than the budget has no more characters than are counted.
-/

namespace Invitation.Text

/-- What is left of a text `s` if it is cut to `max` bytes where a character ends. -/
structure LongestFit (max : Nat) (s t : String) : Prop where
  begins : Utf8.encode t <+: Utf8.encode s
  fits : (Utf8.encode t).length ≤ max
  longest : ∀ u : String, Utf8.encode u <+: Utf8.encode s → (Utf8.encode u).length ≤ max →
    (Utf8.encode u).length ≤ (Utf8.encode t).length

/-! ## Beginnings of texts -/

/-- The UTF-8 form of characters is as long as their forms together. -/
lemma length_encode_ofList (cs : List Char) :
    (Utf8.encode (String.ofList cs)).length = (cs.map Char.utf8Size).sum := by
  rw [Utf8.encode_ofList, List.length_flatMap]
  simp only [String.length_utf8EncodeChar]

/-- The form of a text is as long as the forms of its characters together. -/
lemma length_encode_eq_sum (s : String) :
    (Utf8.encode s).length = (s.toList.map Char.utf8Size).sum := by
  rw [← length_encode_ofList, String.ofList_toList]

/-- One text begins another exactly if its UTF-8 form begins that of the other. -/
lemma encode_begins_iff {s t : String} :
    Utf8.encode t <+: Utf8.encode s ↔ t.toList <+: s.toList := by
  constructor
  · rintro ⟨rest, h⟩
    apply List.isPrefix_of_utf8Encode_append_eq_utf8Encode rest.toByteArray
    rw [String.utf8Encode_toList, String.utf8Encode_toList, ← Utf8.toByteArray_encode,
      ← Utf8.toByteArray_encode, ← h]
    apply ByteArray.ext
    simp
  · rintro ⟨rest, h⟩
    refine ⟨Utf8.encode (String.ofList rest), ?_⟩
    rw [← String.ofList_toList (s := t), ← String.ofList_toList (s := s), ← h]
    simp only [Utf8.encode_ofList, List.flatMap_append]

/-! ## The count of characters that fit -/

/-- The characters that came before are added to the count and do not change it. -/
lemma fitting_eq_add (budget n : Nat) (cs : List Char) :
    fitting budget n cs = n + fitting budget 0 cs := by
  induction cs generalizing budget n with
  | nil => rfl
  | cons c cs ih =>
    rw [fitting, fitting]
    split
    · rw [ih _ (n + 1), ih _ (0 + 1)]
      omega
    · rfl

/-- The characters that are counted take no more than the budget. -/
lemma sum_take_fitting_le (budget : Nat) (cs : List Char) :
    ((cs.take (fitting budget 0 cs)).map Char.utf8Size).sum ≤ budget := by
  induction cs generalizing budget with
  | nil => simp
  | cons c cs ih =>
    rw [fitting, fitting_eq_add]
    split
    · next hc =>
      have := ih (budget - c.utf8Size)
      rw [Nat.zero_add, Nat.add_comm, List.take_succ_cons, List.map_cons, List.sum_cons]
      omega
    · exact Nat.zero_le _

/-- A beginning that takes no more than the budget has no more characters than are counted. -/
lemma length_le_fitting {budget : Nat} {cs ds : List Char} (h : ds <+: cs)
    (hsum : (ds.map Char.utf8Size).sum ≤ budget) : ds.length ≤ fitting budget 0 cs := by
  induction cs generalizing budget ds with
  | nil => simp [List.prefix_nil.1 h]
  | cons c cs ih =>
    rcases ds with _ | ⟨d, ds⟩
    · exact Nat.zero_le _
    · obtain ⟨rfl, hds⟩ := List.cons_prefix_cons.1 h
      rw [List.map_cons, List.sum_cons] at hsum
      have hrest : (ds.map Char.utf8Size).sum ≤ budget - d.utf8Size := by omega
      have := ih hds hrest
      rw [fitting, fitting_eq_add, if_pos (by omega), List.length_cons]
      omega

/-! ## Cutting -/

/-- Cutting a text leaves its longest beginning that fits. -/
theorem longestFit_cut (max : Nat) (s : String) : LongestFit max s (cut max s) := by
  have hcut : (cut max s).toList = s.toList.take (fitting max 0 s.toList) := String.toList_ofList
  refine ⟨?_, ?_, ?_⟩
  · rw [encode_begins_iff, hcut]
    exact List.take_prefix _ _
  · rw [length_encode_eq_sum, hcut]
    exact sum_take_fitting_le max s.toList
  · intro u hu hmax
    rw [encode_begins_iff] at hu
    have hlen : u.toList.length ≤ fitting max 0 s.toList :=
      length_le_fitting hu (by rwa [← length_encode_eq_sum])
    have hucut : Utf8.encode u <+: Utf8.encode (cut max s) := by
      rw [encode_begins_iff, hcut]
      exact List.prefix_take_iff.2 ⟨hu, hlen⟩
    exact hucut.length_le

/-- There is only one longest beginning that fits. -/
theorem LongestFit.eq_cut {max : Nat} {s t : String} (h : LongestFit max s t) :
    t = cut max s := by
  have hc := longestFit_cut max s
  have hlen : (Utf8.encode t).length = (Utf8.encode (cut max s)).length :=
    Nat.le_antisymm (hc.longest t h.begins h.fits) (h.longest _ hc.begins hc.fits)
  apply Utf8.encode_injective
  exact (List.prefix_of_prefix_length_le h.begins hc.begins hlen.le).eq_of_length hlen

/-- What is left after a cut fits. -/
lemma length_encode_cut_le (max : Nat) (s : String) : (Utf8.encode (cut max s)).length ≤ max :=
  (longestFit_cut max s).fits

/-- A text that fits is left as it is. -/
lemma cut_eq_self {max : Nat} {s : String} (h : (Utf8.encode s).length ≤ max) : cut max s = s := by
  have hs : LongestFit max s s := ⟨List.prefix_rfl, h, fun u hu _ => hu.length_le⟩
  exact hs.eq_cut.symm

end Invitation.Text
