import Invitation.Proofs.Text.LongestFit

/-!
# Cuts between characters and inside them

A text of characters that take one to four bytes can be cut at a byte offset in two ways.  Either a
character ends there and two texts are left, or the cut lies inside a character (`Splits`); there is
no third way (`splits_or_exists_eq_append`).  In the first case both parts of the form are the forms
of texts.  In the second neither is: what stands before the cut would be a beginning of the text
that ends inside a character (`Splits.take_ne`), and what stands behind it would make a text of what
stands before it (`Utf8.exists_eq_append`).
-/

namespace Invitation

/-! ## Texts end to end -/

namespace Utf8

/-- The form of two texts end to end is the forms of the two. -/
lemma encode_append (s t : String) : encode (s ++ t) = encode s ++ encode t := by
  simp only [encode, String.toUTF8_eq_toByteArray, String.toByteArray_append, ByteArray.data_append,
    Array.toList_append]

/-- The form of two texts end to end begins with the form of the first. -/
lemma encode_prefix_append (s t : String) : encode s <+: encode (s ++ t) := by
  rw [encode_append]
  exact List.prefix_append _ _

/-- What stands before the form of a text in the form of another is the form of a text too. -/
lemma exists_eq_append {b : Bytes} {s t : String} (h : b ++ encode s = encode t) :
    ∃ u : String, b = encode u ∧ t = u ++ s := by
  have hbytes : t.toByteArray.data.toList = b ++ encode s := h.symm
  have hsize : t.utf8ByteSize = b.length + (encode s).length := by
    rw [← length_encode, ← h, List.length_append]
  have hfront : t.toByteArray.extract 0 b.length = b.toByteArray := by
    apply ByteArray.ext
    apply Array.toList_inj.1
    simp [hbytes]
  have hback : t.toByteArray.extract b.length t.utf8ByteSize = s.toByteArray := by
    apply ByteArray.ext
    apply Array.toList_inj.1
    rw [ByteArray.data_extract, Array.toList_extract, List.extract_eq_take_drop, hbytes, hsize,
      List.drop_left, Nat.add_sub_cancel_left, List.take_length]
    rfl
  -- a character ends where `b` does, as what follows is a text
  have hvalid : String.Pos.Raw.IsValid t ⟨b.length⟩ := by
    rw [String.Pos.Raw.isValid_iff_isValidUTF8_extract_utf8ByteSize, hback]
    refine ⟨String.Pos.Raw.le_iff.2 ?_, s.isValidUTF8⟩
    rw [String.byteIdx_rawEndPos, hsize]
    exact Nat.le_add_right _ _
  have hu := hvalid.isValidUTF8_extract_zero
  rw [hfront] at hu
  have hencode : b = encode ⟨b.toByteArray, hu⟩ := by simp [encode]
  refine ⟨⟨b.toByteArray, hu⟩, hencode, ?_⟩
  apply encode_injective
  rw [encode_append, ← h, ← hencode]

end Utf8

namespace Text

/-! ## The two kinds of cuts -/

/-- The byte offset `n` lies inside a character of a text, behind its first byte and not behind its
last. -/
def Splits (n : Nat) (text : String) : Prop :=
  ∃ (front back : List Char) (c : Char), text.toList = front ++ c :: back
    ∧ (front.map Char.utf8Size).sum < n ∧ n < (front.map Char.utf8Size).sum + c.utf8Size

/-- An offset within the length of some characters is the length of a beginning of them, or it lies
inside the character that comes next. -/
lemma exists_front (n : Nat) (cs : List Char) (h : n ≤ (cs.map Char.utf8Size).sum) :
    ∃ front back : List Char, cs = front ++ back ∧
      ((front.map Char.utf8Size).sum = n
        ∨ ∃ (c : Char) (rest : List Char), back = c :: rest
          ∧ (front.map Char.utf8Size).sum < n
          ∧ n < (front.map Char.utf8Size).sum + c.utf8Size) := by
  induction cs generalizing n with
  | nil => exact ⟨[], [], rfl, .inl (Nat.le_zero.1 h).symm⟩
  | cons c cs ih =>
    rw [List.map_cons, List.sum_cons] at h
    rcases Nat.eq_zero_or_pos n with rfl | hpos
    · exact ⟨[], c :: cs, rfl, .inl rfl⟩
    by_cases hc : n < c.utf8Size
    · refine ⟨[], c :: cs, rfl, .inr ⟨c, cs, rfl, hpos, ?_⟩⟩
      rw [List.map_nil, List.sum_nil, Nat.zero_add]
      exact hc
    · -- the cut lies behind `c`, so it is looked for among the characters after it
      obtain ⟨front, back, rfl, hcut⟩ := ih (n - c.utf8Size) (by omega)
      refine ⟨c :: front, back, rfl, ?_⟩
      rw [List.map_cons, List.sum_cons]
      rcases hcut with hcut | ⟨d, rest, hback, hlow, hhigh⟩
      · exact .inl (by omega)
      · exact .inr ⟨d, rest, hback, by omega, by omega⟩

/-- An offset within a text lies inside a character, or it divides the text into two. -/
lemma splits_or_exists_eq_append {n : Nat} {text : String} (h : n ≤ (Utf8.encode text).length) :
    Splits n text ∨ ∃ u v : String, text = u ++ v ∧ (Utf8.encode u).length = n := by
  rw [length_encode_eq_sum] at h
  obtain ⟨front, back, htext, hlen | ⟨c, rest, rfl, hlow, hhigh⟩⟩ := exists_front n _ h
  · refine .inr ⟨String.ofList front, String.ofList back, ?_, ?_⟩
    · rw [← String.ofList_append, ← htext, String.ofList_toList]
    · rw [length_encode_ofList, hlen]
  · exact .inl ⟨front, rest, c, htext, hlow, hhigh⟩

/-- What stands before a cut inside a character is not the form of a text. -/
lemma Splits.take_ne {n : Nat} {text : String} (h : Splits n text) (s : String) :
    (Utf8.encode text).take n ≠ Utf8.encode s := by
  intro hs
  obtain ⟨front, back, c, htext, hlow, hhigh⟩ := h
  have hlen : (s.toList.map Char.utf8Size).sum = n := by
    rw [← length_encode_eq_sum, ← hs]
    apply List.length_take_of_le
    rw [length_encode_eq_sum, htext, List.map_append, List.sum_append, List.map_cons, List.sum_cons]
    omega
  have hbegins : s.toList <+: front ++ [c] ++ back := by
    rw [List.append_assoc, List.singleton_append, ← htext, ← encode_begins_iff, ← hs]
    exact List.take_prefix _ _
  -- `s` would end before the character or behind it: too short for the cut, or too long
  rcases List.prefix_or_prefix_of_prefix hbegins (List.prefix_append _ _) with hs | hs
  · rcases List.prefix_concat_iff.1 hs with hs | ⟨rest, hs⟩
    · rw [hs, List.map_append, List.sum_append, List.map_singleton, List.sum_singleton] at hlen
      exact hhigh.ne' hlen
    · rw [← hs, List.map_append, List.sum_append] at hlow
      omega
  · obtain ⟨rest, hs⟩ := hs
    rw [← hs, List.map_append, List.map_append, List.sum_append, List.sum_append,
      List.map_singleton, List.sum_singleton] at hlen
    omega

end Text

end Invitation
