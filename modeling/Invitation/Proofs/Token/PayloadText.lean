import Invitation.Proofs.Text.Boundary
import Invitation.Proofs.Token.PayloadCodec
import Invitation.Text.Base64Url.Lemmas

/-!
# Payloads that are texts

A payload begins with random bytes and numbers, and as a rule its bytes are not UTF-8.  Those of
some payloads are: there the header is a text of its own, and the names follow it (`InText`).  These
are all, since what stands before a text in a text is a text (`Utf8.exists_eq_append`), and reading
them gives the names back (`decode_of_inText`).

A text in the alphabet of base64 is a payload only from 11591 characters on
(`InText.le_length_of_encode`), as two of its symbols declare a long name.
-/

namespace Invitation

namespace Payload

/-! ## Payloads in texts -/

/-- A text that has the form of a payload: a header of 26 bytes that is a text of its own, and
behind it the two names, the first of them as long as the last two bytes of the header declare. -/
structure InText (text header inviter invitee : String) : Prop where
  parts : text = header ++ (inviter ++ invitee)
  size : (Utf8.encode header).length = 26
  declared : Bytes.ofBig ((Utf8.encode header).drop 24) = (Utf8.encode inviter).length

/-- The time of issue that a header states, in seconds. -/
def headerTime (header : String) : UInt64 :=
  UInt64.ofNat (Bytes.ofBig (((Utf8.encode header).drop 16).take 8))

/-- A header that is all of a string divides it into three fields. -/
lemma exists_eq_fields_nil {b : Bytes} (h : b.length = 26) :
    ∃ entropy time declared, b = fields entropy time declared [] := by
  obtain ⟨entropy, time, declared, rest, rfl⟩ := exists_eq_fields (Nat.le_of_eq h.symm)
  rw [length_fields] at h
  have hrest : rest = [] := List.length_eq_zero_iff.1 (Nat.add_left_cancel h)
  exact ⟨entropy, time, declared, by rw [hrest]⟩

/-- Reading the bytes of a text that has the form of a payload gives its parts. -/
lemma decode_of_inText {text header inviter invitee : String}
    (h : InText text header inviter invitee) :
    ∃ entropy, decode (Utf8.encode text) = .ok ⟨entropy, headerTime header, inviter, invitee⟩ := by
  obtain ⟨entropy, time, declared, hheader⟩ := exists_eq_fields_nil h.size
  have htime : ((Utf8.encode header).drop 16).take 8 = time.bytes := by
    rw [hheader]
    exact take_drop_entropy entropy time declared []
  have hdeclared : (Utf8.encode header).drop 24 = declared.bytes := by
    rw [hheader]
    exact (drop_timestamp entropy time declared []).trans (List.append_nil _)
  have hlen : Bytes.ofBig declared.bytes = (Utf8.encode inviter).length := by
    rw [← h.declared, hdeclared]
  have htext : Utf8.encode text
      = fields entropy time declared (Utf8.encode inviter ++ Utf8.encode invitee) := by
    rw [h.parts, Utf8.encode_append, Utf8.encode_append, hheader]
    simp only [fields, List.append_nil, List.append_assoc]
  refine ⟨entropy, ?_⟩
  rw [htext, decode_fields, hlen, if_neg (by simp), List.take_left, List.drop_left,
    Utf8.decode_encode, Utf8.decode_encode, headerTime, htime]

/-- The bytes of a text read as a payload only if the text has the form of one. -/
lemma exists_inText_of_decode {text : String} {p : Payload}
    (h : decode (Utf8.encode text) = .ok p) :
    ∃ header, InText text header p.inviter p.invitee := by
  obtain ⟨hfits, hbytes⟩ := encode_of_decode h
  have hcut : p.fittingInviter = p.inviter := fittingInviter_eq_self hfits
  have hsplit : fields p.entropy
        ⟨Bytes.toBig timestampSize p.timestamp.toNat, Bytes.length_toBig _ _⟩
        ⟨Bytes.toBig inviterLengthSize (Utf8.encode p.inviter).length, Bytes.length_toBig _ _⟩ []
      ++ Utf8.encode (p.inviter ++ p.invitee) = Utf8.encode text := by
    rw [← hbytes, encode_eq_fields, hcut, Utf8.encode_append]
    simp only [fields, List.append_nil, List.append_assoc]
  obtain ⟨header, hheader, hparts⟩ := Utf8.exists_eq_append hsplit
  refine ⟨header, hparts, ?_, ?_⟩
  · rw [← hheader, length_fields]
    rfl
  · have hdeclared : (Utf8.encode header).drop 24
        = Bytes.toBig inviterLengthSize (Utf8.encode p.inviter).length := by
      rw [← hheader]
      exact (drop_timestamp _ _ _ []).trans (List.append_nil _)
    rw [hdeclared, Bytes.ofBig_toBig]
    exact Nat.mod_eq_of_lt (Nat.lt_succ_of_le hfits)

/-- The bytes of a text are those of a payload exactly if the text has the form of one. -/
theorem decode_isOk_iff_inText {text : String} :
    (∃ p, decode (Utf8.encode text) = .ok p) ↔
      ∃ header inviter invitee, InText text header inviter invitee := by
  constructor
  · rintro ⟨p, hp⟩
    obtain ⟨header, hin⟩ := exists_inText_of_decode hp
    exact ⟨header, p.inviter, p.invitee, hin⟩
  · rintro ⟨header, inviter, invitee, hin⟩
    obtain ⟨entropy, hp⟩ := decode_of_inText hin
    exact ⟨_, hp⟩

/-! ## Payloads in the alphabet of base64 -/

/-- No symbol is a byte below the hyphen. -/
lemma le_symbol (x : Base64Url.Sextet) : 45 ≤ (Base64Url.symbol x).toNat := by
  revert x
  decide

/-- Two symbols, read as a number, declare a long name. -/
lemma le_ofBig_symbols {b : Bytes} (hlen : b.length = 2)
    (hsymbols : ∀ c ∈ b, 45 ≤ c.toNat) : 11565 ≤ Bytes.ofBig b := by
  obtain ⟨c, d, rfl⟩ := List.length_eq_two.1 hlen
  have hc := hsymbols c (by simp)
  have hd := hsymbols d (by simp)
  rw [Bytes.ofBig_pair]
  omega

/-- A base64 text that has the form of a payload is long. -/
theorem InText.le_length_of_encode {b : Bytes} {header inviter invitee : String}
    (h : InText (Base64Url.encode b) header inviter invitee) :
    11591 ≤ (Base64Url.encode b).utf8ByteSize := by
  have hbytes : Utf8.encode (Base64Url.encode b)
      = Utf8.encode header ++ Utf8.encode (inviter ++ invitee) := by
    rw [← Utf8.encode_append, ← h.parts]
  have hsymbols : ∀ c ∈ (Utf8.encode header).drop 24, 45 ≤ c.toNat := by
    intro c hc
    have hmem : c ∈ Utf8.encode (Base64Url.encode b) := by
      rw [hbytes]
      exact List.mem_append_left _ (List.mem_of_mem_drop hc)
    rw [Base64Url.utf8_encode] at hmem
    obtain ⟨x, -, rfl⟩ := List.mem_map.1 hmem
    exact le_symbol x
  have hdeclared : 11565 ≤ (Utf8.encode inviter).length := by
    rw [← h.declared]
    exact le_ofBig_symbols (by rw [List.length_drop, h.size]) hsymbols
  rw [← Utf8.length_encode, hbytes, Utf8.encode_append, List.length_append, List.length_append,
    h.size]
  omega

end Payload

end Invitation
