import Invitation.Proofs.Token.PayloadCodec
import Invitation.Text.Base64Url.Lemmas
import Invitation.Token.Basic

/-!
# Authentic and forged texts

`Authentic key text p` says that a text is the encoding of a message followed by the tag of that
message, and that the message is the payload `p`.  `Forged key text` lists the four ways in which a
text can fail to be one.  Neither mentions a time, a recipient or any setting, and neither says in
which order something is looked at; `authentic?_eq_some_iff` and `authentic?_eq_none_iff` say that
`authentic?` decides between the two.

As base64 texts and payloads are both spelled in one way only, an authentic text is the token of its
payload to the letter (`authentic_iff_eq_ofPayload`).
-/

namespace Invitation.Token

/-- A text that spells a message with its tag, where the message spells the payload `p`. -/
def Authentic (key : Bytes) (text : String) (p : Payload) : Prop :=
  ∃ message : Bytes,
    Base64Url.decode text = .ok (message ++ (hmac key message).bytes.take 16)
      ∧ Payload.decode message = .ok p

/-- Why a text is not authentic. -/
inductive Forged (key : Bytes) (text : String) : Prop
  /-- The text is not base64. -/
  | notBase64 (fault : Base64Url.Fault) (h : Base64Url.decode text = .error fault)
  /-- The text has no room for a header and a tag. -/
  | tooShort (data : Bytes) (h : Base64Url.decode text = .ok data) (hlen : data.length < 42)
  /-- What stands in the place of the tag is not the tag of what stands before it. -/
  | mistagged (message tag : Bytes) (h : Base64Url.decode text = .ok (message ++ tag))
      (hmessage : 26 ≤ message.length) (htag : tag.length = 16)
      (hne : tag ≠ (hmac key message).bytes.take 16)
  /-- The tag is right, but what it stands for is no payload. -/
  | malformed (message : Bytes) (fault : Payload.Fault)
      (h : Base64Url.decode text = .ok (message ++ (hmac key message).bytes.take 16))
      (hmessage : 26 ≤ message.length) (hfault : Payload.decode message = .error fault)

/-! ## A message and what stands in the place of its tag -/

/-- Bytes that are long enough for a header and a tag divide into a message and a tag. -/
lemma exists_eq_append_tag {data : Bytes} (h : minSize ≤ data.length) :
    ∃ (message : Bytes) (tag : Tag), Payload.headerSize ≤ message.length
      ∧ data = message ++ tag.bytes := by
  have hsize : minSize = Payload.headerSize + Tag.size := rfl
  refine ⟨data.take (data.length - Tag.size), ⟨data.drop (data.length - Tag.size), ?_⟩, ?_, ?_⟩
  · rw [List.length_drop]
    omega
  · rw [List.length_take_of_le (Nat.sub_le _ _)]
    omega
  · exact (List.take_append_drop _ _).symm

/-- What spells no header is no payload. -/
lemma headerSize_le_of_decode {message : Bytes} {p : Payload}
    (h : Payload.decode message = .ok p) : Payload.headerSize ≤ message.length := by
  rw [← (Payload.encode_of_decode h).2, Payload.length_encode]
  exact Nat.le_add_right _ _

/-- All but the last sixteen bytes are the message. -/
lemma length_append_tag (message : Bytes) (tag : Tag) :
    (message ++ tag.bytes).length - 16 = message.length := by
  rw [List.length_append, tag.property]
  exact Nat.add_sub_cancel _ _

/-- What `authentic?` makes of a message and what stands in the place of its tag. -/
lemma authentic?_of_decode {key : Bytes} {text : String} {message : Bytes} {tag : Tag}
    (h : Base64Url.decode text = .ok (message ++ tag.bytes)) :
    authentic? key text =
      if tag = Tag.of key message then (Payload.decode message).toOption else none := by
  have hlen : (message ++ tag.bytes).length - Tag.size = message.length :=
    length_append_tag message tag
  have hcheck : Tag.check key message tag.bytes = true ↔ tag = Tag.of key message := by
    rw [Tag.check_eq_true_iff]
    exact Subtype.ext_iff.symm
  simp only [authentic?, h, hlen, List.take_left, List.drop_left, hcheck]
  by_cases hsize : (message ++ tag.bytes).length < minSize
  · -- a message without room for a header is not read as a payload either
    have hshort : message.length < Payload.headerSize := by
      rw [List.length_append, tag.property] at hsize
      exact Nat.lt_of_add_lt_add_right hsize
    cases hd : Payload.decode message with
    | error fault => simp [Except.toOption]
    | ok p => exact absurd (headerSize_le_of_decode hd) (Nat.not_le_of_lt hshort)
  · rw [if_neg hsize]
    cases Payload.decode message <;> rfl

/-- The tag of a message, written out. -/
lemma of_bytes (key message : Bytes) :
    (Tag.of key message).bytes = (hmac key message).bytes.take 16 := rfl

/-! ## The two sides of the check -/

/-- The check finds the payload of the texts that are authentic. -/
theorem authentic?_eq_some_iff {key : Bytes} {text : String} {p : Payload} :
    authentic? key text = some p ↔ Authentic key text p := by
  constructor
  · intro h
    cases hdecode : Base64Url.decode text with
    | error fault => simp [authentic?, hdecode] at h
    | ok data =>
      by_cases hsize : data.length < minSize
      · simp [authentic?, hdecode, hsize] at h
      · obtain ⟨message, tag, -, rfl⟩ := exists_eq_append_tag (Nat.le_of_not_lt hsize)
        rw [authentic?_of_decode hdecode] at h
        split at h
        · next htag =>
          subst htag
          cases hp : Payload.decode message with
          | error fault => simp [hp, Except.toOption] at h
          | ok q =>
            rw [hp] at h
            cases h
            exact ⟨message, hdecode, hp⟩
        · cases h
  · rintro ⟨message, hdecode, hp⟩
    rw [← of_bytes] at hdecode
    rw [authentic?_of_decode hdecode, if_pos rfl, hp]
    rfl

/-- The check finds nothing in the texts that are forged. -/
theorem authentic?_eq_none_iff {key : Bytes} {text : String} :
    authentic? key text = none ↔ Forged key text := by
  constructor
  · intro h
    cases hdecode : Base64Url.decode text with
    | error fault => exact .notBase64 fault hdecode
    | ok data =>
      by_cases hsize : data.length < minSize
      · exact .tooShort data hdecode hsize
      · obtain ⟨message, tag, hmessage, rfl⟩ := exists_eq_append_tag (Nat.le_of_not_lt hsize)
        rw [authentic?_of_decode hdecode] at h
        split at h
        · next htag =>
          subst htag
          cases hp : Payload.decode message with
          | error fault => exact .malformed message fault hdecode hmessage hp
          | ok q => simp [hp, Except.toOption] at h
        · next htag =>
          refine .mistagged message tag.bytes hdecode hmessage tag.property ?_
          intro heq
          exact htag (Subtype.ext heq)
  · rintro (⟨fault, h⟩ | ⟨data, h, hlen⟩ | ⟨message, tag, h, -, htag, hne⟩ |
      ⟨message, fault, h, -, hfault⟩)
    · simp [authentic?, h]
    · have hsize : data.length < minSize := hlen
      simp [authentic?, h, hsize]
    · obtain ⟨tag, rfl⟩ : ∃ t : Tag, t.bytes = tag := ⟨⟨tag, htag⟩, rfl⟩
      rw [authentic?_of_decode h, if_neg]
      intro heq
      exact hne (congrArg Block.bytes heq)
    · rw [← of_bytes] at h
      rw [authentic?_of_decode h, if_pos rfl, hfault]
      rfl

/-- A text is authentic or forged. -/
lemma forged_or_authentic (key : Bytes) (text : String) :
    Forged key text ∨ ∃ p, Authentic key text p := by
  cases h : authentic? key text with
  | none => exact .inl (authentic?_eq_none_iff.1 h)
  | some p => exact .inr ⟨p, authentic?_eq_some_iff.1 h⟩

/-- No text is both. -/
lemma Forged.not_authentic {key : Bytes} {text : String} (h : Forged key text) (p : Payload) :
    ¬ Authentic key text p := by
  intro hp
  rw [← authentic?_eq_some_iff, authentic?_eq_none_iff.2 h] at hp
  cases hp

/-! ## Tokens -/

/-- The text of a token spells its payload and the tag of that. -/
lemma decode_ofPayload (key : Bytes) (p : Payload) :
    Base64Url.decode (ofPayload key p) = .ok (p.encode ++ (Tag.of key p.encode).bytes) :=
  Base64Url.decode_eq_ok_iff.2 rfl

/-- The length of a token depends on those of its names alone. -/
lemma utf8ByteSize_ofPayload (key : Bytes) (p : Payload) :
    (ofPayload key p).utf8ByteSize
      = (4 * (42 + p.fittingInviter.utf8ByteSize + p.invitee.utf8ByteSize) + 2) / 3 := by
  have hlen : (p.encode ++ (Tag.of key p.encode).bytes).length
      = 42 + p.fittingInviter.utf8ByteSize + p.invitee.utf8ByteSize := by
    have hheader : Payload.headerSize = 26 := rfl
    have htag : Tag.size = 16 := rfl
    rw [List.length_append, (Tag.of key p.encode).property, Payload.length_encode,
      Utf8.length_encode, Utf8.length_encode, hheader, htag]
    omega
  rw [← Utf8.length_encode, ofPayload, Base64Url.utf8_encode, List.length_map,
    Base64Url.length_digits, hlen]

/-- A token made under one key is authentic under another exactly if both keys give its payload the
same tag. -/
lemma authentic?_ofPayload (key key' : Bytes) (p : Payload) :
    authentic? key' (ofPayload key p) =
      if Tag.of key p.encode = Tag.of key' p.encode then
        some { p with inviter := p.fittingInviter }
      else none := by
  rw [authentic?_of_decode (decode_ofPayload key p), Payload.decode_encode]
  rfl

/-- An authentic text is the token of its payload to the letter. -/
theorem authentic_iff_eq_ofPayload {key : Bytes} {text : String} {p : Payload} :
    Authentic key text p ↔
      (Utf8.encode p.inviter).length ≤ Payload.maxInviterLength ∧ text = ofPayload key p := by
  constructor
  · rintro ⟨message, hdecode, hp⟩
    obtain ⟨hfits, rfl⟩ := Payload.encode_of_decode hp
    exact ⟨hfits, Base64Url.decode_eq_ok_iff.1 hdecode⟩
  · rintro ⟨hfits, rfl⟩
    exact ⟨p.encode, decode_ofPayload key p, Payload.decode_eq_ok_iff.2 ⟨hfits, rfl⟩⟩

end Invitation.Token
