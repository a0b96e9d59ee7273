import Invitation.Proofs.Text.LongestFit
import Invitation.Token.Payload

/-!
# Writing and reading payloads

A string of bytes that is long enough for the header has exactly one division into the random
bytes, the time, the declared length and the names (`exists_eq_fields`), and `decode_fields` says
what reading makes of it.  From these two follow both directions of the codec: reading what was
written gives the payload back with its inviter cut to fit (`decode_encode`), and what reads as a
payload is what writing that payload gives (`encode_of_decode`).  Together they are
`decode_eq_ok_iff`: the bytes of a payload are its only ones.
-/

namespace Invitation.Payload

/-! ## The fields of a payload -/

/-- The fields of a payload in their order, the names in one piece. -/
def fields (entropy : Block entropySize) (time : Block timestampSize)
    (declared : Block inviterLengthSize) (names : Bytes) : Bytes :=
  entropy.bytes ++ (time.bytes ++ (declared.bytes ++ names))

/-- The fields before the names fill the header. -/
lemma length_fields (entropy : Block entropySize) (time : Block timestampSize)
    (declared : Block inviterLengthSize) (names : Bytes) :
    (fields entropy time declared names).length = headerSize + names.length := by
  simp only [fields, List.length_append, entropy.property, time.property, declared.property,
    headerSize]
  omega

/-- Bytes that are long enough for the header divide into fields. -/
lemma exists_eq_fields {b : Bytes} (h : headerSize ≤ b.length) :
    ∃ entropy time declared names, b = fields entropy time declared names := by
  have hsize : headerSize = entropySize + (timestampSize + inviterLengthSize) := rfl
  obtain ⟨entropy, b₁, rfl⟩ : ∃ (entropy : Block entropySize) (b₁ : Bytes),
    b = entropy.bytes ++ b₁ := Block.exists_eq_append (by omega)
  rw [List.length_append, entropy.property] at h
  obtain ⟨time, b₂, rfl⟩ : ∃ (time : Block timestampSize) (b₂ : Bytes),
    b₁ = time.bytes ++ b₂ := Block.exists_eq_append (by omega)
  rw [List.length_append, time.property] at h
  obtain ⟨declared, names, rfl⟩ : ∃ (declared : Block inviterLengthSize) (names : Bytes),
    b₂ = declared.bytes ++ names := Block.exists_eq_append (by omega)
  exact ⟨entropy, time, declared, names, rfl⟩

/-- All other fields stand behind the random bytes. -/
lemma drop_entropy (entropy : Block entropySize) (time : Block timestampSize)
    (declared : Block inviterLengthSize) (names : Bytes) :
    (fields entropy time declared names).drop entropySize
      = time.bytes ++ (declared.bytes ++ names) :=
  List.drop_left' entropy.property

/-- The time is the first of them. -/
lemma take_drop_entropy (entropy : Block entropySize) (time : Block timestampSize)
    (declared : Block inviterLengthSize) (names : Bytes) :
    ((fields entropy time declared names).drop entropySize).take timestampSize = time.bytes := by
  rw [drop_entropy]
  exact List.take_left' time.property

/-- The declared length and the names stand behind the time. -/
lemma drop_timestamp (entropy : Block entropySize) (time : Block timestampSize)
    (declared : Block inviterLengthSize) (names : Bytes) :
    (fields entropy time declared names).drop (entropySize + timestampSize)
      = declared.bytes ++ names := by
  rw [← List.drop_drop, drop_entropy]
  exact List.drop_left' time.property

/-- What reading makes of the fields. -/
lemma decode_fields (entropy : Block entropySize) (time : Block timestampSize)
    (declared : Block inviterLengthSize) (names : Bytes) :
    decode (fields entropy time declared names) =
      if names.length < Bytes.ofBig declared.bytes then
        .error (.inviterOutOfRange (Bytes.ofBig declared.bytes) names.length)
      else
        match Utf8.decode (names.take (Bytes.ofBig declared.bytes)),
          Utf8.decode (names.drop (Bytes.ofBig declared.bytes)) with
        | .ok inviter, .ok invitee =>
          .ok ⟨entropy, UInt64.ofNat (Bytes.ofBig time.bytes), inviter, invitee⟩
        | _, _ => .error .notUtf8 := by
  have hheader : headerSize ≤ (fields entropy time declared names).length := by
    rw [length_fields]
    exact Nat.le_add_right _ _
  have hentropy : (fields entropy time declared names).take entropySize = entropy.bytes :=
    List.take_left' entropy.property
  have hdeclared : ((fields entropy time declared names).drop
      (entropySize + timestampSize)).take inviterLengthSize = declared.bytes := by
    rw [drop_timestamp]
    exact List.take_left' declared.property
  have hnames : (fields entropy time declared names).drop headerSize = names := by
    rw [headerSize, ← List.drop_drop, drop_timestamp]
    exact List.drop_left' declared.property
  have hdecode : decode (fields entropy time declared names) = _ := dif_pos hheader
  simp only [hentropy, take_drop_entropy, hdeclared, hnames] at hdecode
  exact hdecode

/-! ## Numbers in fields -/

/-- A number of 64 bits survives its field. -/
lemma ofNat_ofBig_toBig (t : UInt64) :
    UInt64.ofNat (Bytes.ofBig (Bytes.toBig timestampSize t.toNat)) = t := by
  have ht : t.toNat < Bytes.capacity timestampSize := t.toNat_lt
  rw [Bytes.ofBig_toBig, Nat.mod_eq_of_lt ht, UInt64.ofNat_toNat]

/-- The field of a number of 64 bits survives that number. -/
lemma toBig_toNat_ofNat (time : Block timestampSize) :
    Bytes.toBig timestampSize (UInt64.ofNat (Bytes.ofBig time.bytes)).toNat = time.bytes := by
  have hlt : Bytes.ofBig time.bytes < UInt64.size := by
    have := Bytes.ofBig_lt time.bytes
    rwa [time.property] at this
  rw [UInt64.toNat_ofNat_of_lt' hlt]
  have := Bytes.toBig_ofBig time.bytes
  rwa [time.property] at this

/-- A declared length is one that the field can hold. -/
lemma ofBig_declared_le (declared : Block inviterLengthSize) :
    Bytes.ofBig declared.bytes ≤ maxInviterLength := by
  have := Bytes.ofBig_lt declared.bytes
  rw [declared.property] at this
  exact Nat.le_of_lt_succ this

/-! ## Reading what was written -/

/-- The inviter's name as it is written has a length that the field can hold. -/
lemma length_fittingInviter_le (p : Payload) :
    (Utf8.encode p.fittingInviter).length ≤ maxInviterLength :=
  Text.length_encode_cut_le _ _

/-- Writing a payload lays out its fields. -/
lemma encode_eq_fields (p : Payload) :
    p.encode = fields p.entropy
      ⟨Bytes.toBig timestampSize p.timestamp.toNat, Bytes.length_toBig _ _⟩
      ⟨Bytes.toBig inviterLengthSize (Utf8.encode p.fittingInviter).length,
        Bytes.length_toBig _ _⟩
      (Utf8.encode p.fittingInviter ++ Utf8.encode p.invitee) := by
  simp only [encode, fields, List.append_assoc]

/-- A payload takes its header and its names, the inviter's as far as it fits. -/
lemma length_encode (p : Payload) :
    p.encode.length = headerSize
      + ((Utf8.encode p.fittingInviter).length + (Utf8.encode p.invitee).length) := by
  rw [encode_eq_fields, length_fields, List.length_append]

/-- Reading what was written gives the payload back, its inviter cut to fit. -/
theorem decode_encode (p : Payload) :
    decode p.encode = .ok { p with inviter := p.fittingInviter } := by
  have hdeclared : Bytes.ofBig (Bytes.toBig inviterLengthSize
      (Utf8.encode p.fittingInviter).length) = (Utf8.encode p.fittingInviter).length := by
    rw [Bytes.ofBig_toBig]
    exact Nat.mod_eq_of_lt (Nat.lt_succ_of_le (length_fittingInviter_le p))
  rw [encode_eq_fields, decode_fields, hdeclared, if_neg (by simp), List.take_left,
    List.drop_left, Utf8.decode_encode, Utf8.decode_encode]
  simp only [Block.bytes, ofNat_ofBig_toBig]

/-- Payloads with the same bytes agree in all but what is cut off the inviter's name. -/
lemma eq_of_encode_eq {p q : Payload} (h : p.encode = q.encode) :
    p.entropy = q.entropy ∧ p.timestamp = q.timestamp ∧ p.invitee = q.invitee
      ∧ p.fittingInviter = q.fittingInviter := by
  have hdecode := decode_encode p
  rw [h, decode_encode] at hdecode
  obtain ⟨hentropy, htime, hinviter, hinvitee⟩ := Payload.mk.inj (Except.ok.inj hdecode)
  exact ⟨hentropy.symm, htime.symm, hinvitee.symm, hinviter.symm⟩

/-! ## Writing what was read -/

/-- A payload whose inviter fits is written with the whole name. -/
lemma fittingInviter_eq_self {p : Payload}
    (h : (Utf8.encode p.inviter).length ≤ maxInviterLength) : p.fittingInviter = p.inviter :=
  Text.cut_eq_self h

/-- What reads as a payload is what writing that payload gives, and its inviter fits. -/
theorem encode_of_decode {b : Bytes} {p : Payload} (h : decode b = .ok p) :
    (Utf8.encode p.inviter).length ≤ maxInviterLength ∧ p.encode = b := by
  have hheader : headerSize ≤ b.length := by
    by_contra hshort
    rw [decode, dif_neg hshort] at h
    cases h
  obtain ⟨entropy, time, declared, names, rfl⟩ := exists_eq_fields hheader
  rw [decode_fields] at h
  split at h
  · cases h
  · next hrange =>
    split at h
    · next inviter invitee hinviter hinvitee =>
      cases h
      rw [Utf8.decode_eq_ok_iff] at hinviter hinvitee
      have hlen : (Utf8.encode inviter).length = Bytes.ofBig declared.bytes := by
        rw [← hinviter]
        exact List.length_take_of_le (Nat.le_of_not_lt hrange)
      have hfits : (Utf8.encode inviter).length ≤ maxInviterLength := by
        rw [hlen]
        exact ofBig_declared_le declared
      have hfield : Bytes.toBig inviterLengthSize (Utf8.encode inviter).length
          = declared.bytes := by
        have := Bytes.toBig_ofBig declared.bytes
        rwa [declared.property, ← hlen] at this
      have hcut : fittingInviter ⟨entropy, UInt64.ofNat (Bytes.ofBig time.bytes), inviter, invitee⟩
          = inviter := fittingInviter_eq_self hfits
      have hnames : Utf8.encode inviter ++ Utf8.encode invitee = names := by
        rw [← hinviter, ← hinvitee, List.take_append_drop]
      refine ⟨hfits, ?_⟩
      rw [encode_eq_fields]
      simp only [hcut, toBig_toNat_ofNat, hfield, hnames]
    · cases h

/-- Bytes read as a payload exactly if they are what writing it gives and its inviter fits. -/
theorem decode_eq_ok_iff {b : Bytes} {p : Payload} :
    decode b = .ok p ↔ (Utf8.encode p.inviter).length ≤ maxInviterLength ∧ p.encode = b := by
  constructor
  · exact encode_of_decode
  · rintro ⟨hfits, rfl⟩
    rw [decode_encode, fittingInviter_eq_self hfits]

end Invitation.Payload
