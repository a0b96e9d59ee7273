import Invitation.Proofs.Text.Boundary
import Invitation.Proofs.Token.PayloadCodec

/-!
# The format of payloads

What is written reads back with the inviter's name cut to fit, and nothing else is lost: what is
left is the longest beginning of the name that the length field can describe, that field tells its
length, and the invitee's name is all that follows it (`decode_encode_of_longestFit`).

In the other direction, bytes read as a payload exactly if they are what writing it gives, so no
payload has two spellings.  `Refused` lists the three ways in which bytes can fail to be one, each
with what has to hold before it is looked at, and reading names the one that applies
(`decode_iff_encode_or_refused`).  The two names have to be UTF-8 each on its own.  Where they are
UTF-8 together, that is a question of where the first one ends: between two characters of the whole
or inside one.
-/

namespace Invitation.Payload

/-- The length of the inviter's name as bytes declare it, in the last two bytes before the names. -/
def declaredLength (d : Bytes) : Nat := 256 * (d.getD 24 0).toNat + (d.getD 25 0).toNat

/-- Why bytes are no payload. -/
inductive Refused (d : Bytes) : Fault → Prop
  /-- The bytes end before the names begin. -/
  | tooShort (h : d.length < 26) : Refused d (.tooShort d.length)
  /-- Fewer bytes follow than the inviter's name is declared to have. -/
  | inviterOutOfRange (h : 26 ≤ d.length) (hrange : d.length - 26 < declaredLength d) :
      Refused d (.inviterOutOfRange (declaredLength d) (d.length - 26))
  /-- What stands in the place of a name is not the form of any text. -/
  | notUtf8 (h : 26 ≤ d.length) (hrange : declaredLength d ≤ d.length - 26)
      (hnames : (∀ s : String, (d.drop 26).take (declaredLength d) ≠ Utf8.encode s)
        ∨ ∀ s : String, d.drop (26 + declaredLength d) ≠ Utf8.encode s) : Refused d .notUtf8

/-! ## The declared length -/

/-- The length field is two bytes with the high one first. -/
lemma ofBig_declared {d : Bytes} (h : 26 ≤ d.length) :
    Bytes.ofBig ((d.drop 24).take 2) = declaredLength d := by
  have hhigh : 24 < d.length := by omega
  have hlow : 25 < d.length := by omega
  rw [List.drop_eq_getElem_cons hhigh, List.drop_eq_getElem_cons hlow, declaredLength,
    List.getD_eq_getElem?_getD, List.getD_eq_getElem?_getD, List.getElem?_eq_getElem hhigh,
    List.getElem?_eq_getElem hlow]
  exact Bytes.ofBig_pair _ _

/-- What reading makes of bytes that are long enough for the header. -/
lemma decode_of_le_length {d : Bytes} (h : 26 ≤ d.length) :
    ∃ (entropy : Block entropySize) (time : UInt64), decode d =
      if d.length - 26 < declaredLength d then
        .error (.inviterOutOfRange (declaredLength d) (d.length - 26))
      else
        match Utf8.decode ((d.drop 26).take (declaredLength d)),
          Utf8.decode (d.drop (26 + declaredLength d)) with
        | .ok inviter, .ok invitee => .ok ⟨entropy, time, inviter, invitee⟩
        | _, _ => .error .notUtf8 := by
  have hdecode : decode d = _ := dif_pos h
  have hdeclared : Bytes.ofBig ((d.drop (entropySize + timestampSize)).take inviterLengthSize)
      = declaredLength d := ofBig_declared h
  have hnames : (d.drop headerSize).length = d.length - 26 := List.length_drop
  simp only [hdeclared, hnames, List.drop_drop] at hdecode
  exact ⟨_, _, hdecode⟩

/-! ## What is lost on the way -/

/-- Payloads that agree in all but what is cut off the inviter's name have the same bytes. -/
lemma encode_congr {p q : Payload} (hentropy : p.entropy = q.entropy)
    (htime : p.timestamp = q.timestamp) (hinvitee : p.invitee = q.invitee)
    (hinviter : p.fittingInviter = q.fittingInviter) : p.encode = q.encode := by
  simp only [encode, hentropy, htime, hinvitee, hinviter]

/-- The names stand behind the header, the inviter's as far as it fits. -/
lemma drop_encode (p : Payload) :
    p.encode.drop 26 = Utf8.encode p.fittingInviter ++ Utf8.encode p.invitee := by
  have hheader : (26 : Nat) = entropySize + timestampSize + inviterLengthSize := rfl
  rw [encode_eq_fields, hheader, ← List.drop_drop, drop_timestamp]
  exact List.drop_left' (Bytes.length_toBig _ _)

/-- The length field tells the length of the inviter's name as it is written. -/
lemma declaredLength_encode (p : Payload) :
    declaredLength p.encode = (Utf8.encode p.fittingInviter).length := by
  have hlen : 26 ≤ p.encode.length := by
    rw [length_encode]
    exact Nat.le_add_right _ _
  have hfield : (p.encode.drop 24).take 2
      = Bytes.toBig inviterLengthSize (Utf8.encode p.fittingInviter).length := by
    have hsize : (24 : Nat) = entropySize + timestampSize := rfl
    rw [encode_eq_fields, hsize, drop_timestamp]
    exact List.take_left' (Bytes.length_toBig _ _)
  rw [← ofBig_declared hlen, hfield, Bytes.ofBig_toBig]
  exact Nat.mod_eq_of_lt (Nat.lt_succ_of_le (length_fittingInviter_le p))

/-- A payload is what is read from its bytes, but for what the inviter's name loses: reading gives
the longest beginning of the name that takes at most 65535 bytes, which is the whole name if it
takes no more.  What was read has the bytes that it was read from, so payloads have the same bytes
exactly if they agree in all that is read.  The length field tells the length of the cut name, and
the invitee's name is all that follows it. -/
theorem decode_encode_of_longestFit (p : Payload) :
    ∃ kept : String, Text.LongestFit 65535 p.inviter kept
      ∧ decode p.encode = .ok { p with inviter := kept }
      ∧ ({ p with inviter := kept } = p ↔ (Utf8.encode p.inviter).length ≤ 65535)
      ∧ encode { p with inviter := kept } = p.encode
      ∧ (∀ q : Payload, p.encode = q.encode ↔
        p.entropy = q.entropy ∧ p.timestamp = q.timestamp ∧ p.invitee = q.invitee
          ∧ Text.LongestFit 65535 q.inviter kept)
      ∧ declaredLength p.encode = (Utf8.encode kept).length
      ∧ p.encode.drop 26 = Utf8.encode kept ++ Utf8.encode p.invitee := by
  have hkept : (Utf8.encode p.fittingInviter).length ≤ maxInviterLength :=
    length_fittingInviter_le p
  refine ⟨p.fittingInviter, Text.longestFit_cut _ _, decode_encode p, ?_, ?_, ?_,
    declaredLength_encode p, drop_encode p⟩
  · constructor
    · intro h
      have hinviter : p.fittingInviter = p.inviter := congrArg Payload.inviter h
      rw [← hinviter]
      exact hkept
    · intro h
      rw [fittingInviter_eq_self h]
  · exact encode_congr rfl rfl rfl (fittingInviter_eq_self hkept)
  · intro q
    constructor
    · intro h
      obtain ⟨hentropy, htime, hinvitee, hinviter⟩ := eq_of_encode_eq h
      refine ⟨hentropy, htime, hinvitee, ?_⟩
      rw [hinviter]
      exact Text.longestFit_cut _ _
    · rintro ⟨hentropy, htime, hinvitee, hfit⟩
      exact encode_congr hentropy htime hinvitee hfit.eq_cut

/-! ## What is refused -/

/-- Bytes that end before the names begin are told how many there are and how many there should
be. -/
lemma message_tooShort (n : Nat) :
    (Fault.tooShort n).message = s!"Payload too short: {n} bytes (minimum 26)" := by
  have hend : " bytes (minimum " ++ (toString headerSize ++ ")") = " bytes (minimum 26)" := by
    decide
  have hmessage : (Fault.tooShort n).message = "Payload too short: " ++ toString n
      ++ " bytes (minimum " ++ toString headerSize ++ ")" := rfl
  rw [hmessage, String.append_assoc, String.append_assoc, hend]
  rfl

/-- Bytes that are refused are refused for the reason that applies. -/
lemma decode_of_refused {d : Bytes} {fault : Fault} (h : Refused d fault) :
    decode d = .error fault := by
  rcases h with hshort | ⟨hlen, hrange⟩ | ⟨hlen, hrange, hnames⟩
  · exact dif_neg (Nat.not_le_of_lt hshort)
  · obtain ⟨entropy, time, hdecode⟩ := decode_of_le_length hlen
    rw [hdecode, if_pos hrange]
  · obtain ⟨entropy, time, hdecode⟩ := decode_of_le_length hlen
    rw [hdecode, if_neg (Nat.not_lt.2 hrange)]
    split
    · next inviter invitee hinviter hinvitee =>
      rw [Utf8.decode_eq_ok_iff] at hinviter hinvitee
      rcases hnames with hnames | hnames
      · exact absurd hinviter (hnames inviter)
      · exact absurd hinvitee (hnames invitee)
    · rfl

/-- Bytes read as a payload or are refused. -/
lemma decodes_or_refused (d : Bytes) : (∃ p, decode d = .ok p) ∨ ∃ fault, Refused d fault := by
  by_cases hlen : 26 ≤ d.length
  · by_cases hrange : d.length - 26 < declaredLength d
    · exact .inr ⟨_, .inviterOutOfRange hlen hrange⟩
    obtain ⟨entropy, time, hdecode⟩ := decode_of_le_length hlen
    rw [if_neg hrange] at hdecode
    by_cases hnames : (∀ s : String, (d.drop 26).take (declaredLength d) ≠ Utf8.encode s)
        ∨ ∀ s : String, d.drop (26 + declaredLength d) ≠ Utf8.encode s
    · exact .inr ⟨_, .notUtf8 hlen (Nat.le_of_not_lt hrange) hnames⟩
    · simp only [not_or, not_forall, not_not] at hnames
      obtain ⟨⟨inviter, hinviter⟩, ⟨invitee, hinvitee⟩⟩ := hnames
      rw [hinviter, hinvitee, Utf8.decode_encode, Utf8.decode_encode] at hdecode
      exact .inl ⟨_, hdecode⟩
  · exact .inr ⟨_, .tooShort (Nat.lt_of_not_le hlen)⟩

/-- Bytes are refused exactly for the reason that applies. -/
lemma decode_eq_error_iff {d : Bytes} {fault : Fault} :
    decode d = .error fault ↔ Refused d fault := by
  constructor
  · intro h
    rcases decodes_or_refused d with ⟨p, hp⟩ | ⟨other, hother⟩
    · cases hp.symm.trans h
    · cases (decode_of_refused hother).symm.trans h
      exact hother
  · exact decode_of_refused

/-- No payload is read from two strings of bytes. -/
lemma eq_of_decode_eq {d d' : Bytes} {p : Payload} (h : decode d = .ok p)
    (h' : decode d' = .ok p) : d = d' := by
  rw [← (encode_of_decode h).2, ← (encode_of_decode h').2]

/-- Names that are the form of one text are refused exactly if the first of them ends inside a
character of that text. -/
lemma decode_eq_notUtf8_iff_splits {d : Bytes} {text : String} (hlen : 26 ≤ d.length)
    (hrange : declaredLength d ≤ d.length - 26) (htext : d.drop 26 = Utf8.encode text) :
    decode d = .error .notUtf8 ↔ Text.Splits (declaredLength d) text := by
  have hsize : declaredLength d ≤ (Utf8.encode text).length := by
    rw [← htext, List.length_drop]
    exact hrange
  constructor
  · intro h
    rcases Text.splits_or_exists_eq_append hsize with hsplits | ⟨inviter, invitee, rfl, hcut⟩
    · exact hsplits
    · rw [Utf8.encode_append] at htext
      rcases decode_eq_error_iff.1 h with _ | _ | ⟨-, -, hnames | hnames⟩
      · exact absurd (by rw [htext, List.take_left' hcut]) (hnames inviter)
      · exact absurd (by rw [← List.drop_drop, htext, List.drop_left' hcut]) (hnames invitee)
  · intro hsplits
    refine decode_of_refused (.notUtf8 hlen hrange (.inl ?_))
    rw [htext]
    exact hsplits.take_ne

/-- Bytes read as a payload exactly if they are what writing it gives and its inviter's name fits,
so no two strings read as the same payload; all others are refused for the first reason that
applies.  In particular names that are the form of one text are refused exactly if the declared
length ends inside a character of it. -/
theorem decode_iff_encode_or_refused (d : Bytes) :
    (∀ p : Payload, decode d = .ok p ↔ (Utf8.encode p.inviter).length ≤ 65535 ∧ p.encode = d)
    ∧ (∀ (d' : Bytes) (p : Payload), decode d = .ok p → decode d' = .ok p → d = d')
    ∧ (∀ fault : Fault, decode d = .error fault ↔ Refused d fault)
    ∧ (Fault.tooShort d.length).message = s!"Payload too short: {d.length} bytes (minimum 26)"
    ∧ ∀ text : String, 26 ≤ d.length → declaredLength d ≤ d.length - 26 →
        d.drop 26 = Utf8.encode text →
          (decode d = .error .notUtf8 ↔ Text.Splits (declaredLength d) text) := by
  refine ⟨fun p => decode_eq_ok_iff, ?_, fun fault => decode_eq_error_iff, message_tooShort _, ?_⟩
  · intro d' p h h'
    exact eq_of_decode_eq h h'
  · intro text hlen hrange htext
    exact decode_eq_notUtf8_iff_splits hlen hrange htext

/-- A blank header with a declared length, and a text in the place of the names. -/
def blank (declared : UInt8) (names : String) : Bytes :=
  List.replicate 25 0 ++ declared :: Utf8.encode names

/-- The two bytes of an accented letter are one name or the other; with one byte for each they are
refused. -/
theorem decode_blank_accent :
    blank 2 "é" = encode ⟨⟨List.replicate 16 0, rfl⟩, 0, "é", ""⟩
      ∧ 26 ≤ (blank 1 "é").length ∧ declaredLength (blank 1 "é") ≤ (blank 1 "é").length - 26
      ∧ (blank 1 "é").drop 26 = Utf8.encode "é" ∧ decode (blank 1 "é") = .error .notUtf8 := by
  have hread : decode (blank 2 "é") = .ok ⟨⟨List.replicate 16 0, rfl⟩, 0, "é", ""⟩ := by
    decide
  have hlen : 26 ≤ (blank 1 "é").length := by decide
  have hrange : declaredLength (blank 1 "é") ≤ (blank 1 "é").length - 26 := by decide
  have hnames : (blank 1 "é").drop 26 = Utf8.encode "é" := rfl
  have hsplits : Text.Splits (declaredLength (blank 1 "é")) "é" :=
    ⟨[], [], 'é', by decide, by decide, by decide⟩
  obtain ⟨-, hunique, -⟩ := decode_iff_encode_or_refused (blank 2 "é")
  obtain ⟨-, -, -, -, hsplit⟩ := decode_iff_encode_or_refused (blank 1 "é")
  refine ⟨?_, hlen, hrange, hnames, (hsplit "é" hlen hrange hnames).2 hsplits⟩
  exact hunique _ _ hread (by decide)

end Invitation.Payload
