import Invitation.Proofs.Issuer.RoundTrip
import Invitation.Proofs.Text.CarelessReading
import Invitation.Proofs.Token.PayloadText

/-!
# What short codes give away

A short code is the beginning of a digest under the key that tags are made with, and 22 of its
characters spell as many bytes as a tag has.  So whoever may ask for short codes of that length gets
the tag of any text, and can put it behind the text's own bytes (`Token.ofShortCode`).  The outcome
is the token of the payload that the text spells, if it spells one
(`verify_ofShortCode_of_inText`), and is invalid otherwise.  `verify_ofShortCode` says which texts
these are: those that begin with a header of their own, `AAAAAAAAAAAAAAAA` and the like, and never a
token of common length.
-/

namespace Invitation

/-- The text that is made of the bytes of another and, in place of a tag, of the sixteen bytes that
the first 22 characters of a short code spell. -/
def Token.ofShortCode (text code : String) : String :=
  Base64Url.encode
    (Utf8.encode text ++ Base64Url.readCarelessly (String.ofList (code.toList.take 22)))

/-! ## The tag in a short code -/

/-- The first 22 characters of a short code spell the tag of the text. -/
lemma readCarelessly_shortCode (key : Bytes) (text : String) {length : UInt64}
    (h : 22 ≤ Settings.clampLength length) :
    Base64Url.readCarelessly (String.ofList ((shortCode key text length).toList.take 22))
      = (Tag.of key (Utf8.encode text)).bytes := by
  have hsize : 22 ≤ (fullCode key text).length := by
    rw [fullCode, Base64Url.length_encode, Base64Url.length_digits,
      (hmac key (Utf8.encode text)).property]
    decide
  have hfirst : (shortCode key text length).toList.take 22
      = (fullCode key text).toList.take 22 := by
    rw [shortCode, String.toList_ofList, List.take_take, Nat.min_eq_left h]
  rw [hfirst, fullCode, Base64Url.readCarelessly_take hsize]
  rfl

namespace Issuer

/-- The made-up text spells the bytes of the text and their tag. -/
lemma decode_ofShortCode {i : Issuer} (h : 22 ≤ Settings.clampLength i.settings.codeLength)
    (text : String) :
    Base64Url.decode (Token.ofShortCode text (i.shortCode text))
      = .ok (Utf8.encode text ++ (Tag.of i.key.bytes (Utf8.encode text)).bytes) := by
  rw [Token.ofShortCode, shortCode, readCarelessly_shortCode _ _ h]
  exact Base64Url.decode_eq_ok_iff.2 rfl

/-- The made-up text is authentic exactly for the payload that the text spells. -/
lemma authentic?_ofShortCode {i : Issuer} (h : 22 ≤ Settings.clampLength i.settings.codeLength)
    (text : String) :
    Token.authentic? i.key.bytes (Token.ofShortCode text (i.shortCode text))
      = (Payload.decode (Utf8.encode text)).toOption := by
  rw [Token.authentic?_of_decode (decode_ofShortCode h text), if_pos rfl]

/-- The short code of a text without the form of a payload is of no use. -/
lemma verify_ofShortCode_of_not_inText {i : Issuer}
    (h : 22 ≤ Settings.clampLength i.settings.codeLength) {text : String}
    (hnone : ¬ ∃ header inviter invitee, Payload.InText text header inviter invitee)
    (now : UInt64) :
    i.verify (Token.ofShortCode text (i.shortCode text)) now = .error .invalidToken := by
  rw [verify_eq_invalidToken_iff, ← Token.authentic?_eq_none_iff, authentic?_ofShortCode h]
  rcases hd : Payload.decode (Utf8.encode text) with fault | p
  · rfl
  · exact absurd (Payload.decode_isOk_iff_inText.1 ⟨p, hd⟩) hnone

/-- The short code of a text that has the form of a payload makes it a token. -/
lemma verify_ofShortCode_of_inText {i : Issuer}
    (h : 22 ≤ Settings.clampLength i.settings.codeLength) {text header inviter invitee : String}
    (hin : Payload.InText text header inviter invitee) (now : UInt64) :
    i.verify (Token.ofShortCode text (i.shortCode text)) now =
      if max ((now.toNat : Int) - (Payload.headerTime header).toNat) 0
          ≤ i.settings.lifetime.seconds.toNat then
        .ok { inviter := inviter, invitee := invitee, createdAt := Payload.headerTime header }
      else .error .tokenExpired := by
  obtain ⟨entropy, hdecode⟩ := Payload.decode_of_inText hin
  have hfound : Token.authentic? i.key.bytes (Token.ofShortCode text (i.shortCode text))
      = some ⟨entropy, Payload.headerTime header, inviter, invitee⟩ := by
    rw [authentic?_ofShortCode h, hdecode]
    rfl
  rw [verify_of_authentic (Token.authentic?_eq_some_iff.1 hfound), Lifetime.ite_isOver]
  rfl

/-- The short code of a token is of no use unless the token is long. -/
lemma verify_ofShortCode_of_issued {i j : Issuer}
    (h : 22 ≤ Settings.clampLength i.settings.codeLength) {inviter invitee token : String}
    {issued : UInt64} {env env' : Environment}
    (hrun : (j.issue inviter invitee issued).run env = (.ok token, env'))
    (hshort : token.utf8ByteSize < 11591) (now : UInt64) :
    i.verify (Token.ofShortCode token (i.shortCode token)) now = .error .invalidToken := by
  obtain ⟨entropy, rfl⟩ := exists_ofPayload_of_run_issue hrun
  refine verify_ofShortCode_of_not_inText h ?_ now
  rintro ⟨header, _, _, hin⟩
  exact absurd (Payload.InText.le_length_of_encode hin) (Nat.not_le_of_lt hshort)

/-! ## Which short codes are of use -/

/-- With short codes of 22 characters or more, the text that is made of another and its short code
is invalid exactly if that other does not have the form of a payload.  If it has, the outcome is a
token that says what the text says, at any age that its header states.  Tokens of fewer than 11591
characters do not have that form. -/
theorem verify_ofShortCode (i : Issuer) (h : 22 ≤ Settings.clampLength i.settings.codeLength) :
    (∀ (text : String) (now : UInt64),
        i.verify (Token.ofShortCode text (i.shortCode text)) now = .error .invalidToken ↔
          ¬ ∃ header inviter invitee, Payload.InText text header inviter invitee)
    ∧ (∀ (text header inviter invitee : String) (now : UInt64),
        Payload.InText text header inviter invitee →
          i.verify (Token.ofShortCode text (i.shortCode text)) now =
            if max ((now.toNat : Int) - (Payload.headerTime header).toNat) 0
                ≤ i.settings.lifetime.seconds.toNat then
              .ok { inviter := inviter, invitee := invitee, createdAt := Payload.headerTime header }
            else .error .tokenExpired)
    ∧ ∀ (j : Issuer) (inviter invitee token : String) (issued now : UInt64)
        (env env' : Environment), (j.issue inviter invitee issued).run env = (.ok token, env') →
          token.utf8ByteSize < 11591 →
            i.verify (Token.ofShortCode token (i.shortCode token)) now
              = .error .invalidToken := by
  refine ⟨?_, ?_, ?_⟩
  · intro text now
    constructor
    · rintro hinvalid ⟨header, inviter, invitee, hin⟩
      rw [verify_ofShortCode_of_inText h hin] at hinvalid
      split at hinvalid <;> cases hinvalid
    · intro hnone
      exact verify_ofShortCode_of_not_inText h hnone now
  · intro text header inviter invitee now hin
    exact verify_ofShortCode_of_inText h hin now
  · intro j inviter invitee token issued now env env' hrun hshort
    exact verify_ofShortCode_of_issued h hrun hshort now

/-- The short code of a word shorter than a header is of no use. -/
theorem verify_ofShortCode_of_word :
    22 ≤ Settings.clampLength (Settings.usual.withCodeLength 22).codeLength
      ∧ (trial (Settings.usual.withCodeLength 22)).verify
          (Token.ofShortCode "alice" ((trial (Settings.usual.withCodeLength 22)).shortCode "alice"))
          1700000000 = .error .invalidToken := by
  have hlong : 22 ≤ Settings.clampLength (Settings.usual.withCodeLength 22).codeLength := by decide
  refine ⟨hlong, ?_⟩
  -- five bytes have no room for a header
  rw [(verify_ofShortCode (trial (Settings.usual.withCodeLength 22)) hlong).1]
  rintro ⟨header, inviter, invitee, hin⟩
  have hsize : (Utf8.encode header).length ≤ (Utf8.encode "alice").length := by
    rw [hin.parts, Utf8.encode_append, List.length_append]
    exact Nat.le_add_right _ _
  rw [hin.size] at hsize
  exact absurd hsize (by decide)

/-- A token that nobody issued, made of a text that begins with a header and its short code of 43
characters. -/
theorem verify_made_of_short_code :
    22 ≤ Settings.clampLength (Settings.usual.withCodeLength 43).codeLength
      ∧ (trial (Settings.usual.withCodeLength 43)).verify
          (Token.ofShortCode "AAAAAAAAAAAAAAAA\x00\x00\x00\x00eSq\x00\x00\x05alicebob"
            ((trial (Settings.usual.withCodeLength 43)).shortCode
              "AAAAAAAAAAAAAAAA\x00\x00\x00\x00eSq\x00\x00\x05alicebob"))
          1700000000 = .ok ⟨"alice", "bob", 1699967232⟩ := by
  have hlong : 22 ≤ Settings.clampLength (Settings.usual.withCodeLength 43).codeLength := by decide
  have hin : Payload.InText "AAAAAAAAAAAAAAAA\x00\x00\x00\x00eSq\x00\x00\x05alicebob"
      "AAAAAAAAAAAAAAAA\x00\x00\x00\x00eSq\x00\x00\x05" "alice" "bob" := by
    refine ⟨?_, ?_, ?_⟩
    · decide
    · decide
    · decide
  have htime : Payload.headerTime "AAAAAAAAAAAAAAAA\x00\x00\x00\x00eSq\x00\x00\x05"
      = 1699967232 := by decide
  refine ⟨hlong, ?_⟩
  rw [verify_ofShortCode_of_inText hlong hin, htime]
  rfl

end Issuer

end Invitation
