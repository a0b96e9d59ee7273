import Invitation.Proofs.Issuer.RoundTrip
import Invitation.Proofs.Text.CarelessReading

/-!
# Only sealed tokens are accepted, each in one spelling

A text that is not called invalid is, character for character, the token of the payload that it
spells.  So there is one accepted text for a payload and a key, and nobody can make a second one out
of an issued token: not by another tag, by setting bits of the last symbol that reach no byte, or by
padding.

To say what such a text has in common with the token, texts are also read the way a careless reader
would (`carelessPayload`): bytes that are no symbols are skipped, bits that reach no byte are
dropped, and the last sixteen bytes are taken for a tag without looking at them.  The verifier reads
strictly, and nothing here assumes anything of the digest.
-/

namespace Invitation

namespace Token

/-- The bytes of the payload in a text for a careless reader: all but the last sixteen of those that
he finds. -/
def carelessPayload (text : String) : Bytes :=
  (Base64Url.readCarelessly text).take ((Base64Url.readCarelessly text).length - 16)

/-- The careless reader finds in a token the payload that it was made of. -/
lemma carelessPayload_ofPayload (key : Bytes) (p : Payload) :
    carelessPayload (ofPayload key p) = p.encode := by
  rw [carelessPayload, ofPayload, Base64Url.readCarelessly_encode, length_append_tag,
    List.take_left]

/-- Padding is lost on the careless reader. -/
lemma carelessPayload_append_pad (text : String) :
    carelessPayload (text ++ "=") = carelessPayload text := by
  rw [carelessPayload, Base64Url.readCarelessly_append_pad, carelessPayload]

/-- A token depends on nothing but the key and the bytes of its payload. -/
lemma ofPayload_congr {key : Bytes} {p q : Payload} (h : p.encode = q.encode) :
    ofPayload key p = ofPayload key q := by
  rw [ofPayload, ofPayload, h]

end Token

namespace Issuer

/-- A text that is not called invalid is the token of a payload, and what is told of it is what that
payload says. -/
lemma exists_eq_ofPayload_of_verify_ne {i : Issuer} {text : String} {now : UInt64}
    (h : i.verify text now ≠ .error .invalidToken) :
    ∃ p : Payload, (Utf8.encode p.inviter).length ≤ Payload.maxInviterLength
      ∧ text = Token.ofPayload i.key.bytes p
      ∧ ∀ c, i.verify text now = .ok c → c = p.contents := by
  rcases Token.forged_or_authentic i.key.bytes text with hforged | ⟨p, hp⟩
  · exact absurd (verify_of_forged hforged now) h
  · obtain ⟨hfits, htext⟩ := Token.authentic_iff_eq_ofPayload.1 hp
    refine ⟨p, hfits, htext, ?_⟩
    intro c hc
    rw [verify_of_authentic hp] at hc
    split at hc
    · cases hc
    · exact (Except.ok.inj hc).symm

/-- A text that is not called invalid is the token of every payload that the careless reader could
have found in it. -/
lemma eq_ofPayload_of_carelessPayload {i : Issuer} {text : String} {now : UInt64} {p : Payload}
    (h : i.verify text now ≠ .error .invalidToken)
    (hp : Token.carelessPayload text = p.encode) : text = Token.ofPayload i.key.bytes p := by
  obtain ⟨q, -, htext, -⟩ := exists_eq_ofPayload_of_verify_ne h
  rw [htext, Token.carelessPayload_ofPayload] at hp
  rw [htext]
  exact Token.ofPayload_congr hp

/-- Whatever the settings and the time, a text that is not called invalid is the base64 text of a
payload and its tag, and an answer carries what that payload says.  Two such texts under one key
that say the same are equal, and no text but an issued token itself is accepted with its payload. -/
theorem verify_accepts_only_sealed (key : SigningKey) :
    (∀ (i : Issuer) (text : String) (now : UInt64), i.key = key →
      i.verify text now ≠ .error .invalidToken →
        ∃ p : Payload, (Utf8.encode p.inviter).length ≤ 65535
          ∧ text = Base64Url.encode (p.encode ++ (hmac key.bytes p.encode).bytes.take 16)
          ∧ Payload.decode (Token.carelessPayload text) = .ok p
          ∧ ∀ c, i.verify text now = .ok c →
            c = { inviter := p.inviter, invitee := p.invitee, createdAt := p.timestamp })
    ∧ (∀ (i j : Issuer) (s t : String) (now now' : UInt64) (p q : Payload),
        i.key = key → j.key = key →
        i.verify s now ≠ .error .invalidToken → j.verify t now' ≠ .error .invalidToken →
        Payload.decode (Token.carelessPayload s) = .ok p →
        Payload.decode (Token.carelessPayload t) = .ok q →
        p.entropy = q.entropy → p.timestamp = q.timestamp → p.inviter = q.inviter →
        p.invitee = q.invitee → s = t)
    ∧ (∀ (i j : Issuer) (inviter invitee token text : String) (now now' : UInt64)
        (env env' : Environment), i.key = key → j.key = key →
        (i.issue inviter invitee now).run env = (.ok token, env') → text ≠ token →
        Token.carelessPayload text = Token.carelessPayload token →
        j.verify text now' = .error .invalidToken) := by
  refine ⟨?_, ?_, ?_⟩
  · rintro i text now rfl hne
    obtain ⟨p, hfits, htext, hcontents⟩ := exists_eq_ofPayload_of_verify_ne hne
    refine ⟨p, hfits, htext, ?_, hcontents⟩
    rw [htext, Token.carelessPayload_ofPayload]
    exact Payload.decode_eq_ok_iff.2 ⟨hfits, rfl⟩
  · rintro i j s t now now' p q rfl hkey hs ht hp hq hentropy htime hinviter hinvitee
    obtain ⟨-, hpbytes⟩ := Payload.encode_of_decode hp
    obtain ⟨-, hqbytes⟩ := Payload.encode_of_decode hq
    have hpq : p = q := by
      cases p
      cases q
      simp_all only
    rw [eq_ofPayload_of_carelessPayload hs hpbytes.symm,
      eq_ofPayload_of_carelessPayload ht hqbytes.symm, hkey, hpq]
  · rintro i j inviter invitee token text now now' env env' rfl hkey hrun hne hpayload
    obtain ⟨entropy, htoken⟩ := exists_ofPayload_of_run_issue hrun
    by_contra haccepted
    apply hne
    rw [htoken, Token.carelessPayload_ofPayload] at hpayload
    rw [eq_ofPayload_of_carelessPayload haccepted hpayload, htoken, hkey]

/-- An issued token is the text of the payload that a careless reader finds in it and of its tag,
and the only text with that payload that is not invalid: padding it makes it so. -/
theorem verify_padded_token :
    ∃ (token : String) (env' : Environment) (p : Payload),
      ((trial .usual).issue "alice" "bob" 1700000000).run ⟨List.replicate 16 0x11, []⟩
          = (.ok token, env')
        ∧ (trial .usual).verify token 1700000000 = .ok ⟨"alice", "bob", 1700000000⟩
        ∧ token = Base64Url.encode
          (p.encode ++ (hmac (trial .usual).key.bytes p.encode).bytes.take 16)
        ∧ Payload.decode (Token.carelessPayload token) = .ok p
        ∧ p.inviter = "alice" ∧ p.invitee = "bob" ∧ p.timestamp = 1700000000
        ∧ (∀ (text : String) (now : UInt64), (trial .usual).verify text now ≠ .error .invalidToken →
            Payload.decode (Token.carelessPayload text) = .ok p → text = token)
        ∧ token ++ "=" ≠ token
        ∧ Token.carelessPayload (token ++ "=") = Token.carelessPayload token
        ∧ (trial .usual).verify (token ++ "=") 1700000000 = .error .invalidToken := by
  obtain ⟨token, env', hrun⟩ := exists_run_issue_trial "alice" "bob" 1700000000
  have hanswer : (trial .usual).verify token 1700000000 = .ok ⟨"alice", "bob", 1700000000⟩ :=
    verify_of_run_issue hrun rfl (by decide) (by decide)
  have haccepted : (trial .usual).verify token 1700000000 ≠ .error .invalidToken := by
    intro h
    cases hanswer.symm.trans h
  obtain ⟨hsealed, honly, hother⟩ := verify_accepts_only_sealed (trial .usual).key
  obtain ⟨p, -, htoken, hread, hcontents⟩ := hsealed (trial .usual) token 1700000000 rfl haccepted
  have hsays := hcontents _ hanswer
  have hne : token ++ "=" ≠ token := by
    intro h
    have hlen := congrArg String.length h
    simp at hlen
  have hpad := Token.carelessPayload_append_pad token
  refine ⟨token, env', p, hrun, hanswer, htoken, hread, (congrArg Contents.inviter hsays).symm,
    (congrArg Contents.invitee hsays).symm, (congrArg Contents.createdAt hsays).symm, ?_, hne, hpad,
    ?_⟩
  · intro text now htext hsame
    exact honly (trial .usual) (trial .usual) text token now 1700000000 p p rfl rfl htext haccepted
      hsame hread rfl rfl rfl rfl
  · exact hother (trial .usual) (trial .usual) "alice" "bob" token (token ++ "=") 1700000000
      1700000000 _ env' rfl rfl hrun hne hpad

end Issuer

end Invitation
