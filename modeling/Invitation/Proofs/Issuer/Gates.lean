import Invitation.Proofs.Issuer.RoundTrip

/-!
# What the answers give away

Under a key a text is forged or it is authentic, and neither depends on a time, a lifetime or a
recipient.  A forged text gets one answer from everybody at all times, whatever is wrong with it.
An authentic one is judged by its age before its recipient: once it has expired nobody learns whom
it is made out to, and until then all who ask for the wrong recipient get the answer that a forged
text gets (`verify_gates`).  So an answer tells a forger nothing about how close the forgery is, and
tells a stranger nothing about the recipient.
-/

namespace Invitation.Issuer

/-! ## The kinds of error -/

/-- Verifying a token fails in two ways at most. -/
lemma error_of_verify {i : Issuer} {text : String} {now : UInt64} {e : Error}
    (h : i.verify text now = .error e) : e = .invalidToken ∨ e = .tokenExpired := by
  rcases Token.forged_or_authentic i.key.bytes text with hforged | ⟨p, hp⟩
  · rw [verify_of_forged hforged] at h
    cases h
    exact .inl rfl
  · rw [verify_of_authentic hp] at h
    split at h
    · cases h
      exact .inr rfl
    · cases h

/-- Asking for a recipient as well adds no third way. -/
lemma error_of_verifyFor {i : Issuer} {text expected : String} {now : UInt64} {e : Error}
    (h : i.verifyFor text expected now = .error e) : e = .invalidToken ∨ e = .tokenExpired := by
  rw [verifyFor] at h
  split at h
  · next e' he' =>
    cases h
    exact error_of_verify he'
  · split at h
    · cases h
    · cases h
      exact .inl rfl

/-! ## What an authentic text gives away -/

/-- The verdict on an authentic text, with its age and its recipient compared in full. -/
lemma verify_and_verifyFor_of_authentic {i : Issuer} {text : String} {p : Payload}
    (h : Token.Authentic i.key.bytes text p) (expected : String) (now : UInt64) :
    if (i.settings.lifetime.inNanoseconds : Int)
        < max ((now.toNat : Int) - p.timestamp.toNat) 0 * 1000000000 then
      i.verify text now = .error .tokenExpired
        ∧ i.verifyFor text expected now = .error .tokenExpired
    else
      i.verify text now
          = .ok { inviter := p.inviter, invitee := p.invitee, createdAt := p.timestamp }
        ∧ i.verifyFor text expected now =
          if Utf8.encode expected = Utf8.encode p.invitee then
            .ok { inviter := p.inviter, invitee := p.invitee, createdAt := p.timestamp }
          else .error .invalidToken := by
  have hsame : p.invitee = expected ↔ Utf8.encode expected = Utf8.encode p.invitee :=
    ⟨fun heq => congrArg Utf8.encode heq.symm, fun heq => (Utf8.encode_injective heq).symm⟩
  rw [verify_of_authentic h, verifyFor_of_authentic h]
  simp only [Lifetime.isOver_iff_nanoseconds, hsame]
  split
  · exact ⟨rfl, rfl⟩
  · exact ⟨rfl, rfl⟩

/-- All who ask for a wrong recipient get the same answer. -/
lemma verifyFor_eq_of_ne {i : Issuer} {text expected expected' : String} {p : Payload}
    (h : Token.Authentic i.key.bytes text p) (now : UInt64) (hne : p.invitee ≠ expected)
    (hne' : p.invitee ≠ expected') :
    i.verifyFor text expected now = i.verifyFor text expected' now := by
  rw [verifyFor_of_authentic h, verifyFor_of_authentic h, if_neg hne, if_neg hne']

/-- Within the lifetime, asking for a wrong recipient is answered as a forged text is. -/
lemma verifyFor_of_ne {i : Issuer} {text expected : String} {p : Payload} {now : UInt64}
    (h : Token.Authentic i.key.bytes text p)
    (hearly : ¬ i.settings.lifetime.isOver p.timestamp now = true) (hne : p.invitee ≠ expected) :
    i.verifyFor text expected now = .error .invalidToken := by
  rw [verifyFor_of_authentic h, if_neg hearly, if_neg hne]

/-! ## The order of the gates -/

/-- A text that is forged under a key is invalid for everybody, at all times and for all recipients.
A text that is authentic has expired for all recipients or for none; until then it is accepted for
the one it names, and to the others it is as invalid as a forged one.  No other error is ever
given. -/
theorem verify_gates (key : SigningKey) (text : String) :
    ((Token.Forged key.bytes text ∧ (∀ p, ¬ Token.Authentic key.bytes text p)
        ∧ ∀ (i : Issuer) (expected : String) (now : UInt64), i.key = key →
          i.verify text now = .error .invalidToken
            ∧ i.verifyFor text expected now = .error .invalidToken)
      ∨ ∃ p : Payload, Token.Authentic key.bytes text p ∧ ¬ Token.Forged key.bytes text
        ∧ (∀ (i : Issuer) (expected : String) (now : UInt64), i.key = key →
          if (i.settings.lifetime.inNanoseconds : Int)
              < max ((now.toNat : Int) - p.timestamp.toNat) 0 * 1000000000 then
            i.verify text now = .error .tokenExpired
              ∧ i.verifyFor text expected now = .error .tokenExpired
          else
            i.verify text now
                = .ok { inviter := p.inviter, invitee := p.invitee, createdAt := p.timestamp }
              ∧ i.verifyFor text expected now =
                if Utf8.encode expected = Utf8.encode p.invitee then
                  .ok { inviter := p.inviter, invitee := p.invitee, createdAt := p.timestamp }
                else .error .invalidToken)
        ∧ (∀ (i : Issuer) (expected expected' : String) (now : UInt64), i.key = key →
          expected ≠ p.invitee → expected' ≠ p.invitee →
            i.verifyFor text expected now = i.verifyFor text expected' now)
        ∧ ∀ (i j : Issuer) (forged expected expected' : String) (now now' : UInt64),
          i.key = key → j.key = key → expected ≠ p.invitee → Token.Forged key.bytes forged →
          max ((now.toNat : Int) - p.timestamp.toNat) 0 * 1000000000
            ≤ i.settings.lifetime.inNanoseconds →
            i.verifyFor text expected now = j.verifyFor forged expected' now')
    ∧ ∀ (i : Issuer) (expected : String) (now : UInt64) (e : Error),
      i.verify text now = .error e ∨ i.verifyFor text expected now = .error e →
        e = .invalidToken ∨ e = .tokenExpired := by
  constructor
  · rcases Token.forged_or_authentic key.bytes text with hforged | ⟨p, hp⟩
    · refine .inl ⟨hforged, hforged.not_authentic, ?_⟩
      rintro i expected now rfl
      exact ⟨verify_of_forged hforged now, verifyFor_of_forged hforged expected now⟩
    · refine .inr ⟨p, hp, fun hforged => hforged.not_authentic p hp, ?_, ?_, ?_⟩
      · rintro i expected now rfl
        exact verify_and_verifyFor_of_authentic hp expected now
      · rintro i expected expected' now rfl hne hne'
        exact verifyFor_eq_of_ne hp now hne.symm hne'.symm
      · rintro i j forged expected expected' now now' rfl hkey hne hforged hage
        have hearly := mt (Lifetime.isOver_iff_nanoseconds _ _ _).1 (Int.not_lt.2 hage)
        rw [← hkey] at hforged
        rw [verifyFor_of_ne hp hearly hne.symm, verifyFor_of_forged hforged]
  · rintro i expected now e (h | h)
    · exact error_of_verify h
    · exact error_of_verifyFor h

/-- Who asks whether another's token is made out to carol learns that it is not valid until it has
expired, and from then on that it has expired. -/
theorem verifyFor_stranger :
    ∃ (token : String) (env' : Environment),
      ((trial .usual).issue "alice" "bob" 1700000000).run ⟨List.replicate 16 0x11, []⟩
          = (.ok token, env')
        ∧ (trial (.ofLifetime (.ofSeconds 10))).verifyFor token "bob" 1700000010
          = .ok ⟨"alice", "bob", 1700000000⟩
        ∧ (trial (.ofLifetime (.ofSeconds 10))).verifyFor token "carol" 1700000010
          = .error .invalidToken
        ∧ (trial (.ofLifetime (.ofSeconds 10))).verifyFor token "carol" 1700000011
          = .error .tokenExpired := by
  obtain ⟨token, env', hrun⟩ := exists_run_issue_trial "alice" "bob" 1700000000
  obtain ⟨entropy, htoken⟩ := exists_ofPayload_of_run_issue hrun
  have hfits : (Utf8.encode "alice").length ≤ Payload.maxInviterLength := by decide
  have hp : Token.Authentic (trial .usual).key.bytes token ⟨entropy, 1700000000, "alice", "bob"⟩ :=
    Token.authentic_iff_eq_ofPayload.2 ⟨hfits, htoken⟩
  refine ⟨token, env', hrun, ?_⟩
  rcases (verify_gates (trial .usual).key token).1 with ⟨hforged, -⟩ | ⟨q, hq, -, hjudged, -⟩
  · exact absurd hp (hforged.not_authentic _)
  · rw [← Token.authentic?_eq_some_iff] at hp hq
    cases hp.symm.trans hq
    dsimp only at hjudged
    have hten := hjudged (trial (.ofLifetime (.ofSeconds 10)))
    refine ⟨?_, ?_, ?_⟩
    · have hbob := hten "bob" 1700000010 rfl
      rw [if_neg (by decide)] at hbob
      exact hbob.2
    · have hcarol := hten "carol" 1700000010 rfl
      rw [if_neg (by decide)] at hcarol
      rw [hcarol.2]
      exact if_neg (by decide)
    · have hlate := hten "carol" 1700000011 rfl
      rw [if_pos (by decide)] at hlate
      exact hlate.2

end Invitation.Issuer
