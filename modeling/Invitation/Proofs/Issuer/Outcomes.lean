import Invitation.Issuer
import Invitation.Proofs.Lifetime.Expiry
import Invitation.Proofs.Token.Authentic

/-!
# Outcomes of issuing and verifying

One statement for each operation of an issuer says all that it can answer.  Issuing draws the random
field of a payload and gives the token of that payload (`run_issue`); without enough random bytes it
fails and leaves the environment as it was (`run_issue_of_short`).  Verifying refuses what is forged
(`verify_of_forged`) and judges what is authentic by its age alone (`verify_of_authentic`), so a
text is called invalid exactly if it is forged (`verify_eq_invalidToken_iff`).  With a recipient to
look for, what is forged is refused as before (`verifyFor_of_forged`), and of what is authentic the
age is judged first and then the recipient (`verifyFor_of_authentic`).
-/

namespace Invitation.Issuer

/-! ## Issuing -/

/-- With enough random bytes an issuer issues the token of the payload that begins with the next of
them. -/
lemma run_issue (i : Issuer) (inviter invitee : String) (now : UInt64) {env : Environment}
    (h : Payload.entropySize ≤ env.entropy.length) :
    (i.issue inviter invitee now).run env =
      let entropy : Block Payload.entropySize :=
        ⟨env.entropy.take Payload.entropySize, List.length_take_of_le h⟩
      let token := Token.ofPayload i.key.bytes ⟨entropy, now, inviter, invitee⟩
      (.ok token, { entropy := env.entropy.drop Payload.entropySize
                    log := env.log ++ [.issued token.utf8ByteSize] }) := by
  simp only [issue, Action.run_bind, Action.run_draw, dif_pos h, Action.run_record,
    Action.run_pure]

/-- The random field of a token is what stands first among the random bytes. -/
lemma run_issue_append (i : Issuer) (inviter invitee : String) (now : UInt64)
    (entropy : Block Payload.entropySize) (rest : Bytes) (log : List Event) :
    (i.issue inviter invitee now).run ⟨entropy.bytes ++ rest, log⟩ =
      let token := Token.ofPayload i.key.bytes ⟨entropy, now, inviter, invitee⟩
      (.ok token, ⟨rest, log ++ [.issued token.utf8ByteSize]⟩) := by
  simp only [issue, Action.run_bind, Action.run_draw_append, Action.run_record, Action.run_pure]

/-- With enough random bytes issuing succeeds. -/
lemma exists_run_issue (i : Issuer) (inviter invitee : String) (now : UInt64) {env : Environment}
    (h : Payload.entropySize ≤ env.entropy.length) :
    ∃ token env', (i.issue inviter invitee now).run env = (.ok token, env') :=
  ⟨_, _, run_issue i inviter invitee now h⟩

/-- Without enough random bytes nothing is issued and nothing changes. -/
lemma run_issue_of_short (i : Issuer) (inviter invitee : String) (now : UInt64)
    {env : Environment} (h : ¬ Payload.entropySize ≤ env.entropy.length) :
    (i.issue inviter invitee now).run env = (.error .randomnessExhausted, env) := by
  simp only [issue, Action.run_bind, Action.run_draw_of_short h]

/-- What an issuer issues is the token of the payload that begins with what was drawn, and all that
changes besides is that the log is told of its length. -/
lemma exists_draw_of_run_issue {i : Issuer} {inviter invitee : String} {now : UInt64}
    {env env' : Environment} {token : String}
    (h : (i.issue inviter invitee now).run env = (.ok token, env')) :
    ∃ entropy : Block Payload.entropySize, env.entropy = entropy.bytes ++ env'.entropy
      ∧ env'.log = env.log ++ [.issued token.utf8ByteSize]
      ∧ token = Token.ofPayload i.key.bytes ⟨entropy, now, inviter, invitee⟩ := by
  by_cases hsize : Payload.entropySize ≤ env.entropy.length
  · rw [run_issue i inviter invitee now hsize] at h
    cases h
    exact ⟨_, (List.take_append_drop _ _).symm, rfl, rfl⟩
  · rw [run_issue_of_short i inviter invitee now hsize] at h
    cases h

/-- What an issuer issues is the token of a payload that says what it was asked to say. -/
lemma exists_ofPayload_of_run_issue {i : Issuer} {inviter invitee : String} {now : UInt64}
    {env env' : Environment} {token : String}
    (h : (i.issue inviter invitee now).run env = (.ok token, env')) :
    ∃ entropy, token = Token.ofPayload i.key.bytes ⟨entropy, now, inviter, invitee⟩ := by
  obtain ⟨entropy, -, -, htoken⟩ := exists_draw_of_run_issue h
  exact ⟨entropy, htoken⟩

/-! ## Verifying -/

/-- A forged text is invalid at any time and whatever the settings. -/
lemma verify_of_forged {i : Issuer} {text : String} (h : Token.Forged i.key.bytes text)
    (now : UInt64) : i.verify text now = .error .invalidToken := by
  rw [verify, Token.authentic?_eq_none_iff.2 h]

/-- An authentic text is judged by its age. -/
lemma verify_of_authentic {i : Issuer} {text : String} {p : Payload}
    (h : Token.Authentic i.key.bytes text p) (now : UInt64) :
    i.verify text now =
      if i.settings.lifetime.isOver p.timestamp now then .error .tokenExpired
      else .ok p.contents := by
  rw [verify, Token.authentic?_eq_some_iff.2 h]

/-- A text is invalid exactly if it is forged. -/
theorem verify_eq_invalidToken_iff {i : Issuer} {text : String} {now : UInt64} :
    i.verify text now = .error .invalidToken ↔ Token.Forged i.key.bytes text := by
  constructor
  · intro h
    rcases Token.forged_or_authentic i.key.bytes text with hforged | ⟨p, hp⟩
    · exact hforged
    · rw [verify_of_authentic hp] at h
      split at h <;> cases h
  · intro h
    exact verify_of_forged h now

/-- The token of a payload is judged by its age under the key that it was made with. -/
lemma verify_ofPayload {i : Issuer} {key : SigningKey} (hkey : i.key = key) (p : Payload)
    (now : UInt64) :
    i.verify (Token.ofPayload key.bytes p) now =
      if i.settings.lifetime.isOver p.timestamp now then .error .tokenExpired
      else .ok ⟨p.fittingInviter, p.invitee, p.timestamp⟩ := by
  rw [verify, hkey, Token.authentic?_ofPayload, if_pos rfl]
  rfl

/-- What was issued under the same key comes back while the lifetime of the issuer that verifies it
lasts, if the inviter's name fits in its field. -/
lemma verify_of_run_issue {i j : Issuer} {inviter invitee token : String} {now now' : UInt64}
    {env env' : Environment} (hrun : (i.issue inviter invitee now).run env = (.ok token, env'))
    (hkey : j.key = i.key) (hfits : (Utf8.encode inviter).length ≤ Payload.maxInviterLength)
    (hfresh : j.settings.lifetime.isOver now now' = false) :
    j.verify token now' = .ok ⟨inviter, invitee, now⟩ := by
  obtain ⟨entropy, rfl⟩ := exists_ofPayload_of_run_issue hrun
  rw [verify_ofPayload hkey, hfresh, if_neg Bool.false_ne_true,
    Payload.fittingInviter_eq_self hfits]

/-! ## Verifying for a recipient -/

/-- What a text says is said to the recipient that it names. -/
lemma verifyFor_of_verify {i : Issuer} {text : String} {now : UInt64} {c : Contents}
    (h : i.verify text now = .ok c) : i.verifyFor text c.invitee now = .ok c := by
  rw [verifyFor, h]
  exact if_pos rfl

/-- A forged text is invalid whoever it is to be made out to. -/
lemma verifyFor_of_forged {i : Issuer} {text : String} (h : Token.Forged i.key.bytes text)
    (expected : String) (now : UInt64) :
    i.verifyFor text expected now = .error .invalidToken := by
  rw [verifyFor, verify_of_forged h]

/-- An authentic text is judged by its age, and within its lifetime by its recipient. -/
lemma verifyFor_of_authentic {i : Issuer} {text : String} {p : Payload}
    (h : Token.Authentic i.key.bytes text p) (expected : String) (now : UInt64) :
    i.verifyFor text expected now =
      if i.settings.lifetime.isOver p.timestamp now then .error .tokenExpired
      else if p.invitee = expected then .ok p.contents
      else .error .invalidToken := by
  rw [verifyFor, verify_of_authentic h]
  by_cases hover : i.settings.lifetime.isOver p.timestamp now = true
  · rw [if_pos hover, if_pos hover]
  · rw [if_neg hover, if_neg hover]
    rfl

end Invitation.Issuer
