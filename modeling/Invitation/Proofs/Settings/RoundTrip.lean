import Invitation.Issuer
import Invitation.Proofs.Settings.Documents

/-!
# Settings survive their document

A document has no place for nanoseconds.  What is read from it are the same settings with a lifetime
of whole seconds (`whole`), which are written the same way again.  An issuer never looks at the
nanoseconds either, so one with the settings that were read cannot be told from one with the
settings that were written by what they issue, verify or shorten (`Issuer.SameAnswers`).
-/

namespace Invitation

/-! ## Issuers that answer alike -/

/-- Two issuers that give the same answers.  Issuing counts with what it does to the environment: it
takes the same random bytes and tells the log the same. -/
structure Issuer.SameAnswers (i j : Issuer) : Prop where
  issue : ∀ (inviter invitee : String) (now : UInt64) (env : Environment),
    (i.issue inviter invitee now).run env = (j.issue inviter invitee now).run env
  verify : ∀ (text : String) (now : UInt64), i.verify text now = j.verify text now
  verifyFor : ∀ (text expected : String) (now : UInt64),
    i.verifyFor text expected now = j.verifyFor text expected now
  shortCode : ∀ text : String, i.shortCode text = j.shortCode text

/-- An issuer answers by its key, the whole seconds of its lifetime and the length that its short
codes come to. -/
lemma Issuer.sameAnswers_of {i j : Issuer} (hkey : i.key = j.key)
    (hseconds : i.settings.lifetime.seconds = j.settings.lifetime.seconds)
    (hlength : Settings.clampLength i.settings.codeLength
      = Settings.clampLength j.settings.codeLength) : i.SameAnswers j := by
  have hover (created now : UInt64) :
      i.settings.lifetime.isOver created now = j.settings.lifetime.isOver created now := by
    rw [Lifetime.isOver, Lifetime.isOver, hseconds]
  have hverify (text : String) (now : UInt64) : i.verify text now = j.verify text now := by
    simp only [Issuer.verify, hkey, hover]
  refine ⟨fun inviter invitee now env => ?_, hverify, fun text expected now => ?_, fun text => ?_⟩
  · rw [Issuer.issue, Issuer.issue, hkey]
  · rw [Issuer.verifyFor, Issuer.verifyFor, hverify]
  · rw [Issuer.shortCode, Issuer.shortCode, Invitation.shortCode, Invitation.shortCode, hkey,
      hlength]

/-! ## Whole seconds -/

namespace Settings

/-- The settings without the nanoseconds of the lifetime. -/
def whole (s : Settings) : Settings := s.withLifetime (.ofSeconds s.lifetime.seconds)

/-- Settings are whole exactly if their lifetime has no part of a second. -/
lemma whole_eq_self_iff {s : Settings} : s.whole = s ↔ s.lifetime.nanoseconds = 0 := by
  obtain ⟨⟨seconds, nanoseconds⟩, length⟩ := s
  simp only [whole, withLifetime, Lifetime.ofSeconds, Settings.mk.injEq, Lifetime.mk.injEq,
    true_and, and_true]
  exact eq_comm

/-- Nanoseconds are not written. -/
lemma document_whole (s : Settings) : document s.whole = document s := rfl

/-- Any settings are read from the document that is written of them, but for the nanoseconds, and
are written the same way again; and no answer of an issuer, nor the last second that a holder can be
told, depends on which of them it has. -/
theorem document_round_trip (s : Settings) :
    ∃ parsed, ofDocument (document s) = .ok parsed
      ∧ parsed = { s with lifetime := { s.lifetime with nanoseconds := 0 } }
      ∧ (parsed = s ↔ s.lifetime.nanoseconds = 0)
      ∧ document parsed = document s
      ∧ (∀ (key : SigningKey) (encryptor encryptor' : Encryptor),
        Issuer.SameAnswers ⟨key, s, encryptor⟩ ⟨key, parsed, encryptor'⟩)
      ∧ ∀ c : Contents, c.expiresAt s.lifetime = c.expiresAt parsed.lifetime := by
  have hseconds : s.whole.lifetime.seconds = s.lifetime.seconds := rfl
  refine ⟨s.whole, ofDocument_document s, rfl, whole_eq_self_iff, document_whole s, ?_, ?_⟩
  · intro key encryptor encryptor'
    exact Issuer.sameAnswers_of rfl hseconds.symm rfl
  · intro c
    rw [Contents.expiresAt, Contents.expiresAt, Lifetime.lastSecond, Lifetime.lastSecond, hseconds]

end Settings

end Invitation
