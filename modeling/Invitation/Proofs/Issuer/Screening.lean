import Invitation.Proofs.Issuer.RoundTrip
import Invitation.Proofs.Text.Base64Form
import Invitation.Proofs.Text.Boundary

/-!
# Texts that do not look like tokens

Whoever is handed a text can tell by its looks that it is no token, before any key is at hand
(`Token.isWellFormed`).  The look goes no further than the form of base64 and a length of 56
characters or more, as 42 bytes take so many (`Token.isWellFormed_iff_regular`).  It never turns
away what a verifier would take: every authentic text passes (`Token.isWellFormed_of_authentic`), so
one that does not pass is invalid under every key, and what is issued always passes
(`screening_is_exact`).
-/

namespace Invitation

namespace Token

/-- A text passes exactly if it is base64 by its form and has 56 characters or more. -/
lemma isWellFormed_iff_regular {text : String} :
    isWellFormed text = true ↔ Base64Url.Regular text ∧ 56 ≤ (Utf8.encode text).length := by
  rw [← Base64Url.decode_isOk_iff_regular, isWellFormed]
  cases h : Base64Url.decode text with
  | error fault => simp
  | ok data =>
    have hlen := Base64Url.length_of_decode h
    have hsize : minSize = 42 := rfl
    simp only [decide_eq_true_eq, hsize, Except.ok.injEq, exists_eq', true_and]
    omega

/-- Authentic texts pass. -/
lemma isWellFormed_of_authentic {key : Bytes} {text : String} {p : Payload}
    (h : Authentic key text p) : isWellFormed text = true := by
  obtain ⟨message, hdecode, hp⟩ := h
  have hmessage := headerSize_le_of_decode hp
  rw [← of_bytes] at hdecode
  have hlen : minSize ≤ (message ++ (Tag.of key message).bytes).length := by
    rw [List.length_append, (Tag.of key message).property]
    exact Nat.add_le_add_right hmessage _
  simp only [isWellFormed, hdecode, hlen, decide_true]

/-- What does not pass is forged under every key. -/
lemma forged_of_not_isWellFormed {text : String} (h : isWellFormed text = false) (key : Bytes) :
    Forged key text := by
  rcases forged_or_authentic key text with hforged | ⟨p, hp⟩
  · exact hforged
  · rw [isWellFormed_of_authentic hp] at h
    cases h

/-- Tokens pass. -/
lemma isWellFormed_ofPayload (key : Bytes) (p : Payload) :
    isWellFormed (ofPayload key p) = true := by
  have hp := authentic?_ofPayload key key p
  rw [if_pos rfl] at hp
  exact isWellFormed_of_authentic (authentic?_eq_some_iff.1 hp)

end Token

namespace Issuer

/-- A text passes the look exactly if it is base64 by its form and has 56 characters or more.  One
that does not pass is invalid, whoever verifies it, at all times and for all recipients; all that is
issued passes. -/
theorem screening_is_exact :
    (∀ text : String, Token.isWellFormed text = true ↔
      Base64Url.Regular text ∧ 56 ≤ (Utf8.encode text).length)
    ∧ (∀ (i : Issuer) (text expected : String) (now : UInt64), Token.isWellFormed text = false →
      i.verify text now = .error .invalidToken
        ∧ i.verifyFor text expected now = .error .invalidToken)
    ∧ ∀ (i : Issuer) (inviter invitee token : String) (now : UInt64) (env env' : Environment),
      (i.issue inviter invitee now).run env = (.ok token, env') →
        Token.isWellFormed token = true := by
  refine ⟨fun text => Token.isWellFormed_iff_regular, ?_, ?_⟩
  · intro i text expected now h
    have hforged := Token.forged_of_not_isWellFormed h i.key.bytes
    exact ⟨verify_of_forged hforged now, verifyFor_of_forged hforged expected now⟩
  · intro i inviter invitee token now env env' hrun
    obtain ⟨entropy, rfl⟩ := exists_ofPayload_of_run_issue hrun
    exact Token.isWellFormed_ofPayload _ _

/-- A token passes, and padded it does not, as the byte that pads is not in the alphabet. -/
theorem screening_of_padded_token :
    ∃ (token : String) (env' : Environment),
      ((trial .usual).issue "alice" "bob" 1700000000).run ⟨List.replicate 16 0x11, []⟩
          = (.ok token, env')
        ∧ Token.isWellFormed token = true
        ∧ Token.isWellFormed (token ++ "=") = false
        ∧ (trial .usual).verify (token ++ "=") 1700000000 = .error .invalidToken
        ∧ (trial .usual).verifyFor (token ++ "=") "bob" 1700000000 = .error .invalidToken := by
  obtain ⟨hform, hrefused, hissued⟩ := screening_is_exact
  obtain ⟨token, env', hrun⟩ := exists_run_issue_trial "alice" "bob" 1700000000
  have hpadded : Token.isWellFormed (token ++ "=") = false := by
    rw [← Bool.not_eq_true, hform]
    rintro ⟨hregular, -⟩
    have hmem : Base64Url.pad ∈ Utf8.encode (token ++ "=") := by
      rw [Utf8.encode_append]
      exact List.mem_append_right _ (by decide)
    obtain ⟨n, hn⟩ := hregular.symbols _ hmem
    obtain ⟨x, hx, -⟩ := Base64Url.standsFor_iff.1 hn
    exact Base64Url.symbol_ne_pad x hx
  exact ⟨token, env', hrun, hissued _ _ _ _ _ _ _ hrun, hpadded,
    hrefused (trial .usual) _ "bob" 1700000000 hpadded⟩

end Issuer

end Invitation
