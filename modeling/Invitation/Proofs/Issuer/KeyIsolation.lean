import Invitation.Proofs.Hash.KeyFolding
import Invitation.Proofs.Issuer.Canonicity

/-!
# Tokens under another key

A token that was issued under one key is invalid under another unless both keys give its payload
the same tag.  That depends on the keys in two ways.  Keys that are folded into one block are one
key to an issuer: every text gets the same answer under both, and a key with zeros at its end, or a
key of more than a block next to its own digest, is such a case.  Under all other keys a token is
invalid unless its payload makes two texts collide that are named here
(`verify_issue_of_other_key`).
-/

namespace Invitation

namespace Token

/-- Two keys with one block find the same payloads in all texts. -/
lemma authentic?_of_keyBlock_eq {key key' : Bytes} (h : Hmac.keyBlock key = Hmac.keyBlock key')
    (text : String) : authentic? key text = authentic? key' text := by
  have htag : Tag.of key = Tag.of key' := by
    funext message
    exact Tag.of_eq_of_iff.2 (.inl h)
  have hcheck : Tag.check key = Tag.check key' := by
    funext message tag
    rw [Tag.check, Tag.check, htag]
  unfold authentic?
  rw [hcheck]

end Token

namespace Issuer

/-- The answer to a text depends on the payload that is found in it and on the lifetime alone. -/
lemma verify_congr {i j : Issuer} {text : String}
    (hlife : i.settings.lifetime = j.settings.lifetime)
    (h : Token.authentic? i.key.bytes text = Token.authentic? j.key.bytes text) (now : UInt64) :
    i.verify text now = j.verify text now := by
  rw [verify, verify, h, hlife]

/-- A token is invalid under another key exactly if that key gives its payload another tag. -/
lemma verify_ofPayload_eq_invalidToken_iff (j : Issuer) (key : Bytes) (p : Payload)
    (now : UInt64) :
    j.verify (Token.ofPayload key p) now = .error .invalidToken ↔
      Tag.of key p.encode ≠ Tag.of j.key.bytes p.encode := by
  rw [verify_eq_invalidToken_iff, ← Token.authentic?_eq_none_iff, Token.authentic?_ofPayload,
    ite_eq_right_iff]
  constructor
  · intro h htag
    cases h htag
  · intro h htag
    exact absurd htag h

/-- Under a key that gives its payload the same tag, a token gets the answer that it gets under the
key it was made with. -/
lemma verify_ofPayload_of_tag_eq {j : Issuer} {key : SigningKey} {p : Payload}
    (h : Tag.of key.bytes p.encode = Tag.of j.key.bytes p.encode) (now : UInt64) :
    j.verify (Token.ofPayload key.bytes p) now
      = { j with key := key }.verify (Token.ofPayload key.bytes p) now := by
  refine verify_congr ?_ ?_ now
  · rfl
  · rw [Token.authentic?_ofPayload, Token.authentic?_ofPayload, if_pos h, if_pos rfl]

/-- An issued token is invalid under another key exactly if the two keys are not folded into one
block and their outer texts for its payload do not collide; otherwise it is taken for the other's
own.  Keys with one block cannot be told apart by any text, and those are the keys of which one,
folded, is the other followed by zeros; keys of one length that fit in a block are never so. -/
theorem verify_issue_of_other_key (key key' : SigningKey) :
    (∀ (i j : Issuer) (inviter invitee token : String) (now now' : UInt64)
        (env env' : Environment), i.key = key → j.key = key' →
        (i.issue inviter invitee now).run env = (.ok token, env') →
          (j.verify token now' = .error .invalidToken ↔
            Hmac.keyBlock key.bytes ≠ Hmac.keyBlock key'.bytes
              ∧ ¬ Sha256.HalfCollision (Hmac.outer key.bytes (Token.carelessPayload token))
                (Hmac.outer key'.bytes (Token.carelessPayload token)))
          ∧ (j.verify token now' ≠ .error .invalidToken →
            j.verify token now' = { j with key := key }.verify token now'))
    ∧ (Hmac.keyBlock key.bytes = Hmac.keyBlock key'.bytes →
        ∀ (settings : Settings) (encryptor : Encryptor) (text : String) (now : UInt64),
          verify ⟨key, settings, encryptor⟩ text now = verify ⟨key', settings, encryptor⟩ text now)
    ∧ (Hmac.keyBlock key.bytes = Hmac.keyBlock key'.bytes ↔
        (∃ k, Hmac.folded key'.bytes = Hmac.folded key.bytes ++ List.replicate k 0)
          ∨ ∃ k, Hmac.folded key.bytes = Hmac.folded key'.bytes ++ List.replicate k 0)
    ∧ (key.length ≤ 64 → key.length = key'.length → key ≠ key' →
        Hmac.keyBlock key.bytes ≠ Hmac.keyBlock key'.bytes) := by
  refine ⟨?_, ?_, Hmac.keyBlock_eq_iff, ?_⟩
  · rintro i j inviter invitee token now now' env env' rfl rfl hrun
    obtain ⟨entropy, htoken⟩ := exists_ofPayload_of_run_issue hrun
    have hinvalid := verify_ofPayload_eq_invalidToken_iff j i.key.bytes
      ⟨entropy, now, inviter, invitee⟩ now'
    rw [htoken, Token.carelessPayload_ofPayload]
    constructor
    · rw [hinvalid, ne_eq, Tag.of_eq_of_iff, not_or]
    · intro hvalid
      exact verify_ofPayload_of_tag_eq (not_not.1 (mt hinvalid.2 hvalid)) now'
  · intro h settings encryptor text now
    refine verify_congr ?_ ?_ now
    · rfl
    · exact Token.authentic?_of_keyBlock_eq h text
  · intro hsize hlen hne h
    have hbytes : key.bytes = key'.bytes := Hmac.eq_of_keyBlock_eq hsize hlen h
    cases key
    cases key'
    cases hbytes
    exact hne rfl

/-- An issuer for trials with another key of 32 equal bytes. -/
def otherTrial : Issuer where
  key := ⟨List.replicate 32 0x24, by decide⟩
  settings := .usual
  encryptor := .chacha

/-- Two keys of 32 equal bytes are not folded into one block, and a token that was issued under the
first is invalid under the second. -/
theorem verify_issue_of_unlike_key :
    (trial .usual).key.length ≤ 64 ∧ (trial .usual).key.length = otherTrial.key.length
      ∧ (trial .usual).key ≠ otherTrial.key
      ∧ Hmac.keyBlock (trial .usual).key.bytes ≠ Hmac.keyBlock otherTrial.key.bytes
      ∧ ∃ (token : String) (env' : Environment),
        ((trial .usual).issue "alice" "bob" 1700000000).run ⟨List.replicate 16 0x11, []⟩
            = (.ok token, env')
          ∧ ¬ Sha256.HalfCollision
            (Hmac.outer (trial .usual).key.bytes (Token.carelessPayload token))
            (Hmac.outer otherTrial.key.bytes (Token.carelessPayload token))
          ∧ otherTrial.verify token 1700000000 = .error .invalidToken := by
  obtain ⟨hissued, -, -, hunlike⟩ :=
    verify_issue_of_other_key (trial .usual).key otherTrial.key
  have hsize : (trial .usual).key.length ≤ 64 := by decide
  have hlen : (trial .usual).key.length = otherTrial.key.length := by decide
  have hne : (trial .usual).key ≠ otherTrial.key := by decide
  have hblock := hunlike hsize hlen hne
  let p : Payload := ⟨⟨List.replicate 16 0x11, List.length_replicate⟩, 1700000000, "alice", "bob"⟩
  have hrun := run_issue_append (trial .usual) "alice" "bob" 1700000000 p.entropy [] []
  have htag : Tag.of (trial .usual).key.bytes p.encode ≠ Tag.of otherTrial.key.bytes p.encode := by
    decide +kernel
  have hcollision : ¬ Sha256.HalfCollision (Hmac.outer (trial .usual).key.bytes p.encode)
      (Hmac.outer otherTrial.key.bytes p.encode) :=
    fun h => htag (Tag.of_eq_of_iff.2 (.inr h))
  rw [← Token.carelessPayload_ofPayload (trial .usual).key.bytes p] at hcollision
  refine ⟨hsize, hlen, hne, hblock, _, _, hrun, hcollision, ?_⟩
  exact (hissued (trial .usual) otherTrial "alice" "bob" _ 1700000000 1700000000 _ _ rfl rfl
    hrun).1.2 ⟨hblock, hcollision⟩

/-- The issuer for trials with one zero more at the end of its key. -/
def paddedTrial : Issuer where
  key := ⟨List.replicate 32 0x42 ++ [0], by decide⟩
  settings := .usual
  encryptor := .chacha

/-- A token is accepted under a key that has one zero more at its end. -/
theorem verify_under_padded_key :
    SigningKey.ofBytes (List.replicate 32 0x42) = .ok (trial .usual).key
      ∧ SigningKey.ofBytes (List.replicate 32 0x42 ++ [0]) = .ok paddedTrial.key
      ∧ (trial .usual).key.bytes ≠ paddedTrial.key.bytes
      ∧ ∃ (token : String) (env' : Environment),
        ((trial .usual).issue "alice" "bob" 1700000000).run ⟨List.replicate 16 0x11, []⟩
            = (.ok token, env')
          ∧ paddedTrial.verify token 1700000000 = .ok ⟨"alice", "bob", 1700000000⟩ := by
  have hroom : (List.replicate 32 (0x42 : UInt8)).length + 1 ≤ Sha256.blockSize := by decide
  have hblock : Hmac.keyBlock paddedTrial.key.bytes = Hmac.keyBlock (trial .usual).key.bytes :=
    Hmac.keyBlock_append_zeros hroom
  obtain ⟨token, env', hrun⟩ := exists_run_issue_trial "alice" "bob" 1700000000
  have hsame : paddedTrial.verify token 1700000000 = (trial .usual).verify token 1700000000 :=
    verify_congr rfl (Token.authentic?_of_keyBlock_eq hblock token) 1700000000
  refine ⟨rfl, rfl, by decide, token, env', hrun, hsame.trans ?_⟩
  exact verify_of_run_issue hrun rfl (by decide) (by decide)

end Issuer

end Invitation
