import Invitation.Proofs.Encryptor.Opening
import Invitation.Proofs.Issuer.RoundTrip

/-!
# Texts that were stored come back

With the usual encryptor an issuer hands the key for storage to the sealing of a text, and that key
always has the length that the cipher takes (`storageKey`).  So storing fails for a want of random
bytes or for a text beyond the cipher's reach, and for no other reason.  What it gives is the stored
form of the text under that key and the nonce that was drawn, and every issuer with the same signing
key gets the text back as it was (`restore_store`).  Whoever verifies it afterwards gets the answer
that the text had before.
-/

namespace Invitation.Issuer

open ChaCha20 (nonceSize)

/-! ## The usual encryptor under the key for storage -/

/-- With the usual encryptor, storing is sealing under the key for storage. -/
lemma store_eq_sealText {i : Issuer} (h : i.encryptor = .chacha) (text : String) :
    i.store text = Encryptor.sealText i.key.storageKey.bytes text := by
  rw [store, h]
  rfl

/-- With the usual encryptor, restoring is opening under the key for storage. -/
lemma restore_eq_openText {i : Issuer} (h : i.encryptor = .chacha) (stored : String) :
    i.restore stored = Encryptor.openText i.key.storageKey.bytes stored := by
  rw [restore, h]
  rfl

/-- What is restored to the text itself is verified as the text is. -/
lemma verify_restored {j : Issuer} {stored text : String} (h : j.restore stored = .ok text)
    (k : Issuer) (expected : String) (now : UInt64) :
    (j.restore stored >>= fun restored => k.verify restored now) = k.verify text now
      ∧ (j.restore stored >>= fun restored => k.verifyFor restored expected now)
        = k.verifyFor text expected now := by
  rw [h]
  exact ⟨rfl, rfl⟩

/-! ## The round trip -/

/-- While twelve random bytes are left, an issuer with the usual encryptor stores every text within
the cipher's reach as its stored form under the key for storage and these bytes, which is the base64
text of them and of sixteen more than the text has.  Under the same signing key the text is restored
as it was, and verified as it was before.  Neither storing nor restoring ever fails for the length
of the key. -/
theorem restore_store (i : Issuer) (h : i.encryptor = .chacha) :
    (∀ (text : String) (env : Environment), text.utf8ByteSize < 64 * (2 ^ 32 - 1) →
      12 ≤ env.entropy.length →
        ∃ (nonce : Block nonceSize) (stored : String) (body : Bytes),
          (i.store text).run env = (.ok stored, { env with entropy := env.entropy.drop 12 })
            ∧ nonce.bytes = env.entropy.take 12
            ∧ stored = Encryptor.storedText i.key.storageKey nonce text
            ∧ stored = Base64Url.encode (env.entropy.take 12 ++ body)
            ∧ (env.entropy.take 12 ++ body).length = 28 + text.utf8ByteSize
            ∧ stored.length = (4 * (28 + text.utf8ByteSize) + 2) / 3
            ∧ ∀ j : Issuer, j.key = i.key → j.encryptor = .chacha →
              j.restore stored = .ok text
                ∧ ∀ (k : Issuer) (expected : String) (now : UInt64),
                  (j.restore stored >>= fun restored => k.verify restored now) = k.verify text now
                    ∧ (j.restore stored >>= fun restored => k.verifyFor restored expected now)
                      = k.verifyFor text expected now)
    ∧ (∀ (text : String) (env env' : Environment),
        (i.store text).run env ≠ (.error (.sealing .keyLength), env'))
    ∧ ∀ stored : String, i.restore stored ≠ .error (.opening .keyLength) := by
  refine ⟨?_, ?_, ?_⟩
  · intro text env hsize henough
    have hroom := Sealed.not_tooLong_encode_iff.2 hsize
    let nonce : Block nonceSize := ⟨env.entropy.take 12, List.length_take_of_le henough⟩
    obtain ⟨body, hbody, hstored⟩ := Encryptor.storedText_eq_encode i.key.storageKey nonce text
    refine ⟨nonce, Encryptor.storedText i.key.storageKey nonce text, body, ?_, rfl, rfl, hstored,
      ?_, Encryptor.length_storedText _ _ _, ?_⟩
    · rw [store_eq_sealText h]
      exact Encryptor.run_sealText i.key.storageKey henough hroom
    · rw [List.length_append, List.length_take_of_le henough, hbody]
      omega
    · intro j hkey hj
      have hrestored : j.restore (Encryptor.storedText i.key.storageKey nonce text) = .ok text := by
        rw [restore_eq_openText hj, hkey]
        exact Encryptor.openText_storedText _ _ hroom
      exact ⟨hrestored, verify_restored hrestored⟩
  · intro text env env' hfails
    rw [store_eq_sealText h] at hfails
    rcases Encryptor.error_of_run_sealText i.key.storageKey hfails with he | he
    · cases he
    · cases he
  · intro stored
    rw [restore_eq_openText h]
    exact Encryptor.openText_ne_keyLength i.key.storageKey stored

/-- Contents with names beyond ASCII whose token takes three blocks of keystream. -/
def wordy : Contents := ⟨"josé.müller@example.com 👋👋👋", "李雷@例子.中国", 1700000000⟩

/-- A token of three blocks is stored, and an issuer with other settings finds in what it restores
the contents that it was issued with, also for the recipient that they name. -/
theorem restore_store_of_token :
    ∃ (token : String) (env' : Environment) (nonce : Block nonceSize) (stored : String),
      ((trial .usual).issue wordy.inviter wordy.invitee wordy.createdAt).run
          ⟨List.replicate 16 0x11, []⟩ = (.ok token, env')
        ∧ token.utf8ByteSize = 134
        ∧ (trial .usual).encryptor = .chacha ∧ token.utf8ByteSize < 64 * (2 ^ 32 - 1)
        ∧ 12 ≤ (List.replicate 12 (0x01 : UInt8)).length
        ∧ ((trial .usual).store token).run ⟨List.replicate 12 0x01, []⟩ = (.ok stored, ⟨[], []⟩)
        ∧ nonce.bytes = List.replicate 12 0x01
        ∧ stored = Encryptor.storedText (trial .usual).key.storageKey nonce token
        ∧ stored.length = 216
        ∧ (trial (.ofLifetime (.ofSeconds 60))).restore stored = .ok token
        ∧ ((trial (.ofLifetime (.ofSeconds 60))).restore stored >>= fun restored =>
            (trial (.ofLifetime (.ofSeconds 60))).verify restored 1700000060) = .ok wordy
        ∧ ((trial (.ofLifetime (.ofSeconds 60))).restore stored >>= fun restored =>
            (trial (.ofLifetime (.ofSeconds 60))).verifyFor restored wordy.invitee 1700000060)
          = .ok wordy := by
  have henough : 12 ≤ (List.replicate 12 (0x01 : UInt8)).length := by decide
  have hfits : (Utf8.encode wordy.inviter).length ≤ Payload.maxInviterLength := by decide
  obtain ⟨token, env', hrun⟩ :=
    exists_run_issue_trial wordy.inviter wordy.invitee wordy.createdAt
  have hlen : token.utf8ByteSize = 134 := by
    obtain ⟨entropy, rfl⟩ := exists_ofPayload_of_run_issue hrun
    rw [Token.utf8ByteSize_ofPayload, Payload.fittingInviter_eq_self hfits]
    change (4 * (42 + wordy.inviter.utf8ByteSize + wordy.invitee.utf8ByteSize) + 2) / 3 = 134
    decide
  have hsize : token.utf8ByteSize < 64 * (2 ^ 32 - 1) := by omega
  obtain ⟨nonce, stored, -, hstore, hnonce, hstored, -, -, hlength, hrestore⟩ :=
    (restore_store (trial .usual) rfl).1 token ⟨List.replicate 12 0x01, []⟩ hsize henough
  obtain ⟨hrestored, hanswers⟩ := hrestore (trial (.ofLifetime (.ofSeconds 60))) rfl rfl
  have hverify : (trial (.ofLifetime (.ofSeconds 60))).verify token 1700000060 = .ok wordy :=
    verify_of_run_issue hrun rfl hfits (by decide)
  obtain ⟨hsame, hsameFor⟩ :=
    hanswers (trial (.ofLifetime (.ofSeconds 60))) wordy.invitee 1700000060
  refine ⟨token, env', nonce, stored, hrun, hlen, rfl, hsize, henough, hstore, hnonce, hstored, ?_,
    hrestored, hsame.trans hverify, hsameFor.trans (verifyFor_of_verify hverify)⟩
  rw [hlength, hlen]

end Invitation.Issuer
