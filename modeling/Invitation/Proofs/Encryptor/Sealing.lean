import Invitation.Encryptor
import Invitation.Text.Base64Url.Lemmas
import Mathlib.Algebra.Group.Nat.Defs

/-!
# Outcomes of sealing

Under a key of 32 bytes a text that is not too long has one stored form for each nonce
(`storedText`).  Sealing draws a nonce and gives that form; it fails without a change if the key has
another length or the random bytes do not suffice, and after the draw if the text is too long.
Nothing else ever happens (`cases_run_sealText`).

A stored form shows its nonce, and under one key it shows the text as well, since enciphering loses
nothing (`storedText_inj`).
-/

namespace Invitation

namespace Block

variable {n : Nat}

/-- A string of another length is no block. -/
lemma ofBytes?_of_ne {b : Bytes} (h : b.length ≠ n) : ofBytes? n b = none := dif_neg h

end Block

/-- What can be sealed is shorter than the keystream that the counter reaches. -/
lemma Sealed.not_tooLong_encode_iff {text : String} :
    ¬ TooLong (Utf8.encode text) ↔ text.utf8ByteSize < 64 * (2 ^ 32 - 1) := by
  have hblocks : maxBlocks = 2 ^ 32 - 1 := rfl
  have hsize : ChaCha20.blockSize = 64 := rfl
  rw [TooLong, Nat.not_le, Utf8.length_encode, hblocks, hsize, Nat.div_lt_iff_lt_mul (by decide),
    Nat.mul_comm]

namespace Encryptor

open ChaCha20 (keySize nonceSize)

/-- The stored form of a text under a key and a nonce. -/
def storedText (key : Block keySize) (nonce : Block nonceSize) (text : String) : String :=
  let body := ChaCha20.cipher key nonce (Utf8.encode text)
  Base64Url.encode (nonce.bytes ++ body ++ (Sealed.tagOf key nonce body).bytes)

/-- The stored form of a text that is not too long is what sealing the text makes, with its nonce
in front. -/
lemma exists_seal?_of_not_tooLong (key : Block keySize) (nonce : Block nonceSize) {text : String}
    (h : ¬ Sealed.TooLong (Utf8.encode text)) :
    ∃ s, Sealed.seal? key nonce (Utf8.encode text) = some s
      ∧ storedText key nonce text = Base64Url.encode (Stored.bytes ⟨nonce, s⟩) :=
  ⟨_, Sealed.seal?_eq_some_iff.2 ⟨h, rfl⟩, rfl⟩

/-! ## Sealing -/

/-- Under a key of another length nothing is sealed and nothing is drawn. -/
lemma run_sealText_of_keyLength {key : Bytes} (h : key.length ≠ keySize) (text : String)
    (env : Environment) :
    (sealText key text).run env = (.error (.sealing .keyLength), env) := by
  rw [sealText, Block.ofBytes?_of_ne h]
  rfl

/-- Without enough random bytes nothing is sealed and nothing is drawn. -/
lemma run_sealText_of_short (key : Block keySize) (text : String) {env : Environment}
    (h : ¬ nonceSize ≤ env.entropy.length) :
    (sealText key.bytes text).run env = (.error .randomnessExhausted, env) := by
  simp only [sealText, Block.ofBytes?_bytes, Action.run_bind, Action.run_draw_of_short h]

/-- A text that is not too long is given its stored form under the next random bytes. -/
lemma run_sealText (key : Block keySize) {text : String} {env : Environment}
    (h : nonceSize ≤ env.entropy.length) (hroom : ¬ Sealed.TooLong (Utf8.encode text)) :
    (sealText key.bytes text).run env =
      (.ok (storedText key ⟨env.entropy.take nonceSize, List.length_take_of_le h⟩ text),
        { env with entropy := env.entropy.drop nonceSize }) := by
  simp only [sealText, Block.ofBytes?_bytes, Action.run_bind, Action.run_draw, dif_pos h,
    Sealed.seal?, if_neg hroom, Action.run_pure]
  rfl

/-- The nonce is what stands first among the random bytes. -/
lemma run_sealText_append (key : Block keySize) (nonce : Block nonceSize) {text : String}
    (hroom : ¬ Sealed.TooLong (Utf8.encode text)) (rest : Bytes) (log : List Event) :
    (sealText key.bytes text).run ⟨nonce.bytes ++ rest, log⟩ =
      (.ok (storedText key nonce text), ⟨rest, log⟩) := by
  simp only [sealText, Block.ofBytes?_bytes, Action.run_bind, Action.run_draw_append,
    Sealed.seal?, if_neg hroom, Action.run_pure]
  rfl

/-- A text that is too long is not sealed, and the nonce is lost. -/
lemma run_sealText_of_tooLong (key : Block keySize) (nonce : Block nonceSize) {text : String}
    (hlong : Sealed.TooLong (Utf8.encode text)) (rest : Bytes) (log : List Event) :
    (sealText key.bytes text).run ⟨nonce.bytes ++ rest, log⟩ =
      (.error (.sealing .tooLong), ⟨rest, log⟩) := by
  simp only [sealText, Block.ofBytes?_bytes, Action.run_bind, Action.run_draw_append,
    Sealed.seal?, if_pos hlong, Action.run_throw]

/-- Sealing under a key of the right length changes nothing or draws a nonce, and then the length of
the text decides. -/
lemma cases_run_sealText (key : Block keySize) (text : String) (env : Environment) :
    (sealText key.bytes text).run env = (.error .randomnessExhausted, env)
    ∨ ∃ (nonce : Block nonceSize) (rest : Bytes), env.entropy = nonce.bytes ++ rest
      ∧ (Sealed.TooLong (Utf8.encode text)
          ∧ (sealText key.bytes text).run env = (.error (.sealing .tooLong), ⟨rest, env.log⟩)
        ∨ ¬ Sealed.TooLong (Utf8.encode text)
          ∧ (sealText key.bytes text).run env
            = (.ok (storedText key nonce text), ⟨rest, env.log⟩)) := by
  obtain ⟨entropy, log⟩ := env
  by_cases hsize : nonceSize ≤ entropy.length
  · obtain ⟨nonce, rest, rfl⟩ := Block.exists_eq_append hsize
    refine .inr ⟨nonce, rest, rfl, ?_⟩
    by_cases hlong : Sealed.TooLong (Utf8.encode text)
    · exact .inl ⟨hlong, run_sealText_of_tooLong key nonce hlong rest log⟩
    · exact .inr ⟨hlong, run_sealText_append key nonce hlong rest log⟩
  · exact .inl (run_sealText_of_short key text hsize)

/-- What sealing gives is the stored form under what was drawn. -/
lemma exists_storedText_of_run_sealText {key : Bytes} {text stored : String}
    {env env' : Environment} (h : (sealText key text).run env = (.ok stored, env')) :
    ∃ (block : Block keySize) (nonce : Block nonceSize), key = block.bytes
      ∧ env.entropy = nonce.bytes ++ env'.entropy ∧ env'.log = env.log
      ∧ ¬ Sealed.TooLong (Utf8.encode text) ∧ stored = storedText block nonce text := by
  by_cases hkey : key.length = keySize
  · obtain ⟨block, rfl⟩ : ∃ block : Block keySize, key = block.bytes := ⟨⟨key, hkey⟩, rfl⟩
    rcases cases_run_sealText block text env with hrun | ⟨nonce, rest, hdrawn, hrest⟩
    · cases hrun.symm.trans h
    · rcases hrest with ⟨-, hrun⟩ | ⟨hroom, hrun⟩
      · cases hrun.symm.trans h
      · cases hrun.symm.trans h
        exact ⟨block, nonce, rfl, hdrawn, rfl, hroom, rfl⟩
  · cases (run_sealText_of_keyLength hkey text env).symm.trans h

/-- Sealing under a key of the right length never complains about it. -/
lemma error_of_run_sealText (key : Block keySize) {text : String} {env env' : Environment}
    {e : Error} (h : (sealText key.bytes text).run env = (.error e, env')) :
    e = .randomnessExhausted ∨ e = .sealing .tooLong := by
  rcases cases_run_sealText key text env with hrun | ⟨nonce, rest, -, ⟨-, hrun⟩ | ⟨-, hrun⟩⟩
  · cases hrun.symm.trans h
    exact .inl rfl
  · cases hrun.symm.trans h
    exact .inr rfl
  · cases hrun.symm.trans h

/-! ## Stored forms -/

/-- A stored form spells its nonce, the ciphertext and the tag. -/
lemma storedText_eq_encode (key : Block keySize) (nonce : Block nonceSize) (text : String) :
    ∃ body : Bytes, body.length = text.utf8ByteSize + 16
      ∧ storedText key nonce text = Base64Url.encode (nonce.bytes ++ body) := by
  refine ⟨_, ?_, congrArg Base64Url.encode (List.append_assoc _ _ _)⟩
  rw [List.length_append, ChaCha20.length_cipher, Utf8.length_encode, (Sealed.tagOf _ _ _).property]
  rfl

/-- The length of a stored form depends on that of the text alone. -/
lemma length_storedText (key : Block keySize) (nonce : Block nonceSize) (text : String) :
    (storedText key nonce text).length = (4 * (28 + text.utf8ByteSize) + 2) / 3 := by
  obtain ⟨body, hbody, hstored⟩ := storedText_eq_encode key nonce text
  have hbytes : (nonce.bytes ++ body).length = 28 + text.utf8ByteSize := by
    rw [List.length_append, nonce.property, hbody, Nat.add_comm text.utf8ByteSize]
    exact (Nat.add_assoc 12 16 _).symm
  rw [hstored, Base64Url.length_encode, Base64Url.length_digits, hbytes]

/-- A stored form shows its nonce, and under one key it shows its text. -/
lemma storedText_inj {key key' : Block keySize} {nonce nonce' : Block nonceSize}
    {text text' : String} (h : storedText key nonce text = storedText key' nonce' text') :
    nonce = nonce' ∧ (key = key' → text = text') := by
  have hbytes := Base64Url.encode_injective h
  rw [List.append_assoc, List.append_assoc] at hbytes
  have hlen : nonce.bytes.length = nonce'.bytes.length := nonce.property.trans nonce'.property.symm
  obtain ⟨hnonce, hrest⟩ := List.append_inj hbytes hlen
  obtain rfl : nonce = nonce' := Subtype.ext hnonce
  refine ⟨rfl, ?_⟩
  rintro rfl
  -- the tags have one length, so the ciphertexts before them are equal
  obtain ⟨hbody, -⟩ := List.append_inj' hrest
    ((Sealed.tagOf _ _ _).property.trans (Sealed.tagOf _ _ _).property.symm)
  apply Utf8.encode_injective
  rw [← ChaCha20.cipher_cipher key nonce (Utf8.encode text), hbody, ChaCha20.cipher_cipher]

end Encryptor

end Invitation
