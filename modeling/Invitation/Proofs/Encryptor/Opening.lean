import Invitation.Proofs.Encryptor.Sealing
import Invitation.Proofs.Text.CarelessReading

/-!
# What opens, and why the rest does not

A stored text opens under a key exactly if it is, to the letter, a stored form under that key
(`openText_eq_ok_iff`).  `Unopenable` lists the five ways in which a text can fail to be one, each
with what has to hold before it is looked at, and `openText_eq_error_iff` says that opening names
the one that applies.  Nothing else is ever answered.

As the forms are spelled in one way only, a key, a nonce and a text leave one stored form that
opens, and nothing that a careless reader takes for its ciphertext under another tag opens in its
stead.
-/

namespace Invitation

/-- Bytes do not divide into a nonce, a ciphertext and a tag exactly if they have no room. -/
lemma Stored.ofBytes?_eq_none_iff {data : Bytes} :
    Stored.ofBytes? data = none ↔ data.length < 28 := by
  unfold Stored.ofBytes?
  split
  · next h =>
    simp only [reduceCtorEq, false_iff]
    exact Nat.not_lt.2 h
  · next h =>
    simp only [true_iff]
    exact Nat.not_le.1 h

namespace Encryptor

open ChaCha20 (keySize nonceSize)

/-- Why a stored text does not open under a key. -/
inductive Unopenable (key : Bytes) (stored : String) : OpeningFault → Prop
  /-- The text is not the base64 text of any string. -/
  | notBase64 (fault : Base64Url.Fault) (h : ∀ data, stored ≠ Base64Url.encode data)
      (hfault : Base64Url.decode stored = .error fault) : Unopenable key stored (.notBase64 fault)
  /-- The text has no room for a nonce and a tag. -/
  | tooShort (data : Bytes) (h : stored = Base64Url.encode data) (hlen : data.length < 28) :
      Unopenable key stored (.tooShort data.length)
  /-- The key has another length than the cipher takes. -/
  | keyLength (data : Bytes) (h : stored = Base64Url.encode data) (hlen : 28 ≤ data.length)
      (hkey : key.length ≠ 32) : Unopenable key stored .keyLength
  /-- What stands in the place of the tag is not the tag of what stands before it, or that is longer
  than anything that is sealed. -/
  | unauthentic (block : Block keySize) (nonce : Block nonceSize) (body : Bytes)
      (tag : Block Poly1305.tagSize) (hkey : key = block.bytes)
      (h : stored = Base64Url.encode (nonce.bytes ++ body ++ tag.bytes))
      (hne : Sealed.TooLong body ∨ Sealed.tagOf block nonce body ≠ tag) :
      Unopenable key stored .unauthentic
  /-- The tag is right, but what was sealed is no text. -/
  | notUtf8 (block : Block keySize) (nonce : Block nonceSize) (body : Bytes)
      (fault : Utf8.Fault) (hkey : key = block.bytes)
      (h : stored = Base64Url.encode
        (nonce.bytes ++ body ++ (Sealed.tagOf block nonce body).bytes))
      (hroom : ¬ Sealed.TooLong body)
      (hfault : Utf8.decode (ChaCha20.cipher block nonce body) = .error fault) :
      Unopenable key stored (.notUtf8 fault)

/-! ## The parts of a stored text -/

/-- A text is no base64 text, or it has no room, or the key has another length, or the text divides
into a nonce, a ciphertext and what stands in the place of its tag. -/
lemma shape_of_stored (key : Bytes) (stored : String) :
    (∃ fault, Base64Url.decode stored = .error fault)
    ∨ (∃ data, stored = Base64Url.encode data ∧ data.length < 28)
    ∨ (∃ data, stored = Base64Url.encode data ∧ 28 ≤ data.length ∧ key.length ≠ 32)
    ∨ ∃ (block : Block keySize) (nonce : Block nonceSize) (body : Bytes)
        (tag : Block Poly1305.tagSize), key = block.bytes
          ∧ stored = Base64Url.encode (nonce.bytes ++ body ++ tag.bytes) := by
  rcases hdecode : Base64Url.decode stored with fault | data
  · exact .inl ⟨fault, rfl⟩
  have hstored := Base64Url.decode_eq_ok_iff.1 hdecode
  rcases hparts : Stored.ofBytes? data with _ | ⟨nonce, body, tag⟩
  · exact .inr (.inl ⟨data, hstored, Stored.ofBytes?_eq_none_iff.1 hparts⟩)
  have hroom : 28 ≤ data.length := by
    by_contra hshort
    rw [Stored.ofBytes?_eq_none_iff.2 (Nat.not_le.1 hshort)] at hparts
    cases hparts
  by_cases hkey : key.length = keySize
  · refine .inr (.inr (.inr ⟨⟨key, hkey⟩, nonce, body, tag, rfl, ?_⟩))
    rw [hstored, ← Stored.bytes_ofBytes? hparts, Stored.bytes]
  · exact .inr (.inr (.inl ⟨data, hstored, hroom, hkey⟩))

/-! ## What opening answers -/

/-- What is no base64 text is refused for that. -/
lemma openText_of_notBase64 {stored : String} {fault : Base64Url.Fault}
    (h : Base64Url.decode stored = .error fault) (key : Bytes) :
    openText key stored = .error (.opening (.notBase64 fault)) := by
  rw [openText, h]

/-- What has no room for a nonce and a tag is refused for that. -/
lemma openText_of_tooShort {data : Bytes} (h : data.length < 28) (key : Bytes) :
    openText key (Base64Url.encode data) = .error (.opening (.tooShort data.length)) := by
  have hdecode : Base64Url.decode (Base64Url.encode data) = .ok data :=
    Base64Url.decode_eq_ok_iff.2 rfl
  simp only [openText, hdecode, Stored.ofBytes?_eq_none_iff.2 h]

/-- Any other text is refused for the length of the key, if that is not the cipher's. -/
lemma openText_of_keyLength {key data : Bytes} (h : 28 ≤ data.length) (hkey : key.length ≠ 32) :
    openText key (Base64Url.encode data) = .error (.opening .keyLength) := by
  have hdecode : Base64Url.decode (Base64Url.encode data) = .ok data :=
    Base64Url.decode_eq_ok_iff.2 rfl
  have hblock : Block.ofBytes? keySize key = none := Block.ofBytes?_of_ne hkey
  rcases hparts : Stored.ofBytes? data with _ | parts
  · exact absurd (Stored.ofBytes?_eq_none_iff.1 hparts) (Nat.not_lt.2 h)
  · simp only [openText, hdecode, hparts, hblock]

/-- A nonce, a ciphertext and what stands in the place of its tag are refused if that does not
open. -/
lemma openText_of_unseal?_eq_none {key : Block keySize} {nonce : Block nonceSize} {s : Sealed}
    (h : Sealed.unseal? key nonce s = none) :
    openText key.bytes (Base64Url.encode (Stored.bytes ⟨nonce, s⟩))
      = .error (.opening .unauthentic) := by
  have hdecode : Base64Url.decode (Base64Url.encode (Stored.bytes ⟨nonce, s⟩))
      = .ok (Stored.bytes ⟨nonce, s⟩) := Base64Url.decode_eq_ok_iff.2 rfl
  simp only [openText, hdecode, Stored.ofBytes?_bytes, Block.ofBytes?_bytes, h]

/-- Else the bytes that it opens to are read as a text. -/
lemma openText_of_unseal?_eq_some {key : Block keySize} {nonce : Block nonceSize} {s : Sealed}
    {b : Bytes} (h : Sealed.unseal? key nonce s = some b) :
    openText key.bytes (Base64Url.encode (Stored.bytes ⟨nonce, s⟩)) =
      match Utf8.decode b with
      | .ok text => .ok text
      | .error fault => .error (.opening (.notUtf8 fault)) := by
  have hdecode : Base64Url.decode (Base64Url.encode (Stored.bytes ⟨nonce, s⟩))
      = .ok (Stored.bytes ⟨nonce, s⟩) := Base64Url.decode_eq_ok_iff.2 rfl
  simp only [openText, hdecode, Stored.ofBytes?_bytes, Block.ofBytes?_bytes, h]
  cases Utf8.decode b <;> rfl

/-- A stored form opens to its text. -/
lemma openText_storedText (key : Block keySize) (nonce : Block nonceSize) {text : String}
    (h : ¬ Sealed.TooLong (Utf8.encode text)) :
    openText key.bytes (storedText key nonce text) = .ok text := by
  obtain ⟨s, hseal, hstored⟩ := exists_seal?_of_not_tooLong key nonce h
  rw [hstored, openText_of_unseal?_eq_some (Sealed.unseal?_seal? hseal), Utf8.decode_encode]

/-- What does not open is refused for the reason that applies. -/
lemma openText_of_unopenable {key : Bytes} {stored : String} {fault : OpeningFault}
    (h : Unopenable key stored fault) : openText key stored = .error (.opening fault) := by
  rcases h with ⟨fault, -, hfault⟩ | ⟨data, rfl, hlen⟩ | ⟨data, rfl, hlen, hkey⟩ |
    ⟨block, nonce, body, tag, rfl, rfl, hne⟩ | ⟨block, nonce, body, fault, rfl, rfl, hroom, hfault⟩
  · exact openText_of_notBase64 hfault key
  · exact openText_of_tooShort hlen key
  · exact openText_of_keyLength hlen hkey
  · exact openText_of_unseal?_eq_none (s := ⟨body, tag⟩) (Sealed.unseal?_eq_none_iff.2 hne)
  · have hseal : Sealed.seal? block nonce (ChaCha20.cipher block nonce body)
        = some ⟨body, Sealed.tagOf block nonce body⟩ := by
      rw [Sealed.seal?_eq_some_iff, Sealed.tooLong_cipher, ChaCha20.cipher_cipher]
      exact ⟨hroom, rfl⟩
    have hopens := openText_of_unseal?_eq_some (Sealed.unseal?_seal? hseal)
    rw [hfault] at hopens
    exact hopens

/-- A text is a stored form under the key, or it does not open. -/
lemma storedText_or_unopenable (key : Bytes) (stored : String) :
    (∃ (block : Block keySize) (nonce : Block nonceSize) (text : String), key = block.bytes
        ∧ ¬ Sealed.TooLong (Utf8.encode text) ∧ stored = storedText block nonce text)
    ∨ ∃ fault, Unopenable key stored fault := by
  rcases shape_of_stored key stored with ⟨fault, hfault⟩ | ⟨data, rfl, hlen⟩ |
    ⟨data, rfl, hlen, hkey⟩ | ⟨block, nonce, body, tag, rfl, rfl⟩
  · refine .inr ⟨_, .notBase64 fault ?_ hfault⟩
    intro data hdata
    rw [Base64Url.decode_eq_ok_iff.2 hdata] at hfault
    cases hfault
  · exact .inr ⟨_, .tooShort data rfl hlen⟩
  · exact .inr ⟨_, .keyLength data rfl hlen hkey⟩
  rcases hopened : Sealed.unseal? block nonce ⟨body, tag⟩ with _ | bytes
  · exact .inr ⟨_, .unauthentic block nonce body tag rfl rfl (Sealed.unseal?_eq_none_iff.1 hopened)⟩
  obtain ⟨hroom, hparts⟩ := Sealed.seal?_eq_some_iff.1 (Sealed.seal?_unseal? hopened)
  cases hparts
  -- `bytes` were sealed, so they can only fail to be a text
  rcases hutf8 : Utf8.decode bytes with fault | text
  · refine .inr ⟨_, .notUtf8 block nonce _ fault rfl rfl ?_ ?_⟩
    · rw [Sealed.tooLong_cipher]
      exact hroom
    · rw [ChaCha20.cipher_cipher]
      exact hutf8
  · obtain rfl := Utf8.decode_eq_ok_iff.1 hutf8
    exact .inl ⟨block, nonce, text, rfl, hroom, rfl⟩

/-- A text opens exactly if it is a stored form under the key. -/
lemma openText_eq_ok_iff {key : Bytes} {stored text : String} :
    openText key stored = .ok text ↔
      ∃ (block : Block keySize) (nonce : Block nonceSize), key = block.bytes
        ∧ ¬ Sealed.TooLong (Utf8.encode text) ∧ stored = storedText block nonce text := by
  constructor
  · intro h
    rcases storedText_or_unopenable key stored with
      ⟨block, nonce, text', rfl, hroom, rfl⟩ | ⟨fault, hfault⟩
    · rw [openText_storedText block nonce hroom] at h
      cases h
      exact ⟨block, nonce, rfl, hroom, rfl⟩
    · rw [openText_of_unopenable hfault] at h
      cases h
  · rintro ⟨block, nonce, rfl, hroom, rfl⟩
    exact openText_storedText block nonce hroom

/-- A text is refused exactly with the reason that applies. -/
lemma openText_eq_error_iff {key : Bytes} {stored : String} {e : Error} :
    openText key stored = .error e ↔ ∃ fault, e = .opening fault ∧ Unopenable key stored fault := by
  constructor
  · intro h
    rcases storedText_or_unopenable key stored with
      ⟨block, nonce, text, rfl, hroom, rfl⟩ | ⟨fault, hfault⟩
    · rw [openText_storedText block nonce hroom] at h
      cases h
    · rw [openText_of_unopenable hfault] at h
      cases h
      exact ⟨fault, rfl, hfault⟩
  · rintro ⟨fault, rfl, hfault⟩
    exact openText_of_unopenable hfault

/-- Opening under a key of the right length never complains about it. -/
lemma openText_ne_keyLength (key : Block keySize) (stored : String) :
    openText key.bytes stored ≠ .error (.opening .keyLength) := by
  intro h
  obtain ⟨fault, hfault, hunopenable⟩ := openText_eq_error_iff.1 h
  cases hfault
  rcases hunopenable with _ | _ | ⟨-, -, -, hkey⟩
  exact hkey key.property

/-! ## Stored forms and what sealing gives -/

/-- The stored forms of a text under a key are what sealing it can give. -/
lemma storedText_iff_run_sealText {key : Bytes} {stored text : String} :
    (∃ (block : Block keySize) (nonce : Block nonceSize), key = block.bytes
        ∧ ¬ Sealed.TooLong (Utf8.encode text) ∧ stored = storedText block nonce text) ↔
      key.length = 32 ∧ ∃ nonce : Block nonceSize, ∀ (rest : Bytes) (log : List Event),
        (sealText key text).run ⟨nonce.bytes ++ rest, log⟩ = (.ok stored, ⟨rest, log⟩) := by
  constructor
  · rintro ⟨block, nonce, rfl, hroom, rfl⟩
    exact ⟨block.property, nonce, run_sealText_append block nonce hroom⟩
  · rintro ⟨-, nonce, hrun⟩
    obtain ⟨block, drawn, hkey, -, -, hroom, hstored⟩ :=
      exists_storedText_of_run_sealText (hrun [] [])
    exact ⟨block, drawn, hkey, hroom, hstored⟩

/-- A careless reader finds the nonce of a stored form, its ciphertext and its tag. -/
lemma readCarelessly_storedText (key : Block keySize) (nonce : Block nonceSize) (text : String) :
    Base64Url.readCarelessly (storedText key nonce text)
      = nonce.bytes ++ ChaCha20.cipher key nonce (Utf8.encode text)
        ++ (Sealed.tagOf key nonce (ChaCha20.cipher key nonce (Utf8.encode text))).bytes := by
  rw [storedText, Base64Url.readCarelessly_encode]

/-- What a careless reader finds begins with the nonce. -/
lemma take_readCarelessly_storedText (key : Block keySize) (nonce : Block nonceSize)
    (text : String) :
    (Base64Url.readCarelessly (storedText key nonce text)).take 12 = nonce.bytes := by
  rw [readCarelessly_storedText, List.append_assoc]
  exact List.take_left' nonce.property

/-- Two texts that open under one key, and in which a careless reader finds one nonce and one
ciphertext, are one text. -/
lemma stored_eq_of_readCarelessly {key : Bytes} {stored other text text' : String}
    {front : Bytes} {tag tag' : Block Poly1305.tagSize} (h : openText key stored = .ok text)
    (h' : openText key other = .ok text')
    (hfront : Base64Url.readCarelessly stored = front ++ tag.bytes)
    (hfront' : Base64Url.readCarelessly other = front ++ tag'.bytes) : stored = other := by
  obtain ⟨block, nonce, rfl, -, rfl⟩ := openText_eq_ok_iff.1 h
  obtain ⟨block', nonce', hkey, -, rfl⟩ := openText_eq_ok_iff.1 h'
  obtain rfl : block = block' := Subtype.ext hkey
  rw [readCarelessly_storedText] at hfront hfront'
  obtain ⟨hbytes, -⟩ :=
    List.append_inj' hfront ((Sealed.tagOf _ _ _).property.trans tag.property.symm)
  obtain ⟨hbytes', -⟩ :=
    List.append_inj' hfront' ((Sealed.tagOf _ _ _).property.trans tag'.property.symm)
  obtain ⟨hnonce, hbody⟩ := List.append_inj (hbytes.trans hbytes'.symm)
    (nonce.property.trans nonce'.property.symm)
  obtain rfl : nonce = nonce' := Subtype.ext hnonce
  rw [storedText, storedText, hbody]

/-- Under a key a text opens exactly if it is what sealing gives for some nonce; all others are
refused for the first reason that applies.  For each nonce one text opens to a given text, unless
that is too long to be sealed, and no other text with its nonce and its ciphertext opens at all. -/
theorem openText_opens_what_was_sealed (key : Bytes) :
    (∀ stored text : String, openText key stored = .ok text ↔
        key.length = 32 ∧ ∃ nonce : Block nonceSize, ∀ (rest : Bytes) (log : List Event),
          (sealText key text).run ⟨nonce.bytes ++ rest, log⟩ = (.ok stored, ⟨rest, log⟩))
    ∧ (∀ (stored : String) (e : Error), openText key stored = .error e ↔
        ∃ fault, e = .opening fault ∧ Unopenable key stored fault)
    ∧ (∀ (nonce : Block nonceSize) (text : String), key.length = 32 →
        text.utf8ByteSize < 64 * (2 ^ 32 - 1) →
          ∃! stored, openText key stored = .ok text
            ∧ (Base64Url.readCarelessly stored).take 12 = nonce.bytes)
    ∧ ∀ (stored other text : String) (nonce : Block nonceSize) (body : Bytes)
        (tag tag' : Block Poly1305.tagSize), openText key stored = .ok text →
          stored = Base64Url.encode (nonce.bytes ++ body ++ tag.bytes) →
          Base64Url.readCarelessly other = nonce.bytes ++ body ++ tag'.bytes → other ≠ stored →
            ∃ fault, openText key other = .error (.opening fault) := by
  refine ⟨?_, ?_, ?_, ?_⟩
  · intro stored text
    rw [openText_eq_ok_iff, storedText_iff_run_sealText]
  · intro stored e
    exact openText_eq_error_iff
  · intro nonce text hkey hsize
    obtain ⟨block, rfl⟩ : ∃ block : Block keySize, key = block.bytes := ⟨⟨key, hkey⟩, rfl⟩
    have hopens := openText_storedText block nonce (Sealed.not_tooLong_encode_iff.2 hsize)
    refine ⟨storedText block nonce text, ⟨hopens, take_readCarelessly_storedText _ _ _⟩, ?_⟩
    rintro other ⟨hother, hnonce⟩
    obtain ⟨block', nonce', hblock, -, rfl⟩ := openText_eq_ok_iff.1 hother
    obtain rfl : block = block' := Subtype.ext hblock
    rw [take_readCarelessly_storedText] at hnonce
    obtain rfl : nonce' = nonce := Subtype.ext hnonce
    rfl
  · intro stored other text nonce body tag tag' hopens hstored hother hne
    rcases hanswer : openText key other with e | text'
    · obtain ⟨fault, rfl, -⟩ := openText_eq_error_iff.1 hanswer
      exact ⟨fault, rfl⟩
    -- if both opened, one key, nonce and ciphertext would leave them one tag
    · have hread : Base64Url.readCarelessly stored = nonce.bytes ++ body ++ tag.bytes := by
        rw [hstored, Base64Url.readCarelessly_encode]
      exact absurd (stored_eq_of_readCarelessly hopens hanswer hread hother).symm hne

/-- What was sealed opens, being the only text with its nonce that does so to the same text, and no
longer opens once it is padded. -/
theorem openText_of_padded :
    ∃ stored : String,
      (sealText (List.replicate 32 0x42) "José 👋").run ⟨List.replicate 12 0x01, []⟩
          = (.ok stored, ⟨[], []⟩)
        ∧ openText (List.replicate 32 0x42) stored = .ok "José 👋"
        ∧ (∀ other, openText (List.replicate 32 0x42) other = .ok "José 👋" →
            (Base64Url.readCarelessly other).take 12 = List.replicate 12 0x01 → other = stored)
        ∧ stored ++ "=" ≠ stored
        ∧ ∃ fault, openText (List.replicate 32 0x42) (stored ++ "=")
            = .error (.opening fault) := by
  let key : Block keySize := ⟨List.replicate 32 0x42, List.length_replicate⟩
  let nonce : Block nonceSize := ⟨List.replicate 12 0x01, List.length_replicate⟩
  obtain ⟨hopens, -, honly, hother⟩ := openText_opens_what_was_sealed (List.replicate 32 0x42)
  have hroom : ¬ Sealed.TooLong (Utf8.encode "José 👋") :=
    Sealed.not_tooLong_encode_iff.2 (by decide)
  have hrun := run_sealText_append key nonce hroom
  have hopen := (hopens (storedText key nonce "José 👋") "José 👋").2
    ⟨List.length_replicate, nonce, hrun⟩
  have hne : storedText key nonce "José 👋" ++ "=" ≠ storedText key nonce "José 👋" := by
    intro h
    have hlen := congrArg String.length h
    simp at hlen
  refine ⟨storedText key nonce "José 👋", hrun [] [], hopen, ?_, hne, ?_⟩
  · intro other hopen' hnonce
    exact (honly nonce "José 👋" List.length_replicate (by decide)).unique
      ⟨hopen', hnonce⟩ ⟨hopen, take_readCarelessly_storedText key nonce "José 👋"⟩
  · have hread := readCarelessly_storedText key nonce "José 👋"
    rw [← Base64Url.readCarelessly_append_pad] at hread
    exact hother _ _ "José 👋" nonce _ _ _ hopen rfl hread hne

end Encryptor

end Invitation
