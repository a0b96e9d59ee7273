import Invitation.Proofs.Issuer.Storage
import Invitation.Proofs.Session.Trace
import Invitation.Proofs.Text.Boundary

/-!
# What one step does

A step either needs a number of random bytes that is known before it runs (`Step.Draws`) or it needs
none.  With too few bytes left it fails and changes nothing (`run_of_short`); with enough it takes
as many from the front (`exists_run_of_draws`); and a step that needs none has one outcome in all
environments (`exists_run_of_idle`).  In each of the three cases the step adds to the log what its
arguments and its success determine (`Step.events`).

What was drawn can be read off the outcome again: tokens, stored texts and new keys show the random
bytes that went into them (`Step.shown`).  The three cases together are `exists_run`, and what it
says of a step carries over to sessions by induction on their steps.
-/

namespace Invitation

/-! ## What texts show -/

/-- The random bytes in a token, for a reader who does not look at the tag. -/
def Token.entropyOf (text : String) : Bytes :=
  match Base64Url.decode text with
  | .error _ => []
  | .ok data =>
    match Payload.decode (data.take (data.length - 16)) with
    | .error _ => []
    | .ok p => p.entropy.bytes

/-- A token shows the random bytes of its payload. -/
lemma Token.entropyOf_ofPayload (key : Bytes) (p : Payload) :
    entropyOf (ofPayload key p) = p.entropy.bytes := by
  simp only [entropyOf, decode_ofPayload, length_append_tag, List.take_left,
    Payload.decode_encode]

/-- The bytes at the head of a stored text, where the nonce stands. -/
def Encryptor.nonceOf (stored : String) : Bytes :=
  match Base64Url.decode stored with
  | .error _ => []
  | .ok data => data.take 12

/-- A stored form shows its nonce. -/
lemma Encryptor.nonceOf_storedText (key : Block ChaCha20.keySize)
    (nonce : Block ChaCha20.nonceSize) (text : String) :
    nonceOf (storedText key nonce text) = nonce.bytes := by
  obtain ⟨body, -, hstored⟩ := storedText_eq_encode key nonce text
  rw [nonceOf, Base64Url.decode_eq_ok_iff.2 hstored]
  exact List.take_left' nonce.property

/-- A label ends in a colon, which is no symbol of base64. -/
lemma Encryptor.nonceOf_labelled (key : Bytes) (text : String) :
    nonceOf (Hex.encode key ++ ":" ++ text) = [] := by
  have hcolon : (58 : UInt8) ∈ Utf8.encode (Hex.encode key ++ ":" ++ text) := by
    have hbytes : Utf8.encode ":" = [58] := rfl
    rw [Utf8.encode_append, Utf8.encode_append, hbytes]
    simp
  cases hdecode : Base64Url.decode (Hex.encode key ++ ":" ++ text) with
  | error fault => rw [nonceOf, hdecode]
  | ok data =>
    rw [Base64Url.decode_eq_ok_iff.1 hdecode, Base64Url.utf8_encode] at hcolon
    have hforeign : Base64Url.sextet? 58 = none := by decide
    exact absurd hforeign (Base64Url.sextet?_ne_none_of_mem hcolon)

/-! ## Keys and issuers -/

/-- A new key is what stands first among the random bytes. -/
lemma SigningKey.run_generate_append (b : Block SigningKey.minSize) (rest : Bytes)
    (log : List Event) :
    SigningKey.generate.run ⟨b.bytes ++ rest, log⟩
      = (.ok ⟨b.bytes, Nat.le_of_eq b.property.symm⟩, ⟨rest, log⟩) := by
  simp only [generate, Action.run_bind, Action.run_draw_append, Action.run_pure]

/-- Without enough random bytes there is no new key and nothing changes. -/
lemma SigningKey.run_generate_of_short {env : Environment}
    (h : ¬ SigningKey.minSize ≤ env.entropy.length) :
    SigningKey.generate.run env = (.error .randomnessExhausted, env) := by
  simp only [generate, Action.run_bind, Action.run_draw_of_short h]

/-- An issuer is built from every key that is long enough, and the log is told. -/
lemma Issuer.run_create {key : Bytes} (h : SigningKey.minSize ≤ key.length) (settings : Settings)
    (encryptor : Encryptor) (env : Environment) :
    (create key settings encryptor).run env = (.ok ⟨⟨key, h⟩, settings, encryptor⟩,
      { env with log := env.log ++ [.ready key.length settings.lifetime.seconds] }) := by
  simp only [create, SigningKey.ofBytes, dif_pos h, Action.run_bind, Action.run_liftExcept,
    Action.run_record, Action.run_pure]
  rfl

/-- From a key that is too short no issuer is built, and the log is told nothing. -/
lemma Issuer.run_create_of_short {key : Bytes} (h : ¬ SigningKey.minSize ≤ key.length)
    (settings : Settings) (encryptor : Encryptor) (env : Environment) :
    (create key settings encryptor).run env = (.error (.keyTooShort key.length), env) := by
  simp only [create, SigningKey.ofBytes, dif_neg h, Action.run_bind, Action.run_liftExcept]

namespace Step

/-! ## Steps by what they need -/

/-- A step whose issuer, if it stores a text, has one of the two encryptors that there are. -/
def Provided : Step → Prop
  | .store i _ => i.encryptor = .chacha ∨ i.encryptor = .labelled
  | _ => True

/-- A step whose text, if it seals one, is not beyond the cipher's reach. -/
def InReach : Step → Prop
  | .store _ text | .sealText _ text => text.utf8ByteSize < 64 * (2 ^ 32 - 1)
  | _ => True

/-- A step that needs a number of random bytes. -/
inductive Draws : Step → Nat → Prop
  | generateKey : Draws .generateKey 32
  | issue (i : Issuer) (inviter invitee : String) (now : UInt64) :
    Draws (.issue i inviter invitee now) 16
  | store (i : Issuer) (text : String) (h : i.encryptor = .chacha) : Draws (.store i text) 12
  | sealText (key : Bytes) (text : String) (h : key.length = 32) : Draws (.sealText key text) 12

/-- The random bytes that the outcome of a step shows. -/
def shown : Step → Except Error Answer → Bytes
  | .generateKey, .ok (.key key) => key.bytes
  | .issue .., .ok (.text token) => Token.entropyOf token
  | .store .., .ok (.text stored) => Encryptor.nonceOf stored
  | .sealText .., .ok (.text stored) => Encryptor.nonceOf stored
  | _, _ => []

/-- What the log is told of a step: of an issuer that was built the length of its key and its
lifetime, and of a token its length. -/
def events : Step → Except Error Answer → List Event
  | .create key settings _, .ok _ => [.ready key.length settings.lifetime.seconds]
  | .issue _ inviter invitee _, .ok _ =>
    [.issued ((4 * (42 + (Text.cut 65535 inviter).utf8ByteSize + invitee.utf8ByteSize) + 2) / 3)]
  | _, _ => []

variable {s : Step} {n : Nat}

/-- A failure shows nothing. -/
lemma shown_error (s : Step) (e : Error) : s.shown (.error e) = [] := by
  cases s <;> rfl

/-- Of a failure the log is told nothing. -/
lemma events_error (s : Step) (e : Error) : s.events (.error e) = [] := by
  cases s <;> rfl

/-! ## The outcome of a step -/

/-- With too few random bytes left a step fails and changes nothing. -/
lemma run_of_short (h : s.Draws n) {env : Environment} (hshort : ¬ n ≤ env.entropy.length) :
    s.run env = (.error .randomnessExhausted, env) := by
  cases h with
  | generateKey =>
    rw [run, action, Action.run_map, SigningKey.run_generate_of_short hshort]
    rfl
  | issue i inviter invitee now =>
    rw [run, action, Action.run_map, Issuer.run_issue_of_short i inviter invitee now hshort]
    rfl
  | store i text h =>
    rw [run, action, Action.run_map, Issuer.store_eq_sealText h,
      Encryptor.run_sealText_of_short i.key.storageKey text hshort]
    rfl
  | sealText key text h =>
    rw [run, action, Action.run_map, Encryptor.run_sealText_of_short ⟨key, h⟩ text hshort]
    rfl

/-- With enough random bytes a text is sealed under the first of them, whatever the log says. -/
lemma exists_run_sealText (key : Block ChaCha20.keySize) (text : String)
    (nonce : Block ChaCha20.nonceSize) (rest : Bytes) :
    ∃ outcome, (∀ log, (Answer.text <$> Encryptor.sealText key.bytes text).run
        ⟨nonce.bytes ++ rest, log⟩ = (outcome, ⟨rest, log⟩))
      ∧ (text.utf8ByteSize < 64 * (2 ^ 32 - 1) →
        outcome = .ok (.text (Encryptor.storedText key nonce text))) := by
  by_cases hlong : Sealed.TooLong (Utf8.encode text)
  · refine ⟨.error (.sealing .tooLong), ?_, ?_⟩
    · intro log
      rw [Action.run_map, Encryptor.run_sealText_of_tooLong key nonce hlong]
      rfl
    · intro hreach
      exact absurd hlong (Sealed.not_tooLong_encode_iff.2 hreach)
  · refine ⟨.ok (.text (Encryptor.storedText key nonce text)), ?_, fun _ => rfl⟩
    intro log
    rw [Action.run_map, Encryptor.run_sealText_append key nonce hlong]
    rfl

/-- With enough random bytes a step takes as many as it needs from the front, whatever the log says,
and adds its events to the log.  Unless a text is beyond the cipher's reach it succeeds and shows
what it took. -/
lemma exists_run_of_draws (h : s.Draws n) (b : Block n) (rest : Bytes) :
    ∃ outcome, (∀ log, s.run ⟨b.bytes ++ rest, log⟩
        = (outcome, ⟨rest, log ++ s.events outcome⟩))
      ∧ (s.InReach → s.shown outcome = b.bytes ∧ ∃ answer, outcome = .ok answer) := by
  cases h with
  | generateKey =>
    change Block SigningKey.minSize at b
    refine ⟨.ok (.key ⟨b.bytes, Nat.le_of_eq b.property.symm⟩), ?_, fun _ => ⟨rfl, _, rfl⟩⟩
    intro log
    simp only [run, action, Action.run_map, SigningKey.run_generate_append, events, List.append_nil]
    rfl
  | issue i inviter invitee now =>
    change Block Payload.entropySize at b
    let p : Payload := ⟨b, now, inviter, invitee⟩
    refine ⟨.ok (.text (Token.ofPayload i.key.bytes p)), ?_, fun _ => ⟨?_, _, rfl⟩⟩
    · intro log
      rw [run, action, Action.run_map, Issuer.run_issue_append]
      simp only [Token.utf8ByteSize_ofPayload]
      rfl
    · exact Token.entropyOf_ofPayload i.key.bytes p
  | store i text h =>
    obtain ⟨outcome, hrun, houtcome⟩ := exists_run_sealText i.key.storageKey text b rest
    refine ⟨outcome, ?_, ?_⟩
    · intro log
      simp only [run, action, Issuer.store_eq_sealText h, hrun, events, List.append_nil]
    · intro hreach
      rw [houtcome hreach]
      exact ⟨Encryptor.nonceOf_storedText _ _ _, _, rfl⟩
  | sealText key text h =>
    obtain ⟨outcome, hrun, houtcome⟩ := exists_run_sealText ⟨key, h⟩ text b rest
    refine ⟨outcome, ?_, ?_⟩
    · intro log
      have hrun := hrun log
      simp only [run, action, hrun, events, List.append_nil]
    · intro hreach
      rw [houtcome hreach]
      exact ⟨Encryptor.nonceOf_storedText _ _ _, _, rfl⟩

/-- A step that needs no random bytes has one outcome in all environments, which shows none.  It
takes none, and adds its events to the log. -/
lemma exists_run_of_idle (h : s.Provided) (hidle : ∀ n, ¬ s.Draws n) :
    ∃ outcome, s.shown outcome = []
      ∧ ∀ env, s.run env = (outcome, { env with log := env.log ++ s.events outcome }) := by
  cases s with
  | create key settings encryptor =>
    by_cases hsize : SigningKey.minSize ≤ key.length
    · refine ⟨.ok (.issuer ⟨⟨key, hsize⟩, settings, encryptor⟩), rfl, ?_⟩
      intro env
      rw [run, action, Action.run_map, Issuer.run_create hsize]
      rfl
    · refine ⟨.error (.keyTooShort key.length), rfl, ?_⟩
      intro env
      rw [run, action, Action.run_map, Issuer.run_create_of_short hsize, events_error,
        List.append_nil]
      rfl
  | generateKey => exact absurd .generateKey (hidle 32)
  | issue i inviter invitee now => exact absurd (.issue i inviter invitee now) (hidle 16)
  | verify i text now =>
    refine ⟨(i.verify text now).map .contents, rfl, ?_⟩
    intro env
    simp only [run, action, Action.run_map, Action.run_liftExcept, events, List.append_nil]
  | verifyFor i text expected now =>
    refine ⟨(i.verifyFor text expected now).map .contents, rfl, ?_⟩
    intro env
    simp only [run, action, Action.run_map, Action.run_liftExcept, events, List.append_nil]
  | shortCode i text =>
    refine ⟨.ok (.text (i.shortCode text)), rfl, ?_⟩
    intro env
    simp only [run, action, Action.run_pure, events, List.append_nil]
  | store i text =>
    rcases h with hchacha | hlabelled
    · exact absurd (.store i text hchacha) (hidle 12)
    · refine ⟨.ok (.text (Hex.encode i.key.storageKey.bytes ++ ":" ++ text)), ?_, ?_⟩
      · exact Encryptor.nonceOf_labelled _ _
      · intro env
        simp only [run, action, Action.run_map, Issuer.store, hlabelled, events, List.append_nil]
        rfl
  | restore i stored =>
    refine ⟨(i.restore stored).map .text, rfl, ?_⟩
    intro env
    simp only [run, action, Action.run_map, Action.run_liftExcept, events, List.append_nil]
  | sealText key text =>
    have hkey : key.length ≠ 32 := fun hkey => hidle 12 (.sealText key text hkey)
    refine ⟨.error (.sealing .keyLength), rfl, ?_⟩
    intro env
    simp only [run, action, Action.run_map, Encryptor.run_sealText_of_keyLength hkey, events,
      List.append_nil]
    rfl

/-- A step takes bytes from the front of the random bytes and adds its events to the log.  Its
outcome does not depend on the log, and shows what was taken unless a text is beyond the cipher's
reach. -/
theorem exists_run (h : s.Provided) (entropy : Bytes) :
    ∃ outcome drawn rest, entropy = drawn ++ rest
      ∧ (∀ env, env.entropy = entropy →
        s.run env = (outcome, ⟨rest, env.log ++ s.events outcome⟩))
      ∧ (s.InReach → s.shown outcome = drawn) := by
  by_cases hdraws : ∃ n, s.Draws n
  · obtain ⟨n, hn⟩ := hdraws
    by_cases hsize : n ≤ entropy.length
    · obtain ⟨b, rest, rfl⟩ := Block.exists_eq_append hsize
      obtain ⟨outcome, hrun, hshown⟩ := exists_run_of_draws hn b rest
      refine ⟨outcome, b.bytes, rest, rfl, ?_, fun hreach => (hshown hreach).1⟩
      rintro ⟨_, log⟩ rfl
      exact hrun log
    · refine ⟨.error .randomnessExhausted, [], entropy, rfl, ?_, fun _ => shown_error s _⟩
      rintro env rfl
      rw [run_of_short hn hsize, events_error, List.append_nil]
  · rw [not_exists] at hdraws
    obtain ⟨outcome, hshown, hrun⟩ := exists_run_of_idle h hdraws
    refine ⟨outcome, [], entropy, rfl, ?_, fun _ => hshown⟩
    rintro env rfl
    exact hrun env

end Step

namespace Session

/-- A session takes bytes from the front of the random bytes and adds the events of its steps to the
log in order.  Its outcomes do not depend on the log, and in order they show what was taken unless a
text is beyond the cipher's reach. -/
theorem exists_run {steps : List Step} (h : ∀ s ∈ steps, s.Provided) (entropy : Bytes) :
    ∃ outcomes drawn rest, entropy = drawn ++ rest
      ∧ (∀ env, env.entropy = entropy →
        run steps env
          = (outcomes, ⟨rest, env.log ++ (List.zipWith Step.events steps outcomes).flatten⟩))
      ∧ ((∀ s ∈ steps, s.InReach) → (List.zipWith Step.shown steps outcomes).flatten = drawn) := by
  induction steps generalizing entropy with
  | nil =>
    refine ⟨[], [], entropy, rfl, ?_, fun _ => rfl⟩
    rintro env rfl
    rw [List.zipWith_nil_left, List.flatten_nil, List.append_nil]
    rfl
  | cons s steps ih =>
    rw [List.forall_mem_cons] at h
    obtain ⟨outcome, drawn, rest, rfl, hstep, hshown⟩ := Step.exists_run h.1 entropy
    obtain ⟨outcomes, drawn', rest', rfl, hrun, hshown'⟩ := ih h.2 rest
    refine ⟨outcome :: outcomes, drawn ++ drawn', rest', (List.append_assoc _ _ _).symm, ?_, ?_⟩
    · intro env henv
      rw [run_cons, hstep env henv, hrun _ rfl, List.zipWith_cons_cons, List.flatten_cons,
        List.append_assoc]
    · intro hreach
      rw [List.forall_mem_cons] at hreach
      rw [List.zipWith_cons_cons, List.flatten_cons, hshown hreach.1, hshown' hreach.2]

end Session

end Invitation
