import Invitation.Proofs.Session.Steps

/-!
# The log and the debug texts tell lengths only

What a session adds to the log is determined by the steps that succeed: for an issuer the length of
its key and its lifetime, for a token its length, and nothing for anything else.  So two sessions
whose steps differ in nothing but contents (`Step.Alike`) log the same, whatever their keys, their
names, their texts, their clocks and their random bytes are, as long as the lengths of the keys and
the names and the number of the random bytes agree (`log_carries_lengths`).  The same holds for the
texts that issuers and signing keys are shown as when a program is debugged.

Verdicts may well differ between two such sessions, since a text may be a token in one of them and a
forgery in the other.  What makes the argument go through is that no verdict is logged and that a
step takes the same number of random bytes in both.
-/

namespace Invitation

/-! ## Debug texts -/

/-- A signing key is shown by its length. -/
lemma SigningKey.describe_congr {key key' : SigningKey} (h : key.length = key'.length) :
    key.describe = key'.describe := by
  unfold describe
  rw [h]

/-- The texts that an issuer and its signing key are shown as. -/
def Issuer.debugTexts (i : Issuer) : List String := [i.key.describe, i.describe, i.describeLines]

/-- The texts that the issuers and signing keys in an outcome are shown as. -/
def Step.debugTexts : Except Error Answer → List String
  | .ok (.issuer i) => i.debugTexts
  | .ok (.key key) => [key.describe]
  | _ => []

namespace Issuer

/-- Issuers that differ in nothing but the bytes of their keys. -/
structure Alike (i j : Issuer) : Prop where
  length : i.key.length = j.key.length
  settings : i.settings = j.settings
  encryptor : i.encryptor = j.encryptor

/-- Neither issuer comes first. -/
lemma Alike.symm {i j : Issuer} (h : i.Alike j) : j.Alike i :=
  ⟨h.length.symm, h.settings.symm, h.encryptor.symm⟩

/-- Issuers are shown by the lengths of their keys and their settings. -/
lemma Alike.debugTexts_eq {i j : Issuer} (h : i.Alike j) : i.debugTexts = j.debugTexts := by
  have hkey := SigningKey.describe_congr h.length
  unfold debugTexts describe describeLines
  rw [hkey, h.settings]

end Issuer

/-! ## Steps that differ in contents -/

namespace Step

/-- Steps of one kind that differ in nothing but contents: the bytes of keys, the characters of
names and texts and the clock. -/
inductive Alike : Step → Step → Prop
  | create {key key' : Bytes} (hkey : key.length = key'.length) (settings : Settings)
    (encryptor : Encryptor) :
    Alike (.create key settings encryptor) (.create key' settings encryptor)
  | generateKey : Alike .generateKey .generateKey
  | issue {i j : Issuer} (h : i.Alike j) {inviter inviter' invitee invitee' : String}
    (hinviter : (Text.cut 65535 inviter).utf8ByteSize = (Text.cut 65535 inviter').utf8ByteSize)
    (hinvitee : invitee.utf8ByteSize = invitee'.utf8ByteSize) (now now' : UInt64) :
    Alike (.issue i inviter invitee now) (.issue j inviter' invitee' now')
  | verify {i j : Issuer} (h : i.Alike j) (text text' : String) (now now' : UInt64) :
    Alike (.verify i text now) (.verify j text' now')
  | verifyFor {i j : Issuer} (h : i.Alike j) (text text' expected expected' : String)
    (now now' : UInt64) : Alike (.verifyFor i text expected now) (.verifyFor j text' expected' now')
  | shortCode {i j : Issuer} (h : i.Alike j) (text text' : String) :
    Alike (.shortCode i text) (.shortCode j text')
  | store {i j : Issuer} (h : i.Alike j) (text text' : String) :
    Alike (.store i text) (.store j text')
  | restore {i j : Issuer} (h : i.Alike j) (stored stored' : String) :
    Alike (.restore i stored) (.restore j stored')
  | sealText {key key' : Bytes} (hkey : key.length = key'.length) (text text' : String) :
    Alike (.sealText key text) (.sealText key' text')

variable {s s' : Step} {n : Nat}

/-- Neither step comes first. -/
lemma Alike.symm (h : s.Alike s') : s'.Alike s := by
  cases h with
  | create hkey settings encryptor => exact .create hkey.symm settings encryptor
  | generateKey => exact .generateKey
  | issue h hinviter hinvitee => exact .issue h.symm hinviter.symm hinvitee.symm _ _
  | verify h => exact .verify h.symm _ _ _ _
  | verifyFor h => exact .verifyFor h.symm _ _ _ _ _ _
  | shortCode h => exact .shortCode h.symm _ _
  | store h => exact .store h.symm _ _
  | restore h => exact .restore h.symm _ _
  | sealText hkey => exact .sealText hkey.symm _ _

/-- Alike steps have alike encryptors. -/
lemma Alike.provided (h : s.Alike s') (hs : s.Provided) : s'.Provided := by
  cases h with
  | store h => rwa [Provided, ← h.encryptor]
  | _ => trivial

/-- Alike steps need the same number of random bytes. -/
lemma Alike.draws (h : s.Alike s') (hdraws : s.Draws n) : s'.Draws n := by
  cases hdraws with
  | generateKey =>
    cases h
    exact .generateKey
  | issue =>
    cases h
    exact .issue _ _ _ _
  | store i text hchacha =>
    cases h with
    | store h => exact .store _ _ (h.encryptor.symm.trans hchacha)
  | sealText key text hsize =>
    cases h with
    | sealText hkey => exact .sealText _ _ (hkey.symm.trans hsize)

/-- A step takes the bytes that it needs, or none if there are too few. -/
lemma length_entropy_run_of_draws (h : s.Draws n) (env : Environment) :
    (s.run env).2.entropy.length =
      if n ≤ env.entropy.length then env.entropy.length - n else env.entropy.length := by
  obtain ⟨entropy, log⟩ := env
  split
  · next hsize =>
    obtain ⟨b, rest, rfl⟩ := Block.exists_eq_append hsize
    obtain ⟨outcome, hrun, -⟩ := exists_run_of_draws h b rest
    rw [hrun, List.length_append, b.property, Nat.add_sub_cancel_left]
  · next hsize => rw [run_of_short h hsize]

/-- Alike steps leave the same number of random bytes. -/
lemma Alike.length_entropy_run (h : s.Alike s') (hs : s.Provided) {env env' : Environment}
    (hlen : env.entropy.length = env'.entropy.length) :
    (s.run env).2.entropy.length = (s'.run env').2.entropy.length := by
  -- outcomes may differ, so the number is compared by what the steps need
  by_cases hdraws : ∃ n, s.Draws n
  · obtain ⟨n, hn⟩ := hdraws
    rw [length_entropy_run_of_draws hn, length_entropy_run_of_draws (h.draws hn), hlen]
  · rw [not_exists] at hdraws
    have hdraws' : ∀ n, ¬ s'.Draws n := fun n hn => hdraws n (h.symm.draws hn)
    obtain ⟨outcome, -, hrun⟩ := exists_run_of_idle hs hdraws
    obtain ⟨outcome', -, hrun'⟩ := exists_run_of_idle (h.provided hs) hdraws'
    rw [hrun, hrun']
    exact hlen

/-- Texts are not shown. -/
lemma debugTexts_map_text (x : Except Error String) : debugTexts (x.map .text) = [] := by
  cases x <;> rfl

/-- What a token says is not shown. -/
lemma debugTexts_map_contents (x : Except Error Contents) : debugTexts (x.map .contents) = [] := by
  cases x <;> rfl

/-- Alike steps tell the log the same. -/
lemma Alike.events_run (h : s.Alike s') {env env' : Environment}
    (hlen : env.entropy.length = env'.entropy.length) :
    s.events (s.run env).1 = s'.events (s'.run env').1 := by
  cases h with
  | @create key key' hkey settings encryptor =>
    simp only [run, action, Action.run_map]
    by_cases hsize : SigningKey.minSize ≤ key.length
    · rw [Issuer.run_create hsize, Issuer.run_create (hkey ▸ hsize)]
      simp only [Except.map, events, hkey]
    · rw [Issuer.run_create_of_short hsize, Issuer.run_create_of_short (hkey ▸ hsize)]
      rfl
  | @issue i j h inviter inviter' invitee invitee' hinviter hinvitee now now' =>
    simp only [run, action, Action.run_map]
    by_cases hsize : Payload.entropySize ≤ env.entropy.length
    · obtain ⟨token, left, hrun⟩ := i.exists_run_issue inviter invitee now hsize
      obtain ⟨token', left', hrun'⟩ := j.exists_run_issue inviter' invitee' now' (hlen ▸ hsize)
      rw [hrun, hrun']
      simp only [Except.map, events, hinviter, hinvitee]
    · rw [Issuer.run_issue_of_short _ _ _ _ hsize, Issuer.run_issue_of_short _ _ _ _ (hlen ▸ hsize)]
      rfl
  -- by `rfl` the two outcomes would be computed and compared, digests and all
  | _ => simp only [events]

/-- The outcomes of alike steps are shown as the same. -/
lemma Alike.debugTexts_run (h : s.Alike s') {env env' : Environment}
    (hlen : env.entropy.length = env'.entropy.length) :
    debugTexts (s.run env).1 = debugTexts (s'.run env').1 := by
  cases h with
  | @create key key' hkey settings encryptor =>
    simp only [run, action, Action.run_map]
    by_cases hsize : SigningKey.minSize ≤ key.length
    · have halike : Issuer.Alike ⟨⟨key, hsize⟩, settings, encryptor⟩
        ⟨⟨key', hkey ▸ hsize⟩, settings, encryptor⟩ := ⟨hkey, rfl, rfl⟩
      rw [Issuer.run_create hsize, Issuer.run_create (hkey ▸ hsize)]
      exact halike.debugTexts_eq
    · rw [Issuer.run_create_of_short hsize, Issuer.run_create_of_short (hkey ▸ hsize)]
      rfl
  | generateKey =>
    obtain ⟨entropy, log⟩ := env
    obtain ⟨entropy', log'⟩ := env'
    simp only [run, action, Action.run_map]
    by_cases hsize : SigningKey.minSize ≤ entropy.length
    · obtain ⟨b, rest, rfl⟩ := Block.exists_eq_append hsize
      obtain ⟨b', rest', rfl⟩ := Block.exists_eq_append (hlen ▸ hsize)
      rw [SigningKey.run_generate_append, SigningKey.run_generate_append]
      exact congrArg (fun text => [text])
        (SigningKey.describe_congr (b.property.trans b'.property.symm))
    · rw [SigningKey.run_generate_of_short hsize, SigningKey.run_generate_of_short (hlen ▸ hsize)]
  | shortCode => simp only [run, action, Action.run_pure, debugTexts]
  | verify | verifyFor => simp only [run, action, Action.run_map, debugTexts_map_contents]
  | issue | store | restore | sealText =>
    simp only [run, action, Action.run_map, debugTexts_map_text]

end Step

namespace Session

variable {steps steps' : List Step}

/-- Alike sessions have alike encryptors. -/
lemma provided_of_alike (h : List.Forall₂ Step.Alike steps steps')
    (hsteps : ∀ s ∈ steps, s.Provided) : ∀ s ∈ steps', s.Provided := by
  induction h with
  | nil => exact hsteps
  | cons hs _ ih =>
    rw [List.forall_mem_cons] at hsteps ⊢
    exact ⟨hs.provided hsteps.1, ih hsteps.2⟩

/-- Alike sessions have the same events and are shown as the same. -/
lemma events_run_of_alike (h : List.Forall₂ Step.Alike steps steps')
    (hsteps : ∀ s ∈ steps, s.Provided) {env env' : Environment}
    (hlen : env.entropy.length = env'.entropy.length) :
    List.zipWith Step.events steps (run steps env).1
        = List.zipWith Step.events steps' (run steps' env').1
      ∧ (run steps env).1.map Step.debugTexts = (run steps' env').1.map Step.debugTexts := by
  induction h generalizing env env' with
  | nil => exact ⟨rfl, rfl⟩
  | @cons s s' steps steps' hs _ ih =>
    rw [List.forall_mem_cons] at hsteps
    obtain ⟨hevents, htexts⟩ := ih hsteps.2 (hs.length_entropy_run hsteps.1 hlen)
    rw [run_cons, run_cons, List.zipWith_cons_cons, List.zipWith_cons_cons, List.map_cons,
      List.map_cons, hs.events_run hlen, hs.debugTexts_run hlen, hevents, htexts]
    exact ⟨rfl, rfl⟩

/-- A session adds to the log the events of its steps in order. -/
lemma log_run (h : ∀ s ∈ steps, s.Provided) (env : Environment) :
    (run steps env).2.log
      = env.log ++ (List.zipWith Step.events steps (run steps env).1).flatten := by
  obtain ⟨outcomes, -, rest, -, hrun, -⟩ := exists_run h env.entropy
  rw [hrun env rfl]

/-- In every session the log is told of each issuer that is built the length of its key and its
lifetime in seconds, of each token that is issued its length, and of nothing else.  So two sessions
whose steps are alike log the same events, whatever was logged before, as long as equally many
random bytes are left, and their issuers and signing keys are shown as the same. -/
theorem log_carries_lengths (steps : List Step) (env : Environment)
    (h : ∀ s ∈ steps, s.Provided) :
    (run steps env).2.log
        = env.log ++ (List.zipWith Step.events steps (run steps env).1).flatten
    ∧ (∀ (steps' : List Step) (env' : Environment), List.Forall₂ Step.Alike steps steps' →
        env.entropy.length = env'.entropy.length →
          (∃ logged, (run steps env).2.log = env.log ++ logged
            ∧ (run steps' env').2.log = env'.log ++ logged)
          ∧ (run steps env).1.map Step.debugTexts = (run steps' env').1.map Step.debugTexts)
    ∧ ∀ i j : Issuer, i.Alike j → i.debugTexts = j.debugTexts := by
  refine ⟨log_run h env, ?_, fun i j halike => halike.debugTexts_eq⟩
  intro steps' env' halike hlen
  obtain ⟨hevents, htexts⟩ := events_run_of_alike halike h hlen
  refine ⟨⟨_, log_run h env, ?_⟩, htexts⟩
  rw [hevents]
  exact log_run (provided_of_alike halike h) env'

/-- A session for trials: an issuer is built, and it issues a token, stores a text and verifies
it. -/
def routine (key : SigningKey) (inviter invitee text : String) (now : UInt64) : List Step :=
  let i : Issuer := ⟨key, .usual, .chacha⟩
  [.create key.bytes .usual .chacha, .issue i inviter invitee now, .store i text,
    .verify i text now]

/-- Two keys, pairs of names, texts, times and strings of random bytes, and one log. -/
theorem routine_log :
    let key : SigningKey := ⟨List.replicate 32 0x42, by decide⟩
    let key' : SigningKey := ⟨List.replicate 32 0x43, by decide⟩
    (∀ s ∈ routine key "alice" "bob" "a stored text" 1700000000, s.Provided)
      ∧ List.Forall₂ Step.Alike (routine key "alice" "bob" "a stored text" 1700000000)
        (routine key' "carol" "eve" "" 5)
      ∧ (run (routine key "alice" "bob" "a stored text" 1700000000)
          ⟨List.replicate 28 0x11, []⟩).2.log = [.ready 32 604800, .issued 67]
      ∧ (run (routine key' "carol" "eve" "" 5) ⟨List.replicate 28 0x22, []⟩).2.log
          = [.ready 32 604800, .issued 67] := by
  intro key key'
  have hsteps : ∀ s ∈ routine key "alice" "bob" "a stored text" 1700000000, s.Provided := by
    simp only [routine, List.forall_mem_cons]
    exact ⟨trivial, trivial, .inl rfl, trivial, List.forall_mem_nil _⟩
  have hkeys : key.bytes.length = key'.bytes.length := rfl
  have hissuers : Issuer.Alike ⟨key, .usual, .chacha⟩ ⟨key', .usual, .chacha⟩ :=
    ⟨hkeys, rfl, rfl⟩
  have halike : List.Forall₂ Step.Alike (routine key "alice" "bob" "a stored text" 1700000000)
      (routine key' "carol" "eve" "" 5) :=
    .cons (.create hkeys _ _) (.cons (.issue hissuers (by decide) (by decide) _ _)
      (.cons (.store hissuers _ _) (.cons (.verify hissuers _ _ _ _) .nil)))
  obtain ⟨i, token, stored, e, left, hrun⟩ : ∃ i token stored e left,
      run (routine key "alice" "bob" "a stored text" 1700000000) ⟨List.replicate 28 0x11, []⟩
        = ([.ok i, .ok token, .ok stored, .error e], left) := ⟨_, _, _, _, _, rfl⟩
  obtain ⟨hevents, halike', -⟩ :=
    log_carries_lengths _ ⟨List.replicate 28 0x11, []⟩ hsteps
  have hlog : (run (routine key "alice" "bob" "a stored text" 1700000000)
      ⟨List.replicate 28 0x11, []⟩).2.log = [.ready 32 604800, .issued 67] := by
    rw [hevents, hrun]
    rfl
  obtain ⟨⟨logged, hlogged, hlogged'⟩, -⟩ :=
    halike' _ ⟨List.replicate 28 0x22, []⟩ halike rfl
  refine ⟨hsteps, halike, hlog, ?_⟩
  rw [hlogged', ← hlog, hlogged]

end Session

end Invitation
