import Invitation.Proofs.Issuer.Canonicity
import Invitation.Proofs.Issuer.Storage
import Invitation.Proofs.Session.Trace

/-!
# Nothing is given out twice

A token shows the random bytes that it was issued with, its time, the invitee and as much of the
inviter's name as it carries, whatever the key; a stored text shows its nonce, and under one key its
text.  So two steps of a session give the same text only if they drew the same bytes
(`texts_determine_draws`), and a session in which no two steps draw the same gives out no token and
no stored text twice.
-/

namespace Invitation

/-- Tokens show the bytes of their payloads whatever the key. -/
lemma Token.encode_eq_of_ofPayload_eq {key key' : Bytes} {p q : Payload}
    (h : ofPayload key p = ofPayload key' q) : p.encode = q.encode := by
  rw [← carelessPayload_ofPayload key p, h, carelessPayload_ofPayload]

namespace Entry

/-- In this entry an issuer issues a token. -/
structure Issues (e : Entry) (i : Issuer) (inviter invitee : String) (now : UInt64)
    (token : String) : Prop where
  step : e.step = .issue i inviter invitee now
  outcome : e.outcome = .ok (.text token)

/-- In this entry an issuer with the usual encryptor stores a text. -/
structure Stores (e : Entry) (i : Issuer) (text stored : String) : Prop where
  step : e.step = .store i text
  encryptor : i.encryptor = .chacha
  outcome : e.outcome = .ok (.text stored)

variable {e e' : Entry} {i i' : Issuer}

/-! ## What a step gives and what it drew -/

/-- A step that issues a token draws the random field of its payload. -/
lemma Issues.exists_drawn {inviter invitee token : String} {now : UInt64}
    (hrun : e.step.run e.before = (e.outcome, e.after))
    (h : e.Issues i inviter invitee now token) :
    ∃ entropy : Block Payload.entropySize, e.drawn = entropy.bytes
      ∧ token = Token.ofPayload i.key.bytes ⟨entropy, now, inviter, invitee⟩ := by
  rw [h.step, h.outcome] at hrun
  obtain ⟨_, hissue, htext⟩ := Action.run_map_eq_ok hrun
  cases htext
  obtain ⟨entropy, hdrawn, -, htoken⟩ := Issuer.exists_draw_of_run_issue hissue
  exact ⟨entropy, drawn_eq hdrawn, htoken⟩

/-- A step that stores a text draws the nonce of its stored form. -/
lemma Stores.exists_drawn {text stored : String}
    (hrun : e.step.run e.before = (e.outcome, e.after)) (h : e.Stores i text stored) :
    ∃ nonce : Block ChaCha20.nonceSize, e.drawn = nonce.bytes
      ∧ stored = Encryptor.storedText i.key.storageKey nonce text := by
  rw [h.step, h.outcome] at hrun
  obtain ⟨_, hstore, htext⟩ := Action.run_map_eq_ok hrun
  cases htext
  rw [Issuer.store_eq_sealText h.encryptor] at hstore
  obtain ⟨key, nonce, hkey, hdrawn, -, -, hstored⟩ :=
    Encryptor.exists_storedText_of_run_sealText hstore
  obtain rfl : i.key.storageKey = key := Subtype.ext hkey
  exact ⟨nonce, drawn_eq hdrawn, hstored⟩

/-! ## Two steps that give the same -/

/-- Two steps issue one token only if they agree in all that the token shows. -/
lemma Issues.eq_of_token {inviter invitee inviter' invitee' token : String} {now now' : UInt64}
    (hrun : e.step.run e.before = (e.outcome, e.after))
    (hrun' : e'.step.run e'.before = (e'.outcome, e'.after))
    (h : e.Issues i inviter invitee now token) (h' : e'.Issues i' inviter' invitee' now' token) :
    (∃ entropy : Block Payload.entropySize, e.drawn = entropy.bytes ∧ e'.drawn = entropy.bytes)
      ∧ now = now' ∧ invitee = invitee'
      ∧ Text.cut Payload.maxInviterLength inviter = Text.cut Payload.maxInviterLength inviter' := by
  obtain ⟨entropy, hdrawn, htoken⟩ := h.exists_drawn hrun
  obtain ⟨entropy', hdrawn', htoken'⟩ := h'.exists_drawn hrun'
  obtain ⟨hentropy, htime, hinvitee, hinviter⟩ :=
    Payload.eq_of_encode_eq (Token.encode_eq_of_ofPayload_eq (htoken.symm.trans htoken'))
  obtain rfl : entropy = entropy' := hentropy
  exact ⟨⟨entropy, hdrawn, hdrawn'⟩, htime, hinvitee, hinviter⟩

/-- Two steps give one stored text only if they drew one nonce and, under one signing key, stored
one text. -/
lemma Stores.eq_of_stored {text text' stored : String}
    (hrun : e.step.run e.before = (e.outcome, e.after))
    (hrun' : e'.step.run e'.before = (e'.outcome, e'.after))
    (h : e.Stores i text stored) (h' : e'.Stores i' text' stored) :
    (∃ nonce : Block ChaCha20.nonceSize, e.drawn = nonce.bytes ∧ e'.drawn = nonce.bytes)
      ∧ (i.key = i'.key → text = text') := by
  obtain ⟨nonce, hdrawn, hstored⟩ := h.exists_drawn hrun
  obtain ⟨nonce', hdrawn', hstored'⟩ := h'.exists_drawn hrun'
  obtain ⟨hnonce, htext⟩ := Encryptor.storedText_inj (hstored.symm.trans hstored')
  obtain rfl : nonce = nonce' := hnonce
  refine ⟨⟨nonce, hdrawn, hdrawn'⟩, ?_⟩
  intro hkey
  exact htext (congrArg SigningKey.storageKey hkey)

end Entry

namespace Session

/-! ## Whole sessions -/

/-- Steps that do not draw the same do not both draw one block. -/
lemma not_both_drawn {n : Nat} (hn : 0 < n) (b : Block n) {e e' : Entry}
    (hdiffer : e.drawn = e'.drawn → e.drawn = []) (h : e.drawn = b.bytes) :
    e'.drawn ≠ b.bytes := by
  intro h'
  have hnone : b.bytes = [] := h.symm.trans (hdiffer (h.trans h'.symm))
  have hlen : b.bytes.length = n := b.property
  rw [hnone] at hlen
  exact hn.ne hlen

/-- In every session, whoever its issuers are, two steps issue one token only if they drew the same
sixteen bytes and agree in the time, the invitee and the inviter as far as the token carries the
name, and two steps give one stored text only if they drew the same twelve bytes and, under one
signing key, stored the same text.  So if no two steps draw the same bytes, no token and no stored
text is given out twice. -/
theorem texts_determine_draws (steps : List Step) (env : Environment) :
    (∀ e ∈ trace steps env, ∀ e' ∈ trace steps env,
      ∀ (i i' : Issuer) (inviter inviter' invitee invitee' token : String) (now now' : UInt64),
        e.Issues i inviter invitee now token → e'.Issues i' inviter' invitee' now' token →
          (∃ entropy : Block 16, e.drawn = entropy.bytes ∧ e'.drawn = entropy.bytes)
            ∧ now = now' ∧ invitee = invitee'
            ∧ ∃ kept, Text.LongestFit 65535 inviter kept ∧ Text.LongestFit 65535 inviter' kept)
    ∧ (∀ e ∈ trace steps env, ∀ e' ∈ trace steps env,
      ∀ (i i' : Issuer) (text text' stored : String),
        e.Stores i text stored → e'.Stores i' text' stored →
          (∃ nonce : Block 12, e.drawn = nonce.bytes ∧ e'.drawn = nonce.bytes)
            ∧ (i.key = i'.key → text = text'))
    ∧ ((trace steps env).Pairwise (fun e e' => e.drawn = e'.drawn → e.drawn = []) →
        (trace steps env).Pairwise (fun e e' =>
          ∀ (i i' : Issuer) (inviter inviter' invitee invitee' token token' : String)
            (now now' : UInt64), e.Issues i inviter invitee now token →
              e'.Issues i' inviter' invitee' now' token' → token ≠ token')
        ∧ (trace steps env).Pairwise (fun e e' =>
          ∀ (i i' : Issuer) (text text' stored stored' : String),
            e.Stores i text stored → e'.Stores i' text' stored' → stored ≠ stored')) := by
  refine ⟨?_, ?_, ?_⟩
  · intro e he e' he' i i' inviter inviter' invitee invitee' token now now' h h'
    obtain ⟨hdrawn, htime, hinvitee, hinviter⟩ :=
      h.eq_of_token (run_of_mem_trace he) (run_of_mem_trace he') h'
    have hcut : Text.cut 65535 inviter = Text.cut 65535 inviter' := hinviter
    refine ⟨hdrawn, htime, hinvitee, Text.cut 65535 inviter, Text.longestFit_cut _ _, ?_⟩
    rw [hcut]
    exact Text.longestFit_cut 65535 inviter'
  · intro e he e' he' i i' text text' stored h h'
    exact h.eq_of_stored (run_of_mem_trace he) (run_of_mem_trace he') h'
  -- texts show what was drawn for them, so equal ones would go back to equal draws
  · intro hdraws
    constructor
    · refine hdraws.imp_of_mem ?_
      rintro e e' he he' hdiffer i i' inviter inviter' invitee invitee' token _ now now' h h' rfl
      obtain ⟨⟨entropy, hdrawn, hdrawn'⟩, -⟩ :=
        h.eq_of_token (run_of_mem_trace he) (run_of_mem_trace he') h'
      exact not_both_drawn (by decide) entropy hdiffer hdrawn hdrawn'
    · refine hdraws.imp_of_mem ?_
      rintro e e' he he' hdiffer i i' text text' stored _ h h' rfl
      obtain ⟨⟨nonce, hdrawn, hdrawn'⟩, -⟩ :=
        h.eq_of_stored (run_of_mem_trace he) (run_of_mem_trace he') h'
      exact not_both_drawn (by decide) nonce hdiffer hdrawn hdrawn'

/-- A session for trials: two issuers with one key issue a token for the same names at the same
time, and one of them stores a text twice. -/
def repetitive : List Step :=
  [.issue (Issuer.trial .usual) "alice" "bob" 1700000000,
    .issue (Issuer.trial (.ofLifetime (.ofSeconds 60))) "alice" "bob" 1700000000,
    .store (Issuer.trial .usual) "alice", .store (Issuer.trial .usual) "alice"]

/-- Random bytes for that session, no two draws of which agree. -/
def fourDraws : Environment where
  entropy := List.replicate 16 0x11 ++ List.replicate 16 0x22 ++ List.replicate 12 0x33
    ++ List.replicate 12 0x44
  log := []

/-- Under fresh random bytes nothing is given out twice even if the same is asked for twice. -/
theorem repetitive_texts_differ :
    ∃ (token token' stored stored' : String) (log : List Event),
      run repetitive fourDraws
        = ([.ok (.text token), .ok (.text token'), .ok (.text stored), .ok (.text stored')],
          ⟨[], log⟩)
      ∧ token ≠ token' ∧ stored ≠ stored' := by
  have hdraws : (trace repetitive fourDraws).Pairwise
      (fun e e' => e.drawn = e'.drawn → e.drawn = []) := by decide
  obtain ⟨hissued, hstored⟩ := (texts_determine_draws repetitive fourDraws).2.2 hdraws
  obtain ⟨token, token', stored, stored', log, hrun⟩ :
      ∃ (token token' stored stored' : String) (log : List Event),
        run repetitive fourDraws
          = ([.ok (.text token), .ok (.text token'), .ok (.text stored), .ok (.text stored')],
            ⟨[], log⟩) := ⟨_, _, _, _, _, rfl⟩
  obtain ⟨a, b, c, d, htrace⟩ : ∃ a b c d, trace repetitive fourDraws = [a, b, c, d] :=
    ⟨_, _, _, _, rfl⟩
  have hsteps := map_step_trace repetitive fourDraws
  have houtcomes := congrArg Prod.fst ((run_eq_trace repetitive fourDraws).symm.trans hrun)
  rw [htrace] at hissued hstored hsteps houtcomes
  simp only [repetitive, List.map_cons, List.map_nil, List.cons.injEq] at hsteps houtcomes
  obtain ⟨ha, hb, hc, hd, -⟩ := hsteps
  obtain ⟨ha', hb', hc', hd', -⟩ := houtcomes
  refine ⟨token, token', stored, stored', log, hrun, ?_, ?_⟩
  · exact List.rel_of_pairwise_cons hissued List.mem_cons_self _ _ _ _ _ _ _ _ _ _
      ⟨ha, ha'⟩ ⟨hb, hb'⟩
  · exact List.rel_of_pairwise_cons hstored.of_cons.of_cons List.mem_cons_self _ _ _ _ _ _
      ⟨hc, rfl, hc'⟩ ⟨hd, rfl, hd'⟩

end Session

end Invitation
