import Invitation.Proofs.Session.Steps

/-!
# Random bytes are taken in order and show in what they are used for

The random bytes are a queue that all issuers of a session share.  What a session takes from its
front is what its outcomes show: sixteen bytes in each token, twelve in each stored text and the 32
of each new key, in the order of the steps (`consumed_in_order`).  So no byte is used twice, none is
skipped and none is lost.  A step that fails takes nothing, and as the rest of a session depends on
nothing but the bytes that are left, it could as well not have been there, and neither could a step
that needs no random bytes.

Texts are taken to be within the cipher's reach: a longer one fails after its nonce was drawn.
-/

namespace Invitation

namespace Step

variable {s : Step} {n : Nat}

/-- A step that needs random bytes succeeds and shows them if there are enough, and runs out of them
otherwise. -/
lemma outcome_of_draws (h : s.Draws n) (hreach : s.InReach) (env : Environment) :
    if n ≤ env.entropy.length then
      (∃ answer, (s.run env).1 = .ok answer) ∧ s.shown (s.run env).1 = env.entropy.take n
    else (s.run env).1 = .error .randomnessExhausted := by
  obtain ⟨entropy, log⟩ := env
  split
  · next hsize =>
    obtain ⟨b, rest, rfl⟩ := Block.exists_eq_append hsize
    obtain ⟨outcome, hrun, hsuccess⟩ := exists_run_of_draws h b rest
    obtain ⟨hshown, hok⟩ := hsuccess hreach
    rw [hrun, hshown]
    exact ⟨hok, (List.take_left' b.property).symm⟩
  · next hsize => rw [run_of_short h hsize]

/-- A step that fails or needs no random bytes takes none. -/
lemma entropy_run_of_idle (h : s.Provided) (hreach : s.InReach) (env : Environment)
    (hidle : (∃ error, (s.run env).1 = .error error) ∨ ∀ n, ¬ s.Draws n) :
    (s.run env).2.entropy = env.entropy := by
  rcases hidle with ⟨error, herror⟩ | hnone
  · obtain ⟨outcome, drawn, rest, hentropy, hrun, hshown⟩ := exists_run h env.entropy
    rw [hrun env rfl] at herror ⊢
    obtain rfl : outcome = .error error := herror
    rw [← hshown hreach, shown_error] at hentropy
    exact hentropy.symm
  · obtain ⟨outcome, -, hrun⟩ := exists_run_of_idle h hnone
    rw [hrun]

end Step

namespace Session

variable {steps : List Step} {env : Environment}

/-- The step of an entry is one of the session's. -/
lemma step_mem_of_mem_trace {e : Entry} (h : e ∈ trace steps env) : e.step ∈ steps := by
  have hstep := List.mem_map_of_mem (f := Entry.step) h
  rwa [map_step_trace] at hstep

/-- What a session answers and what it leaves of the random bytes do not depend on the log. -/
lemma run_congr (h : ∀ s ∈ steps, s.Provided) {env' : Environment}
    (hentropy : env.entropy = env'.entropy) :
    (run steps env).1 = (run steps env').1
      ∧ (run steps env).2.entropy = (run steps env').2.entropy := by
  obtain ⟨outcomes, drawn, rest, -, hrun, -⟩ := exists_run h env.entropy
  rw [hrun env rfl, hrun env' hentropy.symm]
  exact ⟨rfl, rfl⟩

/-- A step that takes no random bytes could as well not be there: without it the others have the
same outcomes. -/
lemma run_without {before after : List Step} {s : Step} (h : ∀ t ∈ after, t.Provided)
    (hs : (s.run (run before env).2).2.entropy = (run before env).2.entropy) :
    (run (before ++ after) env).1 = (run (before ++ s :: after) env).1.eraseIdx before.length
      ∧ (run (before ++ after) env).2.entropy = (run (before ++ s :: after) env).2.entropy := by
  -- the step may have logged something, so the steps after it run in another environment
  obtain ⟨houtcomes, hentropy⟩ := run_congr h hs
  rw [run_append, run_append, run_cons]
  refine ⟨?_, hentropy.symm⟩
  rw [← length_outcomes before env, List.eraseIdx_append_of_length_le le_rfl, Nat.sub_self,
    List.eraseIdx_cons_zero, houtcomes]

/-- The random bytes that a session consumes are, in the order of its steps, those that its tokens,
its stored texts and its new keys show.  A step that needs sixteen, twelve or 32 of them succeeds
and shows as many, the next ones, or too few are left and it fails for that.  A step that fails and
a step that needs none leave them as they were, and without it every other step of the session has
the outcome that it had. -/
theorem consumed_in_order (steps : List Step) (env : Environment)
    (h : ∀ s ∈ steps, s.Provided ∧ s.InReach) :
    env.entropy = (List.zipWith Step.shown steps (run steps env).1).flatten
        ++ (run steps env).2.entropy
    ∧ (∀ e ∈ trace steps env, ∀ n, e.step.Draws n →
        if n ≤ e.before.entropy.length then
          (∃ answer, e.outcome = .ok answer)
            ∧ e.step.shown e.outcome = e.before.entropy.take n
            ∧ (e.step.shown e.outcome).length = n
        else e.outcome = .error .randomnessExhausted)
    ∧ (∀ e ∈ trace steps env,
        (∃ error, e.outcome = .error error) ∨ (∀ n, ¬ e.step.Draws n) →
          e.after.entropy = e.before.entropy)
    ∧ ∀ (before after : List Step) (s : Step), steps = before ++ s :: after →
        (∃ error, (s.run (run before env).2).1 = .error error) ∨ (∀ n, ¬ s.Draws n) →
          (run (before ++ after) env).1 = (run steps env).1.eraseIdx before.length
            ∧ (run (before ++ after) env).2.entropy = (run steps env).2.entropy := by
  have hprovided : ∀ s ∈ steps, s.Provided := fun s hs => (h s hs).1
  have hreach : ∀ s ∈ steps, s.InReach := fun s hs => (h s hs).2
  refine ⟨?_, ?_, ?_, ?_⟩
  · obtain ⟨outcomes, drawn, rest, hentropy, hrun, hshown⟩ := exists_run hprovided env.entropy
    rw [hrun env rfl, hshown hreach]
    exact hentropy
  · intro e he n hn
    have houtcome := Step.outcome_of_draws hn (hreach _ (step_mem_of_mem_trace he)) e.before
    rw [run_of_mem_trace he] at houtcome
    split at houtcome
    · next hsize =>
      obtain ⟨hok, hshown⟩ := houtcome
      rw [if_pos hsize]
      refine ⟨hok, hshown, ?_⟩
      rw [hshown]
      exact List.length_take_of_le hsize
    · next hsize => rwa [if_neg hsize]
  · intro e he hidle
    have hmem := step_mem_of_mem_trace he
    have hentropy := Step.entropy_run_of_idle (hprovided _ hmem) (hreach _ hmem) e.before
    rw [run_of_mem_trace he] at hentropy
    exact hentropy hidle
  · rintro before after s rfl hidle
    have hmem : s ∈ before ++ s :: after := List.mem_append_right _ List.mem_cons_self
    have hafter : ∀ t ∈ after, t.Provided := fun t ht =>
      hprovided t (List.mem_append_right _ (List.mem_cons_of_mem _ ht))
    exact run_without hafter
      (Step.entropy_run_of_idle (hprovided s hmem) (hreach s hmem) _ hidle)

/-- A session for trials: an issuer issues a token, somebody seals a text under a key that is too
short, and the issuer stores a text. -/
def scarce : List Step :=
  [.issue (Issuer.trial .usual) "alice" "bob" 1700000000,
    .sealText (List.replicate 31 0x42) "alice", .store (Issuer.trial .usual) "alice"]

/-- Fourteen random bytes are too few for a token and enough to store a text afterwards, with or
without an attempt at sealing in between. -/
theorem scarce_consumes_nonce :
    (∀ s ∈ scarce, s.Provided ∧ s.InReach)
      ∧ ∃ stored : String,
        run scarce ⟨List.replicate 14 0x55, []⟩
          = ([.error .randomnessExhausted, .error (.sealing .keyLength), .ok (.text stored)],
            ⟨List.replicate 2 0x55, []⟩)
        ∧ Encryptor.nonceOf stored = List.replicate 12 0x55
        ∧ (run (scarce.eraseIdx 1) ⟨List.replicate 14 0x55, []⟩).1
          = [.error .randomnessExhausted, .ok (.text stored)] := by
  have hsize : "alice".utf8ByteSize < 64 * (2 ^ 32 - 1) := by decide
  have hsteps : ∀ s ∈ scarce, s.Provided ∧ s.InReach := by
    simp only [scarce, List.forall_mem_cons]
    exact ⟨⟨trivial, trivial⟩, ⟨trivial, hsize⟩, ⟨.inl rfl, hsize⟩, List.forall_mem_nil _⟩
  obtain ⟨hconsumed, -, -, hwithout⟩ :=
    consumed_in_order scarce ⟨List.replicate 14 0x55, []⟩ hsteps
  obtain ⟨stored, hrun⟩ : ∃ stored : String, run scarce ⟨List.replicate 14 0x55, []⟩
      = ([.error .randomnessExhausted, .error (.sealing .keyLength), .ok (.text stored)],
        ⟨List.replicate 2 0x55, []⟩) := ⟨_, rfl⟩
  refine ⟨hsteps, stored, hrun, ?_, ?_⟩
  · have hnonce : List.replicate 14 (0x55 : UInt8)
        = Encryptor.nonceOf stored ++ List.replicate 2 0x55 := by
      rw [hrun] at hconsumed
      exact hconsumed.trans (by simp [scarce, Step.shown])
    exact (List.append_cancel_right hnonce).symm
  · have hrest := (hwithout (scarce.take 1) (scarce.drop 2) _ rfl (.inl ⟨_, rfl⟩)).1
    rw [hrun] at hrest
    exact hrest

end Session

end Invitation
