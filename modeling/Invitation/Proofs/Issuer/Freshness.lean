import Invitation.Proofs.Issuer.RoundTrip

/-!
# How long an accepted token is accepted

Verification counts the age of a token, by a subtraction that stops at zero; its holder is told the
last second at which it is fresh, found by an addition that stops at the end of the clock.  Neither
looks at what a lifetime has beyond whole seconds.  All the same both verdicts are that of exact
arithmetic (`freshness_is_exact`).  So the last second tells the holder all there is to know: an
issuer that has accepted a token once accepts it at every time up to that second, earlier ones
included, and calls it expired at every later one.  Nothing that has expired comes back, and a
longer lifetime refuses nothing that a shorter one accepts.
-/

namespace Invitation.Issuer

/-! ## What one answer says of the others -/

/-- What is accepted is authentic. -/
lemma exists_authentic_of_verify {i : Issuer} {text : String} {now : UInt64} {c : Contents}
    (h : i.verify text now = .ok c) :
    ∃ p, Token.Authentic i.key.bytes text p ∧ c = p.contents
      ∧ ¬ i.settings.lifetime.isOver p.timestamp now = true := by
  rcases Token.forged_or_authentic i.key.bytes text with hforged | ⟨p, hp⟩
  · rw [verify_of_forged hforged] at h
    cases h
  · rw [verify_of_authentic hp] at h
    split at h
    · cases h
    · next hearly =>
      cases h
      exact ⟨p, hp, rfl, hearly⟩

/-- What has expired is authentic. -/
lemma exists_authentic_of_expired {i : Issuer} {text : String} {now : UInt64}
    (h : i.verify text now = .error .tokenExpired) :
    ∃ p, Token.Authentic i.key.bytes text p
      ∧ i.settings.lifetime.isOver p.timestamp now = true := by
  rcases Token.forged_or_authentic i.key.bytes text with hforged | ⟨p, hp⟩
  · rw [verify_of_forged hforged] at h
    cases h
  · rw [verify_of_authentic hp] at h
    split at h
    · next hlate => exact ⟨p, hp, hlate⟩
    · cases h

/-- What is accepted once is judged by its last second at all times. -/
lemma verify_of_verify {i : Issuer} {text : String} {accepted : UInt64} {c : Contents}
    (h : i.verify text accepted = .ok c) (now : UInt64) :
    i.verify text now =
      if now ≤ c.expiresAt i.settings.lifetime then .ok c else .error .tokenExpired := by
  obtain ⟨p, hp, rfl, -⟩ := exists_authentic_of_verify h
  have hlast : i.settings.lifetime.isOver p.timestamp now = true
      ↔ ¬ now ≤ p.contents.expiresAt i.settings.lifetime :=
    (Lifetime.isOver_iff_lastSecond_lt _ _ _).trans UInt64.not_le.symm
  rw [verify_of_authentic hp]
  by_cases hearly : now ≤ p.contents.expiresAt i.settings.lifetime
  · rw [if_pos hearly, if_neg (not_not_intro hearly ∘ hlast.1)]
  · rw [if_neg hearly, if_pos (hlast.2 hearly)]

/-- What has expired stays expired. -/
lemma verify_of_expired {i : Issuer} {text : String} {now later : UInt64}
    (h : i.verify text now = .error .tokenExpired) (hle : now ≤ later) :
    i.verify text later = .error .tokenExpired := by
  obtain ⟨p, hp, hover⟩ := exists_authentic_of_expired h
  rw [verify_of_authentic hp, if_pos (Lifetime.isOver_of_le hle hover)]

/-- What is accepted with one lifetime is accepted with every longer one. -/
lemma verify_of_longer {i j : Issuer} {text : String} {now : UInt64} {c : Contents}
    (hkey : j.key = i.key)
    (hlife : i.settings.lifetime.inSeconds ≤ j.settings.lifetime.inSeconds)
    (h : i.verify text now = .ok c) : j.verify text now = .ok c := by
  obtain ⟨p, hp, rfl, hearly⟩ := exists_authentic_of_verify h
  rw [← hkey] at hp
  rw [verify_of_authentic hp, if_neg (mt (Lifetime.isOver_of_inSeconds_le hlife) hearly)]

/-! ## The two computations -/

/-- A lifetime is over exactly if the age exceeds it as a fraction of seconds, and exactly if the
clock is past the last second that the contents tell, also where the sum of both times is beyond the
clock.  So an accepted token is accepted until that second and expires after it, an expired one
stays expired, and a longer lifetime accepts all that a shorter one does. -/
theorem freshness_is_exact :
    (∀ (life : Lifetime) (c : Contents) (now : UInt64),
        (life.isOver c.createdAt now = true ↔
          life.inSeconds < max ((now.toNat : ℚ) - c.createdAt.toNat) 0)
        ∧ (life.isOver c.createdAt now = true ↔ c.expiresAt life < now))
    ∧ (∀ (i : Issuer) (text : String) (accepted : UInt64) (c : Contents),
        i.verify text accepted = .ok c → ∀ now : UInt64,
          i.verify text now =
            if now ≤ c.expiresAt i.settings.lifetime then .ok c else .error .tokenExpired)
    ∧ (∀ (i : Issuer) (text : String) (now later : UInt64),
        i.verify text now = .error .tokenExpired → now ≤ later →
          i.verify text later = .error .tokenExpired)
    ∧ ∀ (i j : Issuer) (text : String) (now : UInt64) (c : Contents), j.key = i.key →
        i.settings.lifetime.inSeconds ≤ j.settings.lifetime.inSeconds →
        i.verify text now = .ok c → j.verify text now = .ok c := by
  refine ⟨?_, ?_, ?_, ?_⟩
  · intro life c now
    exact ⟨Lifetime.isOver_iff_inSeconds life c.createdAt now,
      Lifetime.isOver_iff_lastSecond_lt life c.createdAt now⟩
  · intro i text accepted c h now
    exact verify_of_verify h now
  · intro i text now later h hle
    exact verify_of_expired h hle
  · intro i j text now c hkey hlife h
    exact verify_of_longer hkey hlife h

/-- A token that is issued ten seconds before the end of the clock is accepted until then under a
lifetime of a minute, whose end the clock does not reach, and so it is under a lifetime that is
longer by less than a second.  Under a lifetime of two seconds it expires three seconds later. -/
theorem verify_at_end_of_clock :
    ∃ (token : String) (c : Contents), c.createdAt = 18446744073709551605
      ∧ (trial (.ofLifetime (.ofSeconds 60))).verify token 18446744073709551605 = .ok c
      ∧ (trial (.ofLifetime (.ofSeconds 60))).verify token 18446744073709551615 = .ok c
      ∧ (Lifetime.ofSeconds 60).inSeconds ≤ (⟨60, 999999999⟩ : Lifetime).inSeconds
      ∧ (trial (.ofLifetime ⟨60, 999999999⟩)).verify token 18446744073709551615 = .ok c
      ∧ (trial (.ofLifetime (.ofSeconds 2))).verify token 18446744073709551608
        = .error .tokenExpired
      ∧ (18446744073709551608 : UInt64) ≤ 18446744073709551615
      ∧ (trial (.ofLifetime (.ofSeconds 2))).verify token 18446744073709551615
        = .error .tokenExpired := by
  let p : Payload :=
    ⟨⟨List.replicate 16 0x11, by decide⟩, 18446744073709551605, "alice", "bob"⟩
  let c : Contents := ⟨p.fittingInviter, p.invitee, p.timestamp⟩
  have hjudged (settings : Settings) (now : UInt64) :
      (trial settings).verify (Token.ofPayload (trial .usual).key.bytes p) now =
        if settings.lifetime.isOver 18446744073709551605 now then .error .tokenExpired
        else .ok c := verify_ofPayload rfl p now
  have hminute := (hjudged (.ofLifetime (.ofSeconds 60)) 18446744073709551605).trans
    (if_neg (by decide))
  have hlate := (hjudged (.ofLifetime (.ofSeconds 2)) 18446744073709551608).trans
    (if_pos (by decide))
  have hlonger : (Lifetime.ofSeconds 60).inSeconds
      ≤ (⟨60, 999999999⟩ : Lifetime).inSeconds := by
    simp only [Lifetime.inSeconds, Lifetime.ofSeconds, Fin.val_zero, Nat.cast_zero, zero_div,
      add_zero]
    exact le_add_of_nonneg_right (div_nonneg (Nat.cast_nonneg _) (by norm_num))
  have hend : (trial (.ofLifetime (.ofSeconds 60))).verify
      (Token.ofPayload (trial .usual).key.bytes p) 18446744073709551615 = .ok c :=
    (freshness_is_exact.2.1 _ _ _ _ hminute _).trans (if_pos (by decide))
  have hlonger_end := freshness_is_exact.2.2.2 (trial (.ofLifetime (.ofSeconds 60)))
    (trial (.ofLifetime ⟨60, 999999999⟩)) _ _ _ rfl hlonger hend
  have hlate_end := freshness_is_exact.2.2.1 _ _ _ 18446744073709551615 hlate (by decide)
  exact ⟨_, c, rfl, hminute, hend, hlonger, hlonger_end, hlate, by decide, hlate_end⟩

end Invitation.Issuer
