import Invitation.Proofs.Issuer.Freshness

/-!
# Times of issue beyond the clock

A token carries the time of issue as a number of 64 bits, and verification takes every such number:
a time that has yet to come counts as age zero.  A platform's clock ends earlier.  So what is
accepted may have been issued, as it says, at a moment that is no `Instant`, and this is so exactly
if its time is `Instant.limit` or later (`verified_instant`).  Issuers make such tokens when they
are given such a time, and accept them at all earlier times too.

The last second of a lifetime is found with numbers of 64 bits alone and knows no such end: it
is never before the time of issue.
-/

namespace Invitation

namespace Contents

/-- The moment of issue has the seconds that the contents state. -/
lemma createdAtInstant?_eq_some_iff {c : Contents} {t : Instant} :
    c.createdAtInstant? = some t ↔ t.seconds = c.createdAt.toNat := by
  rw [createdAtInstant?, Instant.ofSeconds?]
  constructor
  · intro h
    split at h
    · cases h
      rfl
    · cases h
  · rintro h
    obtain ⟨seconds, hlt⟩ := t
    subst h
    exact dif_pos hlt

/-- There is no such moment exactly if the clock ends before it. -/
lemma createdAtInstant?_eq_none_iff {c : Contents} :
    c.createdAtInstant? = none ↔ Instant.limit ≤ c.createdAt.toNat := by
  rw [createdAtInstant?, Instant.ofSeconds?]
  split
  · next hlt => simp [hlt]
  · next hlt => simp [Nat.le_of_not_lt hlt]

/-- Nothing expires before it was issued. -/
lemma createdAt_le_expiresAt (c : Contents) (life : Lifetime) :
    c.createdAt ≤ c.expiresAt life := by
  have hclock : c.createdAt.toNat < UInt64.size := c.createdAt.toNat_lt
  rw [expiresAt, UInt64.le_iff_toNat_le, Lifetime.toNat_lastSecond]
  omega

end Contents

namespace Issuer

/-- What an issuer accepts states the time of its payload.  That is a moment of the clock exactly if
it is before the end of the clock, and then it is that moment; the last second of every lifetime is
at that time or later, as it is the sum of both or the last number there is.  Every time can occur:
an issuer that is given it makes a token which states it, and the token is accepted while the
lifetime lasts. -/
theorem verified_instant (i : Issuer) :
    (∀ (text : String) (now : UInt64) (c : Contents), i.verify text now = .ok c →
      ∃ p, Token.Authentic i.key.bytes text p ∧ c.createdAt = p.timestamp
        ∧ (∀ t : Instant, c.createdAtInstant? = some t ↔ t.seconds = p.timestamp.toNat)
        ∧ (c.createdAtInstant? = none ↔ Nat.pow 2 63 ≤ p.timestamp.toNat)
        ∧ ∀ life : Lifetime, c.createdAt ≤ c.expiresAt life
          ∧ (c.expiresAt life).toNat
            = min (p.timestamp.toNat + life.seconds.toNat) (UInt64.size - 1))
    ∧ ∀ (j : Issuer) (inviter invitee token : String) (issued now : UInt64)
      (env env' : Environment), j.key = i.key →
      (j.issue inviter invitee issued).run env = (.ok token, env') →
      max ((now.toNat : Int) - issued.toNat) 0 ≤ i.settings.lifetime.seconds.toNat →
        ∃ c, i.verify token now = .ok c ∧ c.createdAt = issued
          ∧ (c.createdAtInstant? = none ↔ Nat.pow 2 63 ≤ issued.toNat) := by
  constructor
  · intro text now c h
    obtain ⟨p, hp, rfl, -⟩ := exists_authentic_of_verify h
    refine ⟨p, hp, rfl, fun t => Contents.createdAtInstant?_eq_some_iff,
      Contents.createdAtInstant?_eq_none_iff, fun life => ⟨?_, ?_⟩⟩
    · exact Contents.createdAt_le_expiresAt _ life
    · exact Lifetime.toNat_lastSecond life p.timestamp
  · intro j inviter invitee token issued now env env' hkey hrun hage
    obtain ⟨entropy, rfl⟩ := exists_ofPayload_of_run_issue hrun
    refine ⟨⟨Payload.fittingInviter ⟨entropy, issued, inviter, invitee⟩, invitee, issued⟩, ?_, rfl,
      Contents.createdAtInstant?_eq_none_iff⟩
    rw [verify_ofPayload hkey.symm, Lifetime.ite_isOver, if_pos hage]

/-- A token of today is accepted a minute later, and the moment of its issue is on the clock. -/
theorem verified_instant_of_today :
    ∃ (token : String) (env' : Environment) (c : Contents) (t : Instant),
      ((trial .usual).issue "alice" "bob" 1700000000).run ⟨List.replicate 16 0x11, []⟩
          = (.ok token, env')
        ∧ (trial .usual).verify token 1700000060 = .ok c
        ∧ c.createdAtInstant? = some t ∧ t.seconds = 1700000000
        ∧ 1700000000 ≤ c.expiresAt (.ofSeconds 18446744073709551615) := by
  obtain ⟨token, env', hrun⟩ := exists_run_issue_trial "alice" "bob" 1700000000
  obtain ⟨c, hverify, htime, hinstant⟩ := (verified_instant (trial .usual)).2 (trial .usual)
    "alice" "bob" token 1700000000 1700000060 _ env' rfl hrun (by decide)
  obtain ⟨p, -, hp, hmoment, -, hlast⟩ := (verified_instant (trial .usual)).1 _ _ _ hverify
  rw [← hp, htime] at hmoment
  refine ⟨token, env', c, ⟨1700000000, by decide⟩, hrun, hverify, (hmoment _).2 rfl, rfl, ?_⟩
  rw [← htime]
  exact (hlast _).1

/-- A token that states the first second beyond the clock is accepted today, and no moment of the
clock is that of its issue. -/
theorem verify_beyond_clock :
    ∃ (token : String) (env' : Environment),
      ((trial .usual).issue "alice" "bob" 9223372036854775808).run ⟨List.replicate 16 0x11, []⟩
          = (.ok token, env')
        ∧ (trial .usual).verify token 1700000000 = .ok ⟨"alice", "bob", 9223372036854775808⟩
        ∧ Contents.createdAtInstant? ⟨"alice", "bob", 9223372036854775808⟩ = none := by
  obtain ⟨token, env', hrun⟩ := exists_run_issue_trial "alice" "bob" 9223372036854775808
  exact ⟨token, env', hrun, verify_of_run_issue hrun rfl (by decide) (by decide), by decide⟩

end Issuer

end Invitation
