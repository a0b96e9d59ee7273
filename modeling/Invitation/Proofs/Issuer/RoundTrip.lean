import Invitation.Proofs.Issuer.Outcomes

/-!
# Issued tokens are verified

Issuing never fails while sixteen random bytes are left, and what is issued is verified by every
issuer with the same signing key, whatever its settings and its encryptor.  It gives back the
invitee's name as it was, the time of issue, and of the inviter's name as much as its field can hold
(`verify_issue`).  The verdict depends on the age of the token and the lifetime of the issuer that
verifies it alone: within the lifetime the token is accepted, and after it it has expired.  An
issued token is never invalid.
-/

namespace Invitation.Issuer

/-- What an issuer issues is verified under the same key until the lifetime of the issuer that
verifies it is over, with the longest beginning of the inviter's name that fits. -/
theorem verify_issue (i : Issuer) (inviter invitee : String) (now : UInt64) (env : Environment)
    (h : 16 ≤ env.entropy.length) :
    ∃ (token kept : String) (env' : Environment),
      (i.issue inviter invitee now).run env = (.ok token, env')
        ∧ Text.LongestFit 65535 inviter kept
        ∧ ∀ (j : Issuer) (now' : UInt64), j.key = i.key →
          j.verify token now' =
            if max ((now'.toNat : Int) - now.toNat) 0 ≤ j.settings.lifetime.seconds.toNat then
              .ok { inviter := kept, invitee := invitee, createdAt := now }
            else .error .tokenExpired := by
  refine ⟨_, Text.cut 65535 inviter, _, run_issue i inviter invitee now h,
    Text.longestFit_cut 65535 inviter, ?_⟩
  intro j now' hkey
  rw [verify_ofPayload hkey]
  by_cases hover : j.settings.lifetime.isOver now now' = true
  · have hlate := (Lifetime.isOver_iff _ _ _).1 hover
    rw [if_pos hover, if_neg (Int.not_le.2 hlate)]
  · have hearly := Int.not_lt.1 (mt (Lifetime.isOver_iff _ _ _).2 hover)
    rw [if_neg hover, if_pos hearly]
    rfl

/-- An issuer for trials, with 32 equal bytes for a key. -/
def trial (settings : Settings) : Issuer where
  key := ⟨List.replicate 32 0x42, by decide⟩
  settings := settings
  encryptor := .chacha

/-- From sixteen equal bytes the issuer for trials issues a token. -/
lemma exists_run_issue_trial (inviter invitee : String) (now : UInt64) :
    ∃ token env', ((trial .usual).issue inviter invitee now).run ⟨List.replicate 16 0x11, []⟩
      = (.ok token, env') :=
  exists_run_issue (trial .usual) inviter invitee now (Nat.le_of_eq List.length_replicate.symm)

/-- Names beyond ASCII come back from a token in its last second, and not a second later. -/
theorem verify_issue_last_second :
    16 ≤ (List.replicate 16 (0x11 : UInt8)).length ∧
      ∃ (token : String) (env' : Environment),
        ((trial .usual).issue "José 👋" "李雷@例子.中国" 1700000000).run
            ⟨List.replicate 16 0x11, []⟩ = (.ok token, env')
          ∧ (trial (.ofLifetime (.ofSeconds 60))).verify token 1700000060
            = .ok ⟨"José 👋", "李雷@例子.中国", 1700000000⟩
          ∧ (trial (.ofLifetime (.ofSeconds 60))).verify token 1700000061
            = .error .tokenExpired := by
  have henough : 16 ≤ (List.replicate 16 (0x11 : UInt8)).length := by decide
  obtain ⟨token, kept, env', hrun, hkept, hverify⟩ :=
    verify_issue (trial .usual) "José 👋" "李雷@例子.中国" 1700000000
      ⟨List.replicate 16 0x11, []⟩ henough
  have hself : kept = "José 👋" := by
    rw [hkept.eq_cut]
    exact Text.cut_eq_self (by decide)
  subst hself
  have hminute := hverify (trial (.ofLifetime (.ofSeconds 60)))
  refine ⟨henough, token, env', hrun, ?_, ?_⟩
  · rw [hminute _ rfl]
    exact if_pos (by decide)
  · rw [hminute _ rfl]
    exact if_neg (by decide)

end Invitation.Issuer
