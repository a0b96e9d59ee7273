import Invitation.Lifetime
import Invitation.Text.Quoted
import Invitation.Token.Instant
import Invitation.Token.Payload

/-!
# Contents of a token

What the holder of a token is told once it has been verified.
-/

namespace Invitation

/-- What a verified token says. -/
structure Contents where
  inviter : String
  invitee : String
  /-- The time of issue in seconds. -/
  createdAt : UInt64
  deriving DecidableEq

/-- What a payload says to the holder of its token. -/
def Payload.contents (p : Payload) : Contents := ⟨p.inviter, p.invitee, p.timestamp⟩

namespace Contents

/-- The moment of issue, if the clock reaches it. -/
def createdAtInstant? (c : Contents) : Option Instant := Instant.ofSeconds? c.createdAt

/-- The last second at which the token is fresh. -/
def expiresAt (c : Contents) (life : Lifetime) : UInt64 := life.lastSecond c.createdAt

/-- The contents on one line. -/
def describe (c : Contents) : String :=
  let inviter := Text.quoted c.inviter
  let invitee := Text.quoted c.invitee
  s!"InviteTokenData \x7b inviter: {inviter}, invitee: {invitee}, created_at: {c.createdAt} \x7d"

end Contents

end Invitation
