import Invitation.Issuer
import Std.Time.DateTime.Timestamp

/-!
# The clock

Everything else takes the time as an argument. Here it is read from the machine's clock, in whole
seconds since the epoch; a clock that stands before the epoch counts as standing at it.
-/

namespace Invitation.Clock

/-- The time of the machine's clock. -/
def now : IO UInt64 := do
  let t ← Std.Time.Timestamp.now
  return UInt64.ofNat t.toSecondsSinceUnixEpoch.val.toNat

/-- Verifies a token at the present time. -/
def verify (i : Issuer) (text : String) : IO (Except Error Contents) := return i.verify text (← now)

/-- Verifies a token and its recipient at the present time. -/
def verifyFor (i : Issuer) (text expected : String) : IO (Except Error Contents) :=
  return i.verifyFor text expected (← now)

/-- Issues a token at the present time, in a given environment. -/
def issue (i : Issuer) (inviter invitee : String) (env : Environment) :
    IO (Except Error String × Environment) := return (i.issue inviter invitee (← now)).run env

end Invitation.Clock
