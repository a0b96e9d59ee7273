/-!
# Instants

A platform's clock counts the seconds since the epoch with a sign and 63 bits. Later times exist as
numbers in a token but not on that clock.
-/

namespace Invitation

/-- The first second that the clock does not reach. -/
def Instant.limit : Nat := Nat.pow 2 63

/-- A moment on the clock, in seconds since the epoch. -/
structure Instant where
  seconds : Nat
  lt_limit : seconds < Instant.limit
  deriving DecidableEq

/-- The moment a number of seconds after the epoch, if the clock reaches it. -/
def Instant.ofSeconds? (seconds : UInt64) : Option Instant :=
  if h : seconds.toNat < Instant.limit then some ⟨seconds.toNat, h⟩ else none

end Invitation
