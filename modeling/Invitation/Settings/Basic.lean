import Invitation.Lifetime

/-!
# Settings of an issuer

What can be chosen is how long invitations last and how long their short codes are. Any length may
be stored; `clampLength` brings it into the range that exists when it is used, and `withCodeLength`
already when it is chosen.
-/

namespace Invitation

/-- The settings of an issuer. -/
structure Settings where
  lifetime : Lifetime
  /-- The length of short codes, as it was asked for. -/
  codeLength : UInt64
  deriving DecidableEq

namespace Settings

/-- The usual lifetime in seconds: seven days. -/
def usualSeconds : UInt64 := 7 * 24 * 60 * 60

/-- The usual length of a short code. -/
def usualCodeLength : UInt64 := 10

/-- The length of the longest short code, which spells a whole digest. -/
def maxCodeLength : Nat := 43

/-- The length from one to the longest that comes closest to the one asked for. -/
def clampLength (length : UInt64) : Nat := min (max length.toNat 1) maxCodeLength

/-- The settings with a given lifetime and the usual length of short codes. -/
def ofLifetime (lifetime : Lifetime) : Settings := ⟨lifetime, usualCodeLength⟩

/-- The usual settings. -/
def usual : Settings := ofLifetime (.ofSeconds usualSeconds)

/-- The settings with another lifetime. -/
def withLifetime (s : Settings) (lifetime : Lifetime) : Settings := { s with lifetime }

/-- The settings with another length of short codes, brought into the range that exists. -/
def withCodeLength (s : Settings) (length : UInt64) : Settings :=
  { s with codeLength := UInt64.ofNat (clampLength length) }

/-- The settings on one line. -/
def describe (s : Settings) : String :=
  s!"InviteConfig \x7b ttl: {s.lifetime.describe}, short_code_length: {s.codeLength} \x7d"

/-- The settings on lines of their own, the inner ones indented by `margin` and four blanks. -/
def describeLines (margin : String) (s : Settings) : String :=
  s!"InviteConfig \x7b\n{margin}    ttl: {s.lifetime.describe},\n"
    ++ s!"{margin}    short_code_length: {s.codeLength},\n{margin}\x7d"

end Settings

end Invitation
