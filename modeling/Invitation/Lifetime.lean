/-!
# Lifetimes

How long an invitation may be taken up. A lifetime is whole seconds and a rest in nanoseconds; ages
are whole seconds, so the rest never matters to a verdict. An age is counted from zero if the clock
stands before the time of issue.
-/

namespace Invitation

/-- A span of time. -/
structure Lifetime where
  seconds : UInt64
  /-- What exceeds the whole seconds. -/
  nanoseconds : Fin 1000000000
  deriving DecidableEq

namespace Lifetime

/-- A lifetime of whole seconds. -/
def ofSeconds (seconds : UInt64) : Lifetime := ⟨seconds, 0⟩

/-- The age in seconds at the time `now` of what was created at `created`. -/
def age (created now : UInt64) : Nat := now.toNat - created.toNat

/-- Whether what was created at `created` has outlived its lifetime at the time `now`. The last
second of the lifetime still counts. -/
def isOver (life : Lifetime) (created now : UInt64) : Bool := life.seconds.toNat < age created now

/-- The last second of what was created at `created`, or the last that the clock can tell. -/
def lastSecond (life : Lifetime) (created : UInt64) : UInt64 :=
  UInt64.ofNat (min (created.toNat + life.seconds.toNat) (UInt64.size - 1))

/-! ## Shown as text -/

/-- The digits behind the point for `rest` parts of `10 ^ places`, with the point, and without zeros
at the end; nothing if no digit is left. -/
def decimals (places rest : Nat) : String :=
  let digits := (Nat.toDigits 10 (Nat.pow 10 places + rest)).drop 1
  let kept := (digits.reverse.dropWhile (· == '0')).reverse
  if kept.isEmpty then "" else "." ++ String.ofList kept

/-- A lifetime in the largest unit that it fills, from seconds down to nanoseconds. -/
def describe (life : Lifetime) : String :=
  let nanos := life.nanoseconds.val
  let shown (whole places rest : Nat) (unit : String) := s!"{whole}{decimals places rest}{unit}"
  if 0 < life.seconds then shown life.seconds.toNat 9 nanos "s"
  else if 1000000 ≤ nanos then shown (nanos / 1000000) 6 (nanos % 1000000) "ms"
  else if 1000 ≤ nanos then shown (nanos / 1000) 3 (nanos % 1000) "µs"
  else shown nanos 0 0 "ns"

end Lifetime

end Invitation
