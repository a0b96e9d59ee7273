import Invitation.Lifetime
import Mathlib.Algebra.Order.Field.Rat
import Mathlib.Tactic.Lemma
import Mathlib.Tactic.Linarith

/-!
# When a lifetime is over

The age of an invitation is counted in whole seconds, with a subtraction that stops at zero.  Here
the verdict is read over the integers: something is over if the whole seconds of its lifetime are
fewer than the seconds since it was created (`isOver_iff`), and counting the lifetime to the
nanosecond makes no difference (`isOver_iff_nanoseconds`), as an age has no rest to compare with.
So the verdict is the one that exact arithmetic gives (`isOver_iff_inSeconds`).

A holder who is told the last second of a lifetime comes to the same verdict by looking at the clock
alone (`isOver_iff_lastSecond_lt`).  The last second is found by an addition that stops at the end
of the clock, where the subtraction of an age has long stopped to matter.
-/

namespace Invitation.Lifetime

/-- A lifetime in nanoseconds, with what exceeds its whole seconds. -/
def inNanoseconds (life : Lifetime) : Nat :=
  life.seconds.toNat * 1000000000 + life.nanoseconds.val

/-- The age of what was created at `created` is the time that has passed since, or nothing if the
clock stands before. -/
lemma age_eq_max (created now : UInt64) :
    (age created now : Int) = max ((now.toNat : Int) - created.toNat) 0 := by
  unfold age
  omega

/-- The verdict over the integers. -/
lemma isOver_iff (life : Lifetime) (created now : UInt64) :
    life.isOver created now = true ↔
      (life.seconds.toNat : Int) < max ((now.toNat : Int) - created.toNat) 0 := by
  rw [← age_eq_max, isOver, decide_eq_true_eq]
  exact Int.ofNat_lt.symm

/-- A choice by the verdict is a choice by the age and the whole seconds of the lifetime. -/
lemma ite_isOver {α : Type} (life : Lifetime) (created now : UInt64) (late early : α) :
    (if life.isOver created now then late else early) =
      if max ((now.toNat : Int) - created.toNat) 0 ≤ life.seconds.toNat then early else late := by
  by_cases hover : life.isOver created now = true
  · rw [if_pos hover, if_neg (Int.not_le.2 ((isOver_iff _ _ _).1 hover))]
  · rw [if_neg hover, if_pos (Int.not_lt.1 (mt (isOver_iff _ _ _).2 hover))]

/-- The verdict to the nanosecond. -/
lemma isOver_iff_nanoseconds (life : Lifetime) (created now : UInt64) :
    life.isOver created now = true ↔
      (life.inNanoseconds : Int) < max ((now.toNat : Int) - created.toNat) 0 * 1000000000 := by
  have hrest := life.nanoseconds.isLt
  rw [isOver_iff, inNanoseconds]
  omega

/-! ## The exact lifetime -/

/-- A lifetime in seconds, with what exceeds its whole seconds as a fraction. -/
def inSeconds (life : Lifetime) : ℚ :=
  life.seconds.toNat + (life.nanoseconds.val : ℚ) / 1000000000

/-- A thousand million nanoseconds make a second. -/
lemma inSeconds_eq_div (life : Lifetime) :
    life.inSeconds = (life.inNanoseconds : ℚ) / 1000000000 := by
  rw [inSeconds, inNanoseconds, Nat.cast_add, Nat.cast_mul, add_div]
  congr 1
  exact (mul_div_cancel_right₀ _ (by norm_num)).symm

/-- The verdict of exact arithmetic. -/
lemma isOver_iff_inSeconds (life : Lifetime) (created now : UInt64) :
    life.isOver created now = true ↔
      life.inSeconds < max ((now.toNat : ℚ) - created.toNat) 0 := by
  rw [isOver_iff_nanoseconds, inSeconds_eq_div, div_lt_iff₀ (by norm_num)]
  exact_mod_cast Iff.rfl

/-- What has outlived a lifetime has outlived every shorter one. -/
lemma isOver_of_inSeconds_le {life long : Lifetime} (h : life.inSeconds ≤ long.inSeconds)
    {created now : UInt64} (hover : long.isOver created now = true) :
    life.isOver created now = true := by
  rw [isOver_iff_inSeconds] at hover ⊢
  exact lt_of_le_of_lt h hover

/-! ## The last second -/

/-- The last second is the sum of both times, or the end of the clock. -/
lemma toNat_lastSecond (life : Lifetime) (created : UInt64) :
    (life.lastSecond created).toNat
      = min (created.toNat + life.seconds.toNat) (UInt64.size - 1) := by
  have hfits : min (created.toNat + life.seconds.toNat) (UInt64.size - 1) < 2 ^ 64 :=
    lt_of_le_of_lt (min_le_right _ _) (by decide)
  rw [lastSecond, UInt64.toNat_ofNat', Nat.mod_eq_of_lt hfits]

/-- The verdict by the last second. -/
lemma isOver_iff_lastSecond_lt (life : Lifetime) (created now : UInt64) :
    life.isOver created now = true ↔ life.lastSecond created < now := by
  have hclock : now.toNat < UInt64.size := now.toNat_lt
  rw [isOver, decide_eq_true_eq, UInt64.lt_iff_toNat_lt, toNat_lastSecond, age]
  omega

/-- What is over stays over. -/
lemma isOver_of_le {life : Lifetime} {created now later : UInt64} (h : now ≤ later)
    (hover : life.isOver created now = true) : life.isOver created later = true := by
  rw [isOver_iff_lastSecond_lt, UInt64.lt_iff_toNat_lt] at hover ⊢
  exact lt_of_lt_of_le hover (UInt64.le_iff_toNat_le.1 h)

end Invitation.Lifetime
