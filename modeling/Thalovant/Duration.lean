import Mathlib.Algebra.Order.Ring.Nat

/-!
# Durations

A span of time, in nanoseconds: a 64-bit count of seconds and the nanoseconds of one more.
-/

namespace Thalovant

/-- The first span that is too long. -/
def DURATION_END : Nat := 2 ^ 64 * 1000000000

structure Duration where
  nanos : Nat
  representable : nanos < DURATION_END
  deriving DecidableEq

namespace Duration

def ZERO : Duration := ⟨0, by decide⟩

def MAX : Duration := ⟨DURATION_END - 1, by decide⟩

def fromSecs (seconds : Nat) (h : seconds * 1000000000 < DURATION_END := by decide) : Duration :=
  ⟨seconds * 1000000000, h⟩

theorem fiveSecs : 5 * 1000000000 < DURATION_END := by decide

def isZero (d : Duration) : Bool := d.nanos = 0

def saturatingMul (d : Duration) (times : Nat) : Duration :=
  if h : d.nanos * times < DURATION_END then ⟨d.nanos * times, h⟩ else MAX

def saturatingAdd (d other : Duration) : Duration :=
  if h : d.nanos + other.nanos < DURATION_END then ⟨d.nanos + other.nanos, h⟩ else MAX

def saturatingSub (d other : Duration) : Duration :=
  ⟨d.nanos - other.nanos, Nat.lt_of_le_of_lt (Nat.sub_le _ _) d.representable⟩

/-- The shorter span. -/
def min (d other : Duration) : Duration := if other.nanos < d.nanos then other else d

theorem nanos_min (d other : Duration) : (d.min other).nanos = Min.min d.nanos other.nanos := by
  unfold min
  split <;> omega

/-- A product that is cut off afterwards may as well saturate first. -/
theorem nanos_saturatingMul_min (d other : Duration) (times : Nat) :
    ((d.saturatingMul times).min other).nanos = Min.min (d.nanos * times) other.nanos := by
  rw [nanos_min]
  unfold saturatingMul
  split
  · rfl
  · have hother := other.representable
    show Min.min (DURATION_END - 1) other.nanos = _
    omega

end Duration

end Thalovant
