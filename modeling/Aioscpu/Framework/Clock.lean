import Mathlib.Data.Rat.Floor
import Mathlib.Order.Defs.LinearOrder

/-! # Clock Readings

  Readings of a monotonic clock, in seconds, with the arithmetic that timed
  code does on them. Only the order has laws. The arithmetic has none, so a
  result about every `Clock` holds whatever the sums are rounded to.
-/

/-- Clock readings and durations. -/
class Clock (T : Type) extends LinearOrder T, Add T, Sub T where
  /-- A whole number of seconds. -/
  ofSeconds : Nat → T
  /-- A number of milliseconds, as seconds: `ms / 1000.0`. -/
  ofMillis : Int → T
  /-- `round(x, 3)`. -/
  round3 : T → T

/-- Clock readings that are also compared in milliseconds. -/
class Timer (T : Type) extends Clock T where
  /-- `x * 1000`. -/
  toMillis : T → T
  /-- An integer that a reading is compared with. -/
  ofInt : Int → T

namespace Clock

/-- Rounding to an integer, halves to the even one. -/
def roundHalfEven (x : ℚ) : Int :=
  let rest := x - ⌊x⌋
  if rest < 1 / 2 then ⌊x⌋
  else if 1 / 2 < rest then ⌊x⌋ + 1
  else if ⌊x⌋ % 2 = 0 then ⌊x⌋ else ⌊x⌋ + 1

/-- Exact readings. -/
instance : Clock ℚ where
  ofSeconds n := n
  ofMillis ms := ms / 1000
  round3 x := roundHalfEven (x * 1000) / 1000

instance : Timer ℚ where
  toMillis x := x * 1000
  ofInt n := n

end Clock
