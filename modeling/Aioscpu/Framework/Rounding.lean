import Aioscpu.Framework.Clock
import Mathlib.Tactic.Linarith

/-! # Rounding to Decimals

  `round(x, n)` on exact numbers: the nearest number with `n` decimals, and of
  two equally near ones the one with an even last digit.
-/

namespace Clock

/-- The distance to the nearest integer is at most a half. -/
theorem roundHalfEven_near (x : ℚ) :
    (roundHalfEven x : ℚ) - 1 / 2 ≤ x ∧ x ≤ (roundHalfEven x : ℚ) + 1 / 2 := by
  have hfloor := Int.floor_le x
  have hceil := Int.lt_floor_add_one x
  unfold roundHalfEven
  dsimp only
  split
  · constructor <;> linarith
  · split
    · push_cast
      constructor <;> linarith
    · split
      · constructor <;> linarith
      · push_cast
        constructor <;> linarith

/-- **Which numbers are rounded above an integer**, a half excepted. -/
theorem lt_roundHalfEven_iff {k : ℤ} {x : ℚ} (hhalf : x ≠ k + 1 / 2) :
    k < roundHalfEven x ↔ (k : ℚ) + 1 / 2 < x := by
  obtain ⟨hlow, hhigh⟩ := roundHalfEven_near x
  constructor
  · intro h
    have hnext : (k : ℚ) + 1 ≤ (roundHalfEven x : ℚ) := by exact_mod_cast h
    exact lt_of_le_of_ne (by linarith) (Ne.symm hhalf)
  · intro h
    have hlt : (k : ℚ) < (roundHalfEven x : ℚ) := by linarith
    exact_mod_cast hlt

theorem roundHalfEven_intCast (k : ℤ) : roundHalfEven k = k := by
  unfold roundHalfEven
  dsimp only
  rw [if_pos]
  · exact Int.floor_intCast k
  · rw [Int.floor_intCast]
    norm_num

end Clock

/-- `round(x, places)`. -/
def roundTo (places : Nat) (x : ℚ) : ℚ := (Clock.roundHalfEven (x * 10 ^ places) : ℚ) / 10 ^ places

/-- A number that has been rounded stays as it is. -/
theorem roundTo_roundTo (places : Nat) (x : ℚ) : roundTo places (roundTo places x) =
    roundTo places x := by
  have hpos : (10 : ℚ) ^ places ≠ 0 := pow_ne_zero _ (by norm_num)
  unfold roundTo
  rw [div_mul_cancel₀ _ hpos, Clock.roundHalfEven_intCast]
