import Mathlib.Algebra.Order.Field.Power
import Mathlib.Data.Int.Log
import Mathlib.Data.Rat.Floor
import Mathlib.Tactic.FieldSimp
import Mathlib.Tactic.Linarith
import Mathlib.Tactic.NormNum
import Mathlib.Tactic.Positivity

/-!
# Rounding to double precision

The double nearest to a rational of normal magnitude: 53 significant bits, ties
to the even neighbour. Integers below `2 ^ 53` are exact, and the error is at
most one part in `2 ^ 52`.

## Main definitions

- `roundHalfEven` — the nearest integer
- `toDouble` — the nearest double, as a rational
-/

namespace Wafer.Lib

/-- The nearest integer, the even one of two equally near. -/
def roundHalfEven (q : ℚ) : ℤ :=
  if q - ⌊q⌋ < 1 / 2 then ⌊q⌋
  else if 1 / 2 < q - ⌊q⌋ then ⌊q⌋ + 1
  else if 2 ∣ ⌊q⌋ then ⌊q⌋ else ⌊q⌋ + 1

/-- The exponent of the last of the 53 significant bits. -/
def lastBit (q : ℚ) : ℤ := Int.log 2 |q| - 52

def toDouble (q : ℚ) : ℚ := roundHalfEven (q / 2 ^ lastBit q) * 2 ^ lastBit q

@[simp] theorem roundHalfEven_intCast (n : ℤ) : roundHalfEven n = n := by
  simp only [roundHalfEven]
  rw [Int.floor_intCast, sub_self, if_pos (by norm_num)]

theorem roundHalfEven_mem (q : ℚ) : roundHalfEven q = ⌊q⌋ ∨ roundHalfEven q = ⌊q⌋ + 1 := by
  simp only [roundHalfEven]
  split
  · exact .inl rfl
  · split
    · exact .inr rfl
    · split
      · exact .inl rfl
      · exact .inr rfl

theorem abs_roundHalfEven_sub_le (q : ℚ) : |(roundHalfEven q : ℚ) - q| ≤ 1 := by
  have hlo := Int.floor_le q
  have hhi := Int.lt_floor_add_one q
  rcases roundHalfEven_mem q with h | h
  · rw [h, abs_le]
    constructor <;> linarith
  · rw [h, abs_le]
    push_cast
    constructor <;> linarith

/-- Integers of at most 53 bits are doubles. -/
theorem toDouble_intCast {n : ℤ} (h : |n| < 2 ^ 53) : toDouble n = n := by
  by_cases hn : n = 0
  · subst hn
    simp [toDouble, show roundHalfEven 0 = 0 from roundHalfEven_intCast 0]
  · have hpos : (0 : ℚ) < |(n : ℚ)| := abs_pos.mpr (Int.cast_ne_zero.mpr hn)
    have hlog : Int.log 2 |(n : ℚ)| < 53 := by
      rw [← Int.lt_zpow_iff_log_lt (by norm_num) hpos]
      exact_mod_cast h
    -- the last bit is a whole power, so the quotient is an integer
    obtain ⟨k, hk⟩ : ∃ k : ℕ, lastBit n = -(k : ℤ) :=
      ⟨(52 - Int.log 2 |(n : ℚ)|).toNat, by unfold lastBit; omega⟩
    have hquot : (n : ℚ) / 2 ^ lastBit n = ((n * 2 ^ k : ℤ) : ℚ) := by
      rw [hk, zpow_neg, div_inv_eq_mul, zpow_natCast]
      push_cast
      rfl
    simp only [toDouble]
    rw [hquot, roundHalfEven_intCast, ← hquot]
    exact div_mul_cancel₀ _ (zpow_ne_zero _ two_ne_zero)

theorem zpow_lastBit_le {q : ℚ} (hq : q ≠ 0) : (2 : ℚ) ^ lastBit q ≤ |q| / 2 ^ 52 := by
  have hlog := Int.zpow_log_le_self (b := 2) (by norm_num) (abs_pos.mpr hq)
  simp only [lastBit]
  rw [zpow_sub₀ two_ne_zero, show (2 : ℚ) ^ (52 : ℤ) = 2 ^ 52 by norm_cast]
  gcongr
  exact_mod_cast hlog

theorem abs_toDouble_sub_le {q : ℚ} (hq : q ≠ 0) : |toDouble q - q| ≤ |q| / 2 ^ 52 := by
  have hpos : (0 : ℚ) < 2 ^ lastBit q := zpow_pos two_pos _
  have hround := abs_roundHalfEven_sub_le (q / 2 ^ lastBit q)
  calc |toDouble q - q|
      = |(roundHalfEven (q / 2 ^ lastBit q) - q / 2 ^ lastBit q) * 2 ^ lastBit q| := by
        simp only [toDouble]
        rw [sub_mul, div_mul_cancel₀ _ hpos.ne']
    _ = |(roundHalfEven (q / 2 ^ lastBit q) : ℚ) - q / 2 ^ lastBit q| * 2 ^ lastBit q := by
        rw [abs_mul, abs_of_pos hpos]
    _ ≤ 1 * 2 ^ lastBit q := mul_le_mul_of_nonneg_right hround hpos.le
    _ ≤ |q| / 2 ^ 52 := by
        rw [one_mul]
        exact zpow_lastBit_le hq

end Wafer.Lib
