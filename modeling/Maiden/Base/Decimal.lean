import Mathlib.Data.Rat.Lemmas
import Mathlib.Tactic.FieldSimp
import Mathlib.Tactic.Linarith
import Mathlib.Tactic.NormNum
import Mathlib.Tactic.Positivity

/-!
# Numbers in columns of fixed scale

A column `numeric(precision, scale)` keeps a number with `scale` decimals, the nearest one and of
two equally near ones that away from zero, and refuses it if that has more than `precision`
digits.

- `units scale x`: the number that is kept, counted in units of its last decimal. It is computed
  from numerator and denominator, so that it can be evaluated;
- `round scale x`: the number that is kept; one that has no more than `scale` decimals is kept as
  it is (`round_of_decimals`);
- `fits precision scale x`: it is not refused. A number within the bounds that the column is made
  for always fits (`fits_of_le`).
-/

namespace Maiden.Decimal

/-- The number in units of the last decimal, to the nearest, halves away from zero. -/
def units (scale : Nat) (x : ℚ) : ℤ :=
  x.num.sign * ((2 * (x.num.natAbs * 10 ^ scale) + x.den) / (2 * x.den) : Nat)

def round (scale : Nat) (x : ℚ) : ℚ := units scale x / 10 ^ scale

/-- The rounded number has at most `precision` digits. -/
def fits (precision scale : Nat) (x : ℚ) : Bool := (units scale x).natAbs < 10 ^ precision

/-- Half a unit more is cut off again. -/
theorem half_up (n : Nat) {den : Nat} (hden : 0 < den) : (2 * (n * den) + den) / (2 * den) = n := by
  have hfactor : 2 * (n * den) + den = (2 * n + 1) * den := by
    rw [Nat.add_mul, Nat.one_mul, Nat.mul_assoc]
  rw [hfactor, Nat.mul_div_mul_right _ _ hden]
  omega

/-- A number with no more decimals than the column is kept as it is. -/
theorem round_of_decimals (scale : Nat) (n : ℤ) :
    round scale (n / 10 ^ scale) = n / 10 ^ scale := by
  have hscale : (10 : ℚ) ^ scale ≠ 0 := by positivity
  generalize hx : (n : ℚ) / 10 ^ scale = x
  -- numerator and denominator are a fraction that is equal to the given one
  have hcross : x.num * 10 ^ scale = n * x.den := by
    have hq : (x.num : ℚ) / x.den = n / 10 ^ scale := by rw [Rat.num_div_den, hx]
    have hden : (x.den : ℚ) ≠ 0 := Nat.cast_ne_zero.mpr x.den_nz
    rw [div_eq_div_iff hden hscale] at hq
    exact_mod_cast hq
  have habs : x.num.natAbs * 10 ^ scale = n.natAbs * x.den := by
    have := congrArg Int.natAbs hcross
    rwa [Int.natAbs_mul, Int.natAbs_mul, Int.natAbs_natCast, Int.natAbs_pow] at this
  have hsign : x.num.sign = n.sign := by
    have := congrArg Int.sign hcross
    rwa [Int.sign_mul, Int.sign_mul, Int.sign_eq_one_of_pos (a := (10 : ℤ) ^ scale) (by positivity),
      Int.sign_natCast_of_ne_zero x.den_nz, mul_one, mul_one] at this
  have hunits : units scale x = n := by
    rw [units, habs, half_up _ x.den_pos, hsign, Int.sign_mul_natAbs]
  rw [round, hunits, hx]

/-- Numbers up to a bound that the column has digits for always fit: rounding half up does not pass
it. -/
theorem fits_of_le {precision scale n : Nat} {x : ℚ} (h0 : 0 ≤ x) (hx : x ≤ n)
    (hn : n * 10 ^ scale < 10 ^ precision) : fits precision scale x = true := by
  have hnum : x.num.natAbs ≤ n * x.den := by
    have hle : x.num ≤ n * x.den := by
      have hden : (0 : ℚ) < x.den := Nat.cast_pos.mpr x.den_pos
      rw [← Rat.num_div_den x, div_le_iff₀ hden] at hx
      exact_mod_cast hx
    have hpos : 0 ≤ x.num := Rat.num_nonneg.mpr h0
    omega
  -- the bound is a whole number of units, so rounding a number below it stays below it
  have hunits : (2 * (x.num.natAbs * 10 ^ scale) + x.den) / (2 * x.den) ≤ n * 10 ^ scale := by
    rw [← half_up (n * 10 ^ scale) x.den_pos]
    refine Nat.div_le_div_right (Nat.add_le_add_right (Nat.mul_le_mul_left 2 ?_) _)
    calc x.num.natAbs * 10 ^ scale ≤ n * x.den * 10 ^ scale := Nat.mul_le_mul_right _ hnum
      _ = n * 10 ^ scale * x.den := Nat.mul_right_comm ..
  have habs : (units scale x).natAbs ≤ n * 10 ^ scale := by
    refine le_trans ?_ hunits
    rw [units, Int.natAbs_mul, Int.natAbs_natCast]
    refine (Nat.mul_le_mul_right _ ?_).trans_eq (Nat.one_mul _)
    rcases Int.sign_trichotomy x.num with h | h | h <;> rw [h] <;> decide
  rw [fits, decide_eq_true_eq]
  exact lt_of_le_of_lt habs hn

/-- Halves are rounded away from zero. -/
example : units 1 (1 / 20) = 1 ∧ units 1 (-1 / 20) = -1 ∧ units 5 (1 / 3) = 33333 := by
  decide +kernel

end Maiden.Decimal
