import Mathlib.Algebra.BigOperators.Ring.Finset
import Mathlib.Algebra.Order.Chebyshev
import Mathlib.Tactic.Ring

/-!
# The spread of finitely many values

The spread is the number of the values times the sum of their squares, less the square of
their sum. Twice the spread is the sum of the squares of all differences
(`two_mul_spread`). So it is not negative, it is zero exactly when the values are equal,
and it stays when all values are shifted.
-/

set_option autoImplicit false

namespace SenderAnalysis

variable {ι R : Type*} [Fintype ι] [CommRing R]

/-- The number of the values times the sum of their squares, less the square of their
sum. -/
def spread (f : ι → R) : R := Fintype.card ι * ∑ i, f i ^ 2 - (∑ i, f i) ^ 2

theorem two_mul_spread (f : ι → R) : 2 * spread f = ∑ i, ∑ j, (f i - f j) ^ 2 := by
  have inner : ∀ i, ∑ j, (f i - f j) ^ 2 =
      Fintype.card ι * f i ^ 2 - 2 * f i * ∑ j, f j + ∑ j, f j ^ 2 := by
    intro i
    simp only [sub_sq, Finset.sum_add_distrib, Finset.sum_sub_distrib, Finset.sum_const,
      Finset.card_univ, nsmul_eq_mul, Finset.mul_sum]
  simp only [inner, Finset.sum_add_distrib, Finset.sum_sub_distrib, Finset.sum_const,
    Finset.card_univ, nsmul_eq_mul, ← Finset.mul_sum, ← Finset.sum_mul, spread]
  ring

/-- Values without squares of their own. -/
theorem spread_of_sq_eq {f : ι → R} (idempotent : ∀ i, f i ^ 2 = f i) :
    spread f = Fintype.card ι * ∑ i, f i - (∑ i, f i) ^ 2 := by
  rw [spread, Finset.sum_congr rfl fun i _ => idempotent i]

variable [LinearOrder R] [IsStrictOrderedRing R]

/-- A shift of all values does not change the spread. -/
theorem spread_add_const (f : ι → R) (shift : R) : spread (fun i => f i + shift) = spread f := by
  apply mul_left_cancel₀ (two_ne_zero : (2 : R) ≠ 0)
  rw [two_mul_spread, two_mul_spread]
  simp only [add_sub_add_right_eq_sub]

theorem spread_nonneg (f : ι → R) : 0 ≤ spread f :=
  sub_nonneg.mpr sq_sum_le_card_mul_sum_sq

/-- **The spread is zero exactly when all values are equal.** -/
theorem spread_eq_zero_iff (f : ι → R) : spread f = 0 ↔ ∀ i j, f i = f j := by
  have inner : ∀ i ∈ Finset.univ, 0 ≤ ∑ j, (f i - f j) ^ 2 :=
    fun i _ => Finset.sum_nonneg fun j _ => sq_nonneg _
  have twice : spread f = 0 ↔ ∑ i, ∑ j, (f i - f j) ^ 2 = 0 := by
    rw [← two_mul_spread, mul_eq_zero, or_iff_right two_ne_zero]
  rw [twice, Finset.sum_eq_zero_iff_of_nonneg inner]
  constructor
  · intro zero i j
    have row := zero i (Finset.mem_univ i)
    rw [Finset.sum_eq_zero_iff_of_nonneg fun j _ => sq_nonneg _] at row
    exact sub_eq_zero.mp (sq_eq_zero_iff.mp (row j (Finset.mem_univ j)))
  · intro equal i _
    apply Finset.sum_eq_zero
    intro j _
    rw [equal i j, sub_self, zero_pow two_ne_zero]

end SenderAnalysis
