import Abacus.Exact.Standard
import Mathlib.Algebra.Field.Rat
import Mathlib.Algebra.Order.Ring.Rat
import Mathlib.Algebra.Ring.Int.Parity
import Mathlib.Tactic.Ring

/-!
# What is assumed of a library of symbolic expressions

Nothing is known of a library but what a theorem assumes of it by name.

Results:
* `Symbolic.ExactOn`: sums, products and integer powers of rational numbers are exact, and so are the tests on them.
* `Symbolic.WritesIntegers`: the texts of integers that are not too long.
* `Symbolic.ExactOn.injective`: under such a library different numbers are different expressions.
* `Symbolic.standard_exactOn`, `Symbolic.standard_writesIntegers`: the library that runs is of this kind.
-/

namespace Abacus

open Symbolic (Expr)

/-! ## Assumptions -/

/-- The library is exact on the rational numbers, which are the expressions `num q`: operations that evaluate give the
sum, the product and the power with an integer exponent, and the tests tell which numbers are zero, negative and finite.
Nothing is said of a negative power of zero, of other exponents and of operations that do not evaluate. -/
structure Symbolic.ExactOn [Symbolic] (num : ℚ → Expr) : Prop where
  integer_eq (n : ℤ) : Symbolic.integer n = num n
  add_eq (x y : ℚ) : Symbolic.add true (num x) (num y) = .ok (num (x + y))
  mul_eq (x y : ℚ) : Symbolic.mul true (num x) (num y) = .ok (num (x * y))
  pow_eq (x : ℚ) (n : ℤ) (hdefined : ¬(x = 0 ∧ n < 0)) : Symbolic.pow true (num x) (num n) = .ok (num (x ^ n))
  isZero_eq (x : ℚ) : Symbolic.isZero (num x) = decide (x = 0)
  isNegative_eq (x : ℚ) : Symbolic.isNegative (num x) = decide (x < 0)
  hasNonFinite_eq (x : ℚ) : Symbolic.hasNonFinite (num x) = false

/-- The text of an integer is its decimal form, unless it has too many digits. -/
def Symbolic.WritesIntegers [Symbolic] : Prop :=
  ∀ n : ℤ, n.natAbs < 10 ^ Text.digitLimit → Symbolic.text (Symbolic.integer n) = .ok (toString n)

/-- Different numbers are different expressions: their difference is told apart from zero. -/
theorem Symbolic.ExactOn.injective [Symbolic] {num : ℚ → Expr} (hnum : ExactOn num) : Function.Injective num := by
  intro x y hxy
  have hdifference : num (x + -y) = num (y + -y) := by
    apply Except.ok.inj
    rw [← hnum.add_eq, ← hnum.add_eq, hxy]
  have hzero : decide (x + -y = 0) = decide (y + -y = 0) := by
    rw [← hnum.isZero_eq, ← hnum.isZero_eq, hdifference]
  rw [add_neg_cancel, decide_eq_true rfl, decide_eq_true_eq] at hzero
  exact add_neg_eq_zero.mp hzero

/-! ## The library that runs -/

namespace Exact

/-- The shortcuts for the bases 1, 0 and -1 give the power. -/
theorem integerPower_eq (q : ℚ) (n : ℤ) : integerPower q n = q ^ n := by
  unfold integerPower
  split
  · next h =>
    rcases h with rfl | rfl
    · exact (zpow_zero q).symm
    · exact (one_zpow n).symm
  · next h =>
    obtain ⟨hn, -⟩ := not_or.mp h
    split
    · next hq =>
      rw [hq]
      exact (zero_zpow n hn).symm
    · split
      · next hq =>
        rw [hq]
        split
        · next heven => exact (Even.neg_one_zpow (Int.even_iff.mpr heven)).symm
        · next hodd => exact (Odd.neg_one_zpow (Int.odd_iff.mpr (by omega))).symm
      · rfl

theorem isZero_rational (q : ℚ) : (rational q).isZero = decide (q = 0) := by
  rw [isZero, Bool.eq_iff_iff]
  simp

/-- A short numerator over the denominator 1. -/
theorem all_short {k limit : ℕ} (hlimit : limit ≠ 0) (hk : k < 10 ^ limit) :
    [k, 1].all (· < Nat.pow 10 limit) = true := by
  have hone : 1 < 10 ^ limit := Nat.one_lt_pow hlimit (by decide)
  simpa using And.intro hk hone

theorem power_rational (x : ℚ) (n : ℤ) (hdefined : ¬(x = 0 ∧ n < 0)) :
    (rational x).power (rational n) = some (rational (x ^ n)) := by
  rw [power, isZero_rational]
  by_cases hzero : n = 0
  · subst hzero
    simp
  · have hguard : ¬(x = 0 ∧ (n : ℚ) < 0) := by
      exact_mod_cast hdefined
    rw [if_neg (by simpa using hzero), properPower, raise, if_neg hguard, if_pos (Rat.den_intCast n), Rat.num_intCast,
      integerPower_eq]

end Exact

namespace Symbolic

theorem standard_exactOn : ExactOn Term.rational where
  integer_eq n := rfl
  add_eq x y := rfl
  mul_eq x y := rfl
  pow_eq x n hdefined := by
    show Except.ok (Term.raise (.rational x) (.rational n)) = _
    rw [Term.rational, Term.rational, Term.raise, Exact.power_rational x n hdefined]
    rfl
  isZero_eq x := by
    show (Term.rational x == Term.rational 0) = _
    rw [Bool.eq_iff_iff]
    simp [Term.rational]
  isNegative_eq x := rfl
  hasNonFinite_eq x := rfl

theorem standard_writesIntegers : @WritesIntegers standard := by
  intro n hn
  have htext : (Term.rational (n : ℚ)).text = toString n := by
    show Exact.rationalText (n : ℚ) = toString n
    rw [Exact.rationalText, Rat.den_intCast, Rat.num_intCast, if_pos rfl]
  have hshort : (Term.rational (n : ℚ)).hasText = true := by
    show (Exact.rational (n : ℚ)).hasText = true
    rw [Exact.hasText, Exact.integers, Rat.den_intCast, Rat.num_intCast]
    exact Exact.all_short (by decide) hn
  show (Term.rational (n : ℚ)).written (Term.rational (n : ℚ)).text = _
  rw [Term.written, hshort, htext]
  rfl

end Symbolic

end Abacus
