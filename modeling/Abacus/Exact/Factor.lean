/-!
# Factors of natural numbers

A positive number as a product of powers, by trial division with small divisors. What the divisors leave
over is a single power of a number that is itself no perfect power. This is the prime factorization
whenever the leftover is a power of a prime, so for every number below `2 ^ 30`.
-/

namespace Abacus.Exact

/-- How often `d` divides `n`, and the quotient that is left. -/
def splitOff (d n : Nat) : Nat × Nat :=
  if 1 < d ∧ 0 < n ∧ n % d = 0 then
    let (times, left) := splitOff d (n / d)
    (times + 1, left)
  else (0, n)
termination_by n
decreasing_by exact Nat.div_lt_self (by omega) (by omega)

/-- Trial division by the `steps` divisors from `d` on. The powers found so far are in `found`; the result
adds to them and gives the quotient that is left. -/
def trial : Nat → Nat → Nat → List (Nat × Nat) → List (Nat × Nat) × Nat
  | 0, _, n, found => (found, n)
  | steps + 1, d, n, found =>
    if n < d * d then (found, n)
    else
      let (times, left) := splitOff d n
      trial steps (d + 1) left (if times = 0 then found else (d, times) :: found)

/-- The largest `x` with `x ^ k ≤ n` among those that agree with `high` above the lowest `bits` bits. -/
def rootFrom (k n : Nat) : Nat → Nat → Nat
  | 0, high => high
  | bits + 1, high =>
    let next := high + Nat.pow 2 bits
    rootFrom k n bits (if Nat.pow next k ≤ n then next else high)

/-- The integer part of the `k`-th root. -/
def root (k n : Nat) : Nat :=
  rootFrom k n (Nat.log2 n / k + 1) 0

/-- The number as a power with the largest exponent up to `bound`. -/
def asPower (n : Nat) : Nat → Nat × Nat
  | 0 => (n, 1)
  | bound + 1 =>
    let r := root (bound + 1) n
    if Nat.pow r (bound + 1) = n then (r, bound + 1) else asPower n bound

/-- The largest divisor of trial division is below `2 ^ 15`. -/
def trialBits : Nat := 15

/-- The factors of a positive number with their multiplicities, the largest first. -/
def factors (n : Nat) : List (Nat × Nat) :=
  let (found, left) := trial (Nat.pow 2 trialBits - 2) 2 n []
  if left ≤ 1 then found else asPower left (Nat.log2 left / trialBits) :: found

end Abacus.Exact
