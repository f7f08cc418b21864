import Abacus.Binary64.Basic

/-!
# The shortest decimal of a double

Among the decimals that are rounded to a given double, those with the fewest digits, and of these the
nearest to it. A decimal grid of step `10 ^ k` holds such a decimal only if one of the two grid points
next to the double is one, so the search walks from coarse grids to fine ones and tests these two.

* `Rounding.holds` is the set of fractions that are rounded to the double, as an exact test.
* `shortest` is the result of the search.
-/

namespace Abacus.Binary64

/-- A positive fraction. -/
structure Fraction where
  num : Nat
  den : Nat
  deriving DecidableEq, Repr

/-- The fraction `n * base ^ e`. -/
def Fraction.scaled (n base : Nat) (e : Int) : Fraction :=
  if 0 ≤ e then ⟨n * Nat.pow base e.toNat, 1⟩ else ⟨n, Nat.pow base (-e).toNat⟩

/-- Is the first fraction less than the second? -/
def Fraction.less (a b : Fraction) : Bool :=
  a.num * b.den < b.num * a.den

/-- The fractions between two bounds; the bounds themselves belong to it if `closed`. -/
structure Rounding where
  low : Fraction
  high : Fraction
  closed : Bool

/-- Does a fraction lie between the bounds? -/
def Rounding.holds (r : Rounding) (x : Fraction) : Bool :=
  if r.closed then !x.less r.low && !r.high.less x else r.low.less x && x.less r.high

/-- All fractions that are rounded to `m * 2 ^ e`. The bounds lie half a unit away, and on the lower
side a quarter of a unit if the double below has a smaller unit. The bounds are rounded to the even
significand. -/
def rounding (m : Nat) (e : Int) : Rounding where
  low := .scaled (if m = Nat.pow 2 52 && minExponent < e then 4 * m - 1 else 4 * m - 2) 2 (e - 2)
  high := .scaled (4 * m + 2) 2 (e - 2)
  closed := m % 2 = 0

/-- A decimal `digits * 10 ^ exponent`. -/
structure Decimal where
  digits : Nat
  exponent : Int
  deriving DecidableEq, Repr

/-- The value of a decimal. -/
def Decimal.value (d : Decimal) : Fraction :=
  .scaled d.digits 10 d.exponent

/-- The two points of the grid with step `10 ^ k` next to `x`, the nearer one first; of two equally
near ones the even one first. -/
def neighbours (x : Fraction) (k : Int) : List Decimal :=
  let step := Fraction.scaled 1 10 k
  let num := x.num * step.den
  let den := x.den * step.num
  let q := num / den
  let r := num % den
  if den < 2 * r || (2 * r == den && q % 2 == 1) then [⟨q + 1, k⟩, ⟨q, k⟩] else [⟨q, k⟩, ⟨q + 1, k⟩]

/-- The first hit on `grids` grids, from the step `10 ^ k` downward. -/
def search (x : Fraction) (r : Rounding) : Nat → Int → Option Decimal
  | 0, _ => none
  | grids + 1, k =>
    match (neighbours x k).find? fun d => r.holds d.value with
    | some d => some d
    | none => search x r grids (k - 1)

/-- An exponent `k` with `m * 2 ^ e ≤ 10 ^ k`, too large by at most two. -/
def decimalBound (m : Nat) (e : Int) : Int :=
  let bits : Int := Nat.log2 m + e + 1
  bits * 30103 / 100000 + 1

/-- The shortest decimal that is rounded to `m * 2 ^ e`, for a positive significand `m`. Twenty grids
suffice, because seventeen digits tell all doubles apart. -/
def shortest (m : Nat) (e : Int) : Decimal :=
  let x := Fraction.scaled m 2 e
  (search x (rounding m e) 20 (decimalBound m e)).getD ⟨0, 0⟩

end Abacus.Binary64
