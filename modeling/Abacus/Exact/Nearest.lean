import Abacus.Binary64.Basic
import Abacus.Exact.Basic

/-!
# The doubles nearest to an exact value

Rationals are rounded directly. The root of a radical is first computed to 128 binary places by an integer root;
where the root's degree makes that too large, the power function of the doubles gives it. A root of unity is a point of
the unit circle.
-/

namespace Abacus.Exact

/-- The double nearest to a rational. -/
def nearestRational (q : Rat) : Float :=
  Binary64.ofFraction (q.num < 0) q.num.natAbs q.den

/-- The binary places of a root. -/
def rootPlaces : Nat := 128

/-- The largest degree of a root that is computed by an integer root. -/
def maxDegree : Nat := 1000

/-- The double nearest to a radical without its root of unity. -/
def nearestRadical (r : Radical) : Float :=
  let degree := r.exponent.den
  if degree ≤ maxDegree then
    let scaled := Nat.pow r.radicand r.exponent.num.natAbs * Nat.pow 2 (degree * rootPlaces)
    nearestRational (r.coefficient * mkRat (root degree scaled) (Nat.pow 2 rootPlaces))
  else
    nearestRational r.coefficient * nearestRational r.radicand ^ nearestRational r.exponent

/-- Half of a whole turn. -/
def pi : Float := 3.141592653589793

/-- The doubles nearest to the real and the imaginary part of an exact value. -/
def nearest : Exact → Float × Float
  | rational q => (nearestRational q, 0)
  | radical r =>
    let size := nearestRadical r
    if r.turn = 0 then (size, 0)
    else
      let angle := pi * nearestRational r.turn
      (size * angle.cos, size * angle.sin)
  | undefined => (0 / 0, 0)

end Abacus.Exact
