import Abacus.Exact.Basic
import Abacus.Text.Digit

/-!
# Exact values as text

A rational is an integer or a fraction in lowest terms. A radical is a product of the numerator, the
radical sign and the root of unity, divided by the denominator; square roots are written as `sqrt`,
and the root `(-1) ^ (1 / 2)` as `I`.

A text shows no integer that is too long.
-/

namespace Abacus.Exact

/-- The text of a rational. -/
def rationalText (q : Rat) : String :=
  if q.den = 1 then toString q.num else toString q.num ++ "/" ++ toString q.den

/-- A power with a fractional exponent. -/
def powerText (base : String) (x : Rat) : String :=
  base ++ "**(" ++ rationalText x ++ ")"

/-- The root of unity and the radical sign of a radical, those that differ from 1. A negative radicand stands
for both if they have one exponent. -/
def rootTexts (r : Radical) : List String :=
  let half : Rat := mkRat 1 2
  let radicalSign :=
    if r.exponent = 0 then []
    else if r.exponent = half then ["sqrt(" ++ toString r.radicand ++ ")"]
    else [powerText (toString r.radicand) r.exponent]
  if r.turn = 0 then radicalSign
  else if r.turn = half then radicalSign ++ ["I"]
  else if r.turn = r.exponent then [powerText ("(-" ++ toString r.radicand ++ ")") r.turn]
  else powerText "(-1)" r.turn :: radicalSign

/-- The text of a radical. -/
def radicalText (r : Radical) : String :=
  let n := r.coefficient.num.natAbs
  let factors := (if n = 1 then [] else [toString n]) ++ rootTexts r
  (if r.coefficient < 0 then "-" else "") ++ "*".intercalate factors ++
    (if r.coefficient.den = 1 then "" else "/" ++ toString r.coefficient.den)

/-- The text of an exact value. -/
def text : Exact → String
  | rational q => rationalText q
  | radical r => radicalText r
  | undefined => "nan"

/-- The integers that the text of a value shows. -/
def integers : Exact → List Nat
  | rational q => [q.num.natAbs, q.den]
  | radical r =>
    [r.coefficient.num.natAbs, r.coefficient.den, r.radicand, r.exponent.num.natAbs, r.exponent.den,
      r.turn.num.natAbs, r.turn.den]
  | undefined => []

/-- Are all integers in the text short enough? -/
def hasText (x : Exact) : Bool :=
  x.integers.all (· < Nat.pow 10 Text.digitLimit)

end Abacus.Exact
