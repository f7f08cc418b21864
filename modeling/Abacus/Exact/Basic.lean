import Abacus.Exact.Factor

/-!
# Exact values

Numbers without rounding: a rational number, or a rational multiple of one radical and one root of unity, or
undefined. A sum of different radicals is no such number, nor are most products and powers of them; the operations give
`none` there.

* `add`, `multiply`, `power` are arithmetic as far as one radical is enough.
* `raise` is the power of two rationals, with the principal root of a negative base.
-/

namespace Abacus

/-- The number `coefficient * radicand ^ exponent * (-1) ^ turn`, where `exponent` and `turn` are at least 0 and
less than 1. -/
structure Radical where
  coefficient : Rat
  radicand : Nat
  exponent : Rat
  turn : Rat
  deriving DecidableEq

/-- An exact value. -/
inductive Exact
  | rational (value : Rat)
  | radical (value : Radical)
  | undefined
  deriving DecidableEq

namespace Exact

/-- Is this the number zero? -/
def isZero (x : Exact) : Bool :=
  x == rational 0

/-- Is this a negative real number? -/
def isNegative : Exact → Bool
  | rational q => q < 0
  | radical r => r.turn == 0 && r.coefficient < 0
  | undefined => false

/-- The number that a radical stands for, as a rational if it is one. -/
def ofRadical (r : Radical) : Exact :=
  if r.coefficient = 0 then rational 0
  else if r.exponent = 0 ∧ r.turn = 0 then rational r.coefficient
  else radical r

/-- The product with a rational number. -/
def scale (q : Rat) : Exact → Exact
  | rational x => rational (q * x)
  | radical r => ofRadical { r with coefficient := q * r.coefficient }
  | undefined => undefined

/-- The sum. Two radicals have one if they differ in their coefficients only. -/
def add : Exact → Exact → Option Exact
  | undefined, _ => some undefined
  | _, undefined => some undefined
  | rational x, rational y => some (rational (x + y))
  | rational x, y => if x = 0 then some y else none
  | x, rational y => if y = 0 then some x else none
  | radical r, radical s =>
    if { r with coefficient := s.coefficient } = s then
      some (ofRadical { r with coefficient := r.coefficient + s.coefficient })
    else none

/-! ## Powers -/

/-- The power of a rational with an integer exponent; the bases 0, 1 and -1 take exponents of any size. -/
def integerPower (q : Rat) (n : Int) : Rat :=
  if n = 0 ∨ q = 1 then 1
  else if q = 0 then 0
  else if q = -1 then (if n % 2 = 0 then 1 else -1)
  else q ^ n

/-- The factors of a positive rational with their multiplicities, negative in the denominator. -/
def signedFactors (q : Rat) : List (Nat × Int) :=
  (factors q.num.natAbs).map (fun (p, e) => (p, (e : Int))) ++
    (factors q.den).map fun (p, e) => (p, -(e : Int))

/-- The part of an exponent that stays under the radical, in units of `1 / den`. -/
def remainder (e : Int) (x : Rat) : Nat :=
  (e * x.num % x.den).toNat

/-- The power of a positive rational. Each factor gives its integer power to the coefficient; the rest of
all factors goes under one radical with the greatest possible exponent. -/
def positivePower (q x : Rat) : Radical :=
  let parts := signedFactors q
  let coefficient : Rat := parts.foldl (fun c (p, e) => c * integerPower p (e * x.num / x.den)) 1
  let rests := (parts.map fun (p, e) => (p, remainder e x)).filter (0 < ·.2)
  let common : Nat := rests.foldl (fun g (_, r) => Nat.gcd g r) 0
  { coefficient
    radicand := rests.foldl (fun n (p, r) => n * Nat.pow p (r / common)) 1
    exponent := mkRat common x.den
    turn := 0 }

/-- The product with `(-1) ^ x`, of which the whole turns are a sign. -/
def turned (x : Rat) (r : Radical) : Radical :=
  let whole := (r.turn + x).floor
  { r with
    coefficient := if whole % 2 = 0 then r.coefficient else -r.coefficient
    turn := r.turn + x - whole }

/-- The power of two rationals. A negative power of zero is undefined; a negative base contributes `(-1) ^ x`. -/
def raise (q x : Rat) : Exact :=
  if q = 0 ∧ x < 0 then undefined
  else if x.den = 1 then rational (integerPower q x.num)
  else if q = 0 then rational 0
  else
    let r := positivePower q.abs x
    ofRadical (if 0 < q then r else turned x r)

/-! ## Products and powers of radicals -/

/-- The product of two radical signs, if one is enough. -/
def joinRoots (r s : Radical) : Option Radical :=
  if r.exponent = 0 then some { s with coefficient := 1, turn := 0 }
  else if s.exponent = 0 then some { r with coefficient := 1, turn := 0 }
  else if r.exponent = s.exponent then some (positivePower (r.radicand * s.radicand) r.exponent)
  else if r.radicand = s.radicand then some (positivePower r.radicand (r.exponent + s.exponent))
  else none

/-- The product. -/
def multiply : Exact → Exact → Option Exact
  | undefined, _ => some undefined
  | _, undefined => some undefined
  | rational x, y => some (y.scale x)
  | x, rational y => some (x.scale y)
  | radical r, radical s =>
    (joinRoots r s).map fun root =>
      (ofRadical (turned (r.turn + s.turn) root)).scale (r.coefficient * s.coefficient)

/-- The power of a radical with a rational exponent. If this is no integer, the radical has to be positive. -/
def radicalPower (r : Radical) (x : Rat) : Option Exact :=
  let root := positivePower r.radicand (r.exponent * x)
  if x.den = 1 then
    some ((ofRadical (turned (r.turn * x) root)).scale (integerPower r.coefficient x.num))
  else if r.turn = 0 ∧ 0 < r.coefficient then (raise r.coefficient x).multiply (ofRadical root)
  else none

/-- The power with a non-zero exponent. Zero to an exponent that is not positive is undefined. -/
def properPower : Exact → Exact → Option Exact
  | undefined, _ => some undefined
  | _, undefined => some undefined
  | rational q, rational x => some (raise q x)
  | rational q, radical r =>
    if q = 1 then some (rational 1)
    else if q = 0 then some (if r.turn = 0 ∧ 0 < r.coefficient then rational 0 else undefined)
    else none
  | radical r, rational x => radicalPower r x
  | radical _, radical _ => none

/-- The power. Everything to the power 0 is 1. -/
def power (x y : Exact) : Option Exact :=
  if y.isZero then some (rational 1) else properPower x y

end Exact

end Abacus
