import Abacus.Exact.Nearest
import Abacus.Exact.Text

/-!
# Expressions of exact values

An expression is a number, or a sum, a product or a power that is left as it stands. The operations that evaluate
(`add`, `multiply`, `raise`) give a number wherever one `Exact` is enough, collect what is alike in the addends of a sum
and in the factors of a product, and leave the rest unevaluated.
-/

namespace Abacus

/-- An expression. -/
inductive Term
  | value (x : Exact)
  | sum (left right : Term)
  | product (left right : Term)
  | power (base exponent : Term)
  deriving DecidableEq

namespace Term

/-- A rational number. -/
def rational (q : Rat) : Term :=
  value (.rational q)

/-- Does a number that is undefined occur in the expression? -/
def hasUndefined : Term → Bool
  | value x => x == .undefined
  | sum a b | product a b | power a b => a.hasUndefined || b.hasUndefined

/-! ## Numerical values -/

/-- The product of two complex numbers. -/
def complexProduct (x y : Float × Float) : Float × Float :=
  (x.1 * y.1 - x.2 * y.2, x.1 * y.2 + x.2 * y.1)

/-- The principal power of two complex numbers. -/
def complexPower (x y : Float × Float) : Float × Float :=
  if x.2 == 0 && 0 <= x.1 && y.2 == 0 then (x.1 ^ y.1, 0)
  else
    let size := (x.1 * x.1 + x.2 * x.2).sqrt
    let (real, angle) := complexProduct y (size.log, Float.atan2 x.2 x.1)
    (real.exp * angle.cos, real.exp * angle.sin)

/-- The real and the imaginary part of the value, in doubles. -/
def complex : Term → Float × Float
  | value x => x.nearest
  | sum a b => (a.complex.1 + b.complex.1, a.complex.2 + b.complex.2)
  | product a b => complexProduct a.complex b.complex
  | power a b => complexPower a.complex b.complex

/-- Is this a negative real number? For an expression that is no number its value in doubles decides. -/
def isNegative : Term → Bool
  | value x => x.isNegative
  | t => t.complex.2 == 0 && t.complex.1 < 0

/-! ## Operations -/

/-- Joins an expression with the first one of a list that it can be joined with. What becomes neutral is left out. -/
def insert (neutral : Term) (join : Term → Term → Option Term) (ts : List Term) (t : Term) : List Term :=
  match ts with
  | [] => [t]
  | s :: rest =>
    match join s t with
    | some u => if u = neutral then rest else u :: rest
    | none => s :: insert neutral join rest t

/-! ## Products -/

/-- The factors of a product. -/
def factors : Term → List Term
  | product a b => a.factors ++ b.factors
  | t => [t]

/-- A base and its rational exponent. -/
def root : Term → Term × Rat
  | power a (value (.rational q)) => (a, q)
  | t => (t, 1)

/-- The power with a rational exponent. -/
def ofRoot (base : Term) (q : Rat) : Term :=
  if q = 0 then rational 1 else if q = 1 then base else power base (rational q)

/-- The product of two factors as one factor, if it is one. -/
def joinFactors : Term → Term → Option Term
  | value x, value y => (x.multiply y).map value
  | s, t =>
    let (a, p) := s.root
    let (b, q) := t.root
    if a = b then some (ofRoot a (p + q)) else none

/-- The number in front of an expression, and what it is multiplied with. -/
def coefficient : Term → Rat × Term
  | value (.rational q) => (q, rational 1)
  | product (value (.rational q)) t => (q, t)
  | t => (1, t)

/-- The product with a rational number, which is taken into a sum. -/
def scale (q : Rat) (t : Term) : Term :=
  if q = 0 then rational 0
  else
    match t with
    | value x => value (x.scale q)
    | sum a b => sum (a.scale q) (b.scale q)
    | t =>
      let (p, rest) := t.coefficient
      if p * q = 1 then rest else product (rational (p * q)) rest

/-- The product of all factors. -/
def ofFactors (ts : List Term) : Term :=
  let q := (ts.map (·.coefficient.1)).foldl (· * ·) 1
  match (ts.map (·.coefficient.2)).filter (· != rational 1) with
  | [] => rational q
  | t :: rest => scale q (rest.foldl product t)

/-- The product. -/
def multiply (a b : Term) : Term :=
  if a.hasUndefined || b.hasUndefined then value .undefined
  else
    match joinFactors a b with
    | some t => t
    | none => ofFactors (b.factors.foldl (insert (rational 1) joinFactors) a.factors)

/-! ## Sums -/

/-- The addends of a sum; the number 0 has none. -/
def addends : Term → List Term
  | value x => if x.isZero then [] else [value x]
  | sum a b => a.addends ++ b.addends
  | t => [t]

/-- The sum of two addends as one addend, if it is one. -/
def joinAddends : Term → Term → Option Term
  | value x, value y => (x.add y).map value
  | s, t =>
    let (p, a) := s.coefficient
    let (q, b) := t.coefficient
    if a = b then some (scale (p + q) a) else none

/-- Does an addend stand before another one? Real ones come first, and then the order is that of the values. -/
def standsBefore (s t : Term) : Bool :=
  let (x, y) := s.complex
  let (u, v) := t.complex
  if (y == 0) != (v == 0) then y == 0
  else if y == v then x ≤ u
  else y < v

/-- The sum of all addends. A positive number stands before a single negative addend. -/
def ofAddends (ts : List Term) : Term :=
  match ts.mergeSort standsBefore with
  | [] => rational 0
  | [s, value (.rational q)] => if 0 < q && s.isNegative then sum (rational q) s else sum s (rational q)
  | t :: rest => rest.foldl sum t

/-- The sum. -/
def add (a b : Term) : Term :=
  if a.hasUndefined || b.hasUndefined then value .undefined
  else
    match joinAddends a b with
    | some t => t
    | none => ofAddends (b.addends.foldl (insert (rational 0) joinAddends) a.addends)

/-! ## Powers -/

/-- The power of a factor with an integer exponent. -/
def factorPower (n : Rat) (t : Term) : Term :=
  match t with
  | value x =>
    match x.power (.rational n) with
    | some y => value y
    | none => ofRoot t n
  | t =>
    let (base, q) := t.root
    ofRoot base (q * n)

/-- The power. Everything to the power 0 is 1, and an integer power is that of all factors. -/
def raise (a b : Term) : Term :=
  match a, b with
  | value x, value y =>
    match x.power y with
    | some z => value z
    | none => power a b
  | a, value (.rational q) =>
    if q.den = 1 then ofFactors (a.factors.map (factorPower q)) else power a b
  | a, b => if a = rational 1 then a else power a b

/-! ## Text -/

/-- Are all integers in the text short enough? -/
def hasText : Term → Bool
  | value x => x.hasText
  | sum a b | product a b | power a b => a.hasText && b.hasText

/-- A text between parentheses. -/
def parenthesized (text : String) : String :=
  "(" ++ text ++ ")"

/-- The text of a sum; the second addend may be negative. -/
def sumText (left right : String) : String :=
  match right.toList with
  | '-' :: rest => left ++ " - " ++ String.ofList rest
  | _ => left ++ " + " ++ right

/-- The text of a product with a rational number. -/
def scaledText (q : Rat) (text : String) : String :=
  let n := q.num.natAbs
  (if q < 0 then "-" else "") ++ (if n = 1 then "" else toString n ++ "*") ++ text ++
    (if q.den = 1 then "" else "/" ++ toString q.den)

/-- The text of a factor. -/
def factorText (t : Term) (text : String) : String :=
  match t with
  | sum .. => parenthesized text
  | _ => text

/-- The text of a base or of an exponent. -/
def atomText (t : Term) (text : String) : String :=
  match t with
  | value (.rational q) => if q.den = 1 ∧ 0 ≤ q then text else parenthesized text
  | _ => parenthesized text

/-- The text of a power. A root and an inverse have forms of their own. -/
def powerText (a b : Term) (base exponent : String) : String :=
  if b = rational (1 / 2) then "sqrt" ++ parenthesized base
  else if b = rational (-1) then "1/" ++ a.atomText base
  else a.atomText base ++ "**" ++ b.atomText exponent

/-- The text of a product. A rational number and an inverse make it a fraction. -/
def productText (a b : Term) (left right : String) : String :=
  match a, b, right.toList with
  | value (.rational q), power .., '1' :: '/' :: rest =>
    if q.den = 1 then left ++ String.ofList ('/' :: rest) else scaledText q right
  | a, power .., '1' :: '/' :: rest => a.factorText left ++ String.ofList ('/' :: rest)
  | value (.rational q), b, _ => scaledText q (b.factorText right)
  | a, b, _ => a.factorText left ++ "*" ++ b.factorText right

/-- The text of an expression. -/
def text : Term → String
  | value x => x.text
  | sum a b => sumText a.text b.text
  | product a b => productText a b a.text b.text
  | power a b => powerText a b a.text b.text

end Term

end Abacus
