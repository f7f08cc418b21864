import Abacus.Exact.Term

/-!
# LaTeX form of an expression

* Two literals are added in increasing order.
* A sum with an opposite is a difference.
* A product is a chain of its factors; a factor that is a sum stands between parentheses, and so does the number -1 in
  front.
* A product with an inverse is a fraction; with the dividend 1 it is the product of 1 and the inverse.
* An exponent is raised as a whole, and a base that is no literal stands between parentheses.
-/

namespace Abacus

/-- How a formula is built at the top, as far as it matters for what surrounds it. -/
inductive Shape
  | literal (value : Int)
  | sum
  | product
  /-- The product of -1 and a factor. -/
  | opposite (factor : String)
  /-- The power of a divisor to -1. -/
  | inverse (divisor : String)
  | fraction
  | power
  deriving DecidableEq, Repr

/-- A formula in LaTeX. -/
structure Formula where
  shape : Shape
  text : String
  deriving DecidableEq, Repr

namespace Formula

/-- A text between braces. -/
def braced (text : String) : String :=
  "\x7b" ++ text ++ "\x7d"

/-- A text between parentheses that grow with it. -/
def parenthesized (text : String) : String :=
  "\\left(" ++ text ++ "\\right)"

/-- A fraction. -/
def frac (numerator denominator : String) : String :=
  "\\frac" ++ braced numerator ++ braced denominator

/-- A number. -/
def ofExact : Exact → Formula
  | .rational q =>
    if q.den = 1 then ⟨.literal q.num, toString q.num⟩
    else ⟨.fraction, frac (toString q.num) (toString q.den)⟩
  | x => ⟨.product, x.text⟩

/-- The formula as a factor of a product. -/
def factor (f : Formula) : String :=
  if f.shape = .sum then parenthesized f.text else f.text

/-- The formula as the base of a power. -/
def base (f : Formula) : String :=
  match f.shape with
  | .literal (.ofNat _) => f.text
  | _ => parenthesized f.text

/-- The sum. -/
def sum (a b : Formula) : Formula :=
  match a.shape, b.shape with
  | _, .opposite factor => ⟨.sum, a.text ++ " - " ++ factor⟩
  | .literal m, .literal n =>
    ⟨.sum, if n < m then b.text ++ " + " ++ a.text else a.text ++ " + " ++ b.text⟩
  | _, _ => ⟨.sum, a.text ++ " + " ++ b.text⟩

/-- The product. -/
def product (a b : Formula) : Formula :=
  match a.shape, b.shape with
  | .literal (-1), _ => ⟨.opposite b.factor, parenthesized a.text ++ " " ++ b.factor⟩
  | .literal 1, .inverse _ => ⟨.product, a.text ++ " \\cdot " ++ b.text⟩
  | _, .inverse divisor => ⟨.fraction, frac a.text divisor⟩
  | _, _ => ⟨.product, a.factor ++ " \\cdot " ++ b.factor⟩

/-- The power; the inverse of 1 is no fraction. -/
def power (a b : Formula) : Formula :=
  match a.shape, b.shape with
  | .literal 1, .literal (-1) => ⟨.inverse a.text, a.base ++ "^" ++ braced b.text⟩
  | _, .literal (-1) => ⟨.inverse a.text, frac "1" a.text⟩
  | _, _ => ⟨.power, a.base ++ "^" ++ braced b.text⟩

end Formula

/-- The formula of an expression. -/
def Term.formula : Term → Formula
  | value x => .ofExact x
  | sum a b => a.formula.sum b.formula
  | product a b => a.formula.product b.formula
  | power a b => a.formula.power b.formula

end Abacus
