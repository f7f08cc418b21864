import Abacus.Fault

/-!
# Symbolic expressions

Exact values and LaTeX forms are not computed by the calculator itself. It hands the operations of a tree to SymPy,
a library of symbolic expressions, and asks of the result what it needs to know. The library is a parameter of all that
follows: `Symbolic` lists the operations that the calculator uses, and says nothing about what they give.
-/

namespace Abacus

/-- A library of symbolic expressions. The sum, the product and the power of two expressions either evaluate what they
can or, if they are told not to, leave the operation as it stands. -/
class Symbolic where
  /-- The expressions of the library. -/
  Expr : Type
  /-- An integer as an expression, `Integer`. -/
  integer : Int → Expr
  /-- `Add` of two expressions; the flag is `evaluate`. -/
  add : Bool → Expr → Expr → Except ForeignFault Expr
  /-- `Mul` of two expressions; the flag is `evaluate`. -/
  mul : Bool → Expr → Expr → Except ForeignFault Expr
  /-- `Pow` of a base and an exponent; the flag is `evaluate`. -/
  pow : Bool → Expr → Expr → Except ForeignFault Expr
  /-- Is the expression equal to the number 0? -/
  isZero : Expr → Bool
  /-- Is the expression known to be negative, `is_negative`? -/
  isNegative : Expr → Bool
  /-- Does the expression contain an infinity or an undefined number, `has(zoo, nan, oo, -oo)`? -/
  hasNonFinite : Expr → Bool
  /-- The text of an expression, `str`. -/
  text : Expr → Except ForeignFault String
  /-- The expression in LaTeX, `latex`. -/
  latex : Expr → Except ForeignFault String
  /-- The real and the imaginary part of the numerical value, `complex(N(...))`. -/
  complex : Expr → Except ForeignFault (Float × Float)

/-- An operation of the library as a step of the calculator, which catches none of its errors. -/
def Symbolic.lifted {α : Type} (r : Except ForeignFault α) : Except Fault α :=
  r.mapError .foreign

end Abacus
