import Abacus.Symbolic
import Abacus.Tree.Fold
import Abacus.Value.Literal

/-!
# The exact value of a tree

A tree becomes a symbolic expression bottom-up, as its value in doubles does. A difference is the sum with a product
by -1, and a quotient is the product with a power to -1. Where operations are evaluated, a division by zero and a
negative power of zero are errors of the expression, whose message shows the operand before them; an infinity or an
undefined number is an error at the end only. An error of the library itself ends the evaluation.

Without evaluating, the same expression shows the structure of the tree in LaTeX.
-/

namespace Abacus

open Symbolic (Expr lifted)

variable [Symbolic]

/-- A binary operator on symbolic expressions (`BinaryOpNode._sympy_node`). -/
def combineSymbolicPair (evaluate : Bool) (symbol : String) (left right : Expr) : Except Fault Expr :=
  match Operator.ofSymbol? symbol with
  | some .add => lifted (Symbolic.add evaluate left right)
  | some .sub => do
    let opposite ← lifted (Symbolic.mul evaluate (Symbolic.integer (-1)) right)
    lifted (Symbolic.add evaluate left opposite)
  | some .mul => lifted (Symbolic.mul evaluate left right)
  | some .div =>
    if evaluate && Symbolic.isZero right then do
      let dividend ← lifted (Symbolic.text left)
      throw (.eval (.divisionByZero (.exact dividend) (.exact "0")))
    else do
      let inverse ← lifted (Symbolic.pow evaluate right (Symbolic.integer (-1)))
      lifted (Symbolic.mul evaluate left inverse)
  | _ =>
    if evaluate && Symbolic.isZero left && Symbolic.isNegative right then do
      let exponent ← lifted (Symbolic.text right)
      throw (.eval (.zeroToNegative (.exact exponent)))
    else lifted (Symbolic.pow evaluate left right)

/-- The symbolic expression of a node from those of its links (`Node._sympy_node`). -/
def combineSymbolic (evaluate : Bool) (kind : Kind) (token : String) (values : List Expr) : Except Fault Expr :=
  match kind with
  | .operand => do
    let n ← Literal.value token
    return Symbolic.integer n
  | .binary => do
    let (left, right) ← twoValues values
    combineSymbolicPair evaluate token left right
  | .unary => do
    let value ← lastValue values
    lifted (Symbolic.mul evaluate (Symbolic.integer (-1)) value)

namespace Tree

/-- The symbolic expression of a tree; an empty tree is the number 0 (`Node.to_sympy`, `ExpressionTree.to_sympy`). -/
def toSymbolic (evaluate : Bool) (t : Tree) : Except Fault Expr :=
  if t.isEmpty then .ok (Symbolic.integer 0) else t.fold .lostResult (combineSymbolic evaluate)

/-- The exact value of a tree (`SymPyEvaluator.exact_value`). -/
def exactValue (t : Tree) : Except Fault Expr := do
  let result ← t.toSymbolic true
  if Symbolic.hasNonFinite result then
    throw (.eval (.undefinedValue (← lifted (Symbolic.text result))))
  return result

/-- The text of the exact value. -/
def exactText (t : Tree) : Except Fault String := do
  lifted (Symbolic.text (← t.exactValue))

/-- The structure of a tree in LaTeX (`SymPyEvaluator.latex_representation`). -/
def latex (t : Tree) : Except Fault String := do
  lifted (Symbolic.latex (← t.toSymbolic false))

end Tree

end Abacus
