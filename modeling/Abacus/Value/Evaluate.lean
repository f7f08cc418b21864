import Abacus.Tree.Fold
import Abacus.Value.Kernel
import Abacus.Value.Literal

/-!
# The value of a tree in doubles

Evaluation folds the tree bottom-up. An operand ignores the values of its links, a binary node needs
exactly two of them, and a unary node takes the last.
-/

namespace Abacus

/-- The double of a node from the doubles of its links (`Node._apply`). -/
def combineDoubles (kind : Kind) (token : String) (values : List Float) : Except Fault Float :=
  match kind with
  | .operand => Literal.double token
  | .binary => do
    let (left, right) ← twoValues values
    applyBinary token left right
  | .unary => do
    let value ← lastValue values
    applyUnary token value

namespace Tree

/-- The value of a tree; an empty tree has the value 0 (`ExpressionTree.evaluate`). -/
def evaluate (t : Tree) : Except Fault Float :=
  if t.isEmpty then .ok 0 else t.fold .lostResult combineDoubles

end Tree

/-- The text of an integer, if it has not too many digits. -/
def integerText (n : Int) : Except Fault String :=
  if n.natAbs < Nat.pow 10 Text.digitLimit then .ok (toString n) else .error .textLimit

/-- The text of a double without its fractional part. -/
def truncatedText (x : Float) : Except Fault String :=
  match (Binary64.ofFloat x).truncated with
  | some n => integerText n
  | none => .error (.noWholePart (Binary64.ofFloat x))

end Abacus
