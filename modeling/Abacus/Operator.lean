/-!
# Operators

The six operators of the calculator: five binary ones and the negation `!`. Each has a symbol, a number of
operands and a rank; an operator of higher rank binds more tightly, and operators of rank 2 or more
associate to the right.
-/

namespace Abacus

/-- An operator of the calculator (`OpType`). -/
inductive Operator
  | add
  | sub
  | mul
  | div
  | pow
  | neg
  deriving DecidableEq, Repr

namespace Operator

/-- All operators, in the order of their codes. -/
def all : List Operator :=
  [add, sub, mul, div, pow, neg]

/-- The symbol of an operator (`BINARY_OP_MAP`, `UNARY_OP_MAP`). -/
def symbol : Operator → String
  | add => "+"
  | sub => "-"
  | mul => "*"
  | div => "/"
  | pow => "^"
  | neg => "!"

/-- The operator with a given symbol. -/
def ofSymbol? (text : String) : Option Operator :=
  all.find? (·.symbol == text)

/-- The number of operands (`arity`). -/
def arity : Operator → Nat
  | neg => 1
  | _ => 2

/-- How tightly the operator binds (`OPERATOR_PRECEDENCE`). -/
def rank : Operator → Nat
  | add | sub => 0
  | mul | div => 1
  | pow => 2
  | neg => 3

/-- Does the operator associate to the right (`RIGHT_ASSOCIATIVE_ABOVE`)? -/
def rightAssociative (op : Operator) : Bool :=
  1 < op.rank

/-- The code of an operator in the arithmetic kernel. -/
def code : Operator → Int
  | add => 0
  | sub => 1
  | mul => 2
  | div => 3
  | pow => 4
  | neg => 5

/-- The operator with a given code. -/
def ofCode? (code : Int) : Option Operator :=
  all.find? (·.code == code)

end Operator

end Abacus
