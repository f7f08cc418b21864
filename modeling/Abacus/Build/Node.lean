import Abacus.Fault

/-!
# Operator nodes

An operator node is made from a symbol and its operands in their order. Each step checks what it relies on:
the number of operands, and that the symbol suits the kind of node.
-/

namespace Abacus

/-- The number of operands that a symbol takes (`arity`). -/
def symbolArity (symbol : String) : Except Fault Nat :=
  match Operator.ofSymbol? symbol with
  | some op => .ok op.arity
  | none => .error (.unknownSymbol symbol)

namespace Tree

/-- A unary node, if the symbol is unary (`UnaryOpNode`). -/
def unary? (symbol : String) (operand : Tree) : Except Fault Tree :=
  if Token.isUnary symbol then .ok (unary symbol operand) else .error (.notUnary symbol)

/-- A binary node, if the symbol is binary (`BinaryOpNode`). -/
def binary? (symbol : String) (left right : Tree) : Except Fault Tree :=
  if Token.isBinary symbol then .ok (binary symbol left right) else .error (.notBinary symbol)

/-- The node of an operator with its operands: one for a unary symbol, two for every other (`make_operator_node`). -/
def ofOperands (symbol : String) (operands : List Tree) : Except Fault Tree :=
  if Token.isUnary symbol then
    match operands with
    | [operand] => unary? symbol operand
    | _ => .error (.operandCount 1 operands.length)
  else
    match operands with
    | [left, right] => binary? symbol left right
    | _ => .error (.operandCount 2 operands.length)

end Tree

end Abacus
