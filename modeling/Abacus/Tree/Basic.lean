import Abacus.Token

/-!
# Expression trees

A node has a kind, a token and two links. A missing link is an empty tree, and so is an expression
without any node. Operand nodes are leaves, a binary node uses both links, and a unary node keeps its
operand in the right link.

Nodes made by hand may break these rules: any link may be missing or present, and the token need not
suit the kind. `Tree.WellFormed` states the rules.
-/

namespace Abacus

/-- What a node stands for (`NodeType`). -/
inductive Kind
  | operand
  | binary
  | unary
  deriving DecidableEq, Repr

/-- A binary tree of nodes (`Node`). -/
inductive Tree
  | empty
  | node (kind : Kind) (token : String) (left right : Tree)
  deriving DecidableEq, Repr, Inhabited

namespace Tree

/-- A leaf that holds a literal. -/
def operand (literal : String) : Tree :=
  node .operand literal empty empty

/-- A unary node; its operand is the right link. -/
def unary (symbol : String) (operand : Tree) : Tree :=
  node .unary symbol empty operand

/-- A binary node. -/
def binary (symbol : String) (left right : Tree) : Tree :=
  node .binary symbol left right

/-- Is there no node at all? -/
def isEmpty : Tree → Bool
  | empty => true
  | node .. => false

/-- The token of the root, empty for an empty tree. -/
def token : Tree → String
  | empty => ""
  | node _ token _ _ => token

/-- The kind of the root. -/
def kind? : Tree → Option Kind
  | empty => none
  | node kind .. => some kind

/-- The right link of the root. -/
def right : Tree → Tree
  | empty => empty
  | node _ _ _ right => right

/-- The links that are present, left before right (`Node.children`). -/
def children : Tree → List Tree
  | empty => []
  | node _ _ left right => [left, right].filter (!·.isEmpty)

/-- The number of nodes. -/
def count : Tree → Nat
  | empty => 0
  | node _ _ left right => left.count + right.count + 1

/-- Does the root's token mark an operator (`Node.is_operator`)? All tokens but numerals do. -/
def isOperator (t : Tree) : Bool :=
  !Token.isNumeral t.token

/-! ## Well-formed trees -/

/-- Does a node have the links that its kind and token ask for (`_has_valid_arity`)? An operand has none and is no
operator symbol; a unary symbol has the right link only, a binary one both. -/
def hasArity : Kind → String → Tree → Tree → Bool
  | .operand, token, left, right => left.isEmpty && right.isEmpty && !Token.isOperator token
  | _, token, left, right =>
    match Operator.ofSymbol? token with
    | none => false
    | some op =>
      if op.arity = 1 then left.isEmpty && !right.isEmpty else !left.isEmpty && !right.isEmpty

/-- Every node has the links that its kind and token ask for. -/
def WellFormed : Tree → Prop
  | empty => True
  | node kind token left right =>
    hasArity kind token left right = true ∧ left.WellFormed ∧ right.WellFormed

end Tree

end Abacus
