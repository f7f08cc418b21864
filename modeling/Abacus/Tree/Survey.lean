import Abacus.Tree.Walk
import Abacus.Value.Evaluate

/-!
# Surveys of a tree

Nodes by kind or by operator, counts of operators, and whether the tree is well formed. All lists are in
breadth-first order unless an order is given.
-/

namespace Abacus

/-- The kinds of nodes that a list is restricted to. -/
inductive KindFilter
  | any
  | only (kind : Kind)
  deriving DecidableEq, Repr

/-- Does a node pass the filter? -/
def KindFilter.admits (filter : KindFilter) (t : Tree) : Bool :=
  match filter with
  | any => true
  | only kind => t.kind? == some kind

namespace Tree

/-- The nodes that pass a filter (`find_nodes_by_type`). -/
def ofKind (t : Tree) (filter : KindFilter) : List Tree :=
  t.breadthFirst.filter filter.admits

/-- The operands (`get_operands`). -/
def operands (t : Tree) : List Tree :=
  t.ofKind (.only .operand)

/-- The binary nodes (`get_binary_ops`). -/
def binaries (t : Tree) : List Tree :=
  t.ofKind (.only .binary)

/-- The unary nodes (`get_unary_ops`). -/
def unaries (t : Tree) : List Tree :=
  t.ofKind (.only .unary)

/-- The nodes with a given operator as their token (`find_nodes_by_operator`). -/
def ofOperator (t : Tree) (symbol : String) : List Tree :=
  t.breadthFirst.filter fun node => node.isOperator && node.token == symbol

/-- Counts one more of a token; a token that is new comes last. -/
def tally (counts : List (String × Nat)) (token : String) : List (String × Nat) :=
  match counts with
  | [] => [(token, 1)]
  | (other, n) :: rest =>
    if other = token then (other, n + 1) :: rest else (other, n) :: tally rest token

/-- How often each operator occurs, in the order of first occurrence (`count_operators`). -/
def operatorCounts (t : Tree) : List (String × Nat) :=
  ((t.breadthFirst.filter isOperator).map token).foldl tally []

/-- Does the root have the links that its kind and token ask for? -/
def rootHasArity : Tree → Bool
  | empty => true
  | node kind token left right => hasArity kind token left right

/-- Does every node have the links that its kind and token ask for (`validate_tree_structure`)? -/
def isWellFormed (t : Tree) : Bool :=
  t.depthFirst.all rootHasArity

/-- Is the tree well formed and, if that is asked for, without an arithmetic fault (`is_valid_expression`)? -/
def isValid (t : Tree) (evaluated : Bool) : Except Fault Bool :=
  if !t.isWellFormed then .ok false
  else if !evaluated then .ok true
  else
    match t.evaluate with
    | .ok _ => .ok true
    | .error (.expression (.eval _)) => .ok false
    | .error f => .error f

/-- All nodes in the order of a given name (`get_all_nodes`). -/
def nodesInOrder (t : Tree) (name : String) : Except Fault (List Tree) :=
  match Order.ofName? name with
  | some order => .ok (t.nodes order)
  | none => .error (.unknownOrder name)

end Tree

end Abacus
