import Abacus.Build.Node

/-!
# Nodes made by hand

A sketch describes how a node is made step by step, and links and tokens may be replaced after the checks of
the constructor. The nodes of the links are made at fixed points: after the check of a binary node, and
for a unary node its operand before the check and its left link after it.
-/

namespace Abacus

/-- How a node is made by hand; a `token` that is given replaces the one that the constructor has checked. -/
inductive Sketch
  /-- No node. -/
  | missing
  | operand (literal : String) (left right : Sketch) (token : Option String)
  | binary (symbol : String) (left right : Sketch) (token : Option String)
  | unary (symbol : String) (left inner : Sketch) (token : Option String)
  /-- An operator node made from the list of its operands. -/
  | operator (symbol : String) (operands : List Sketch)
  deriving Inhabited

namespace Sketch

mutual

/-- The tree that a sketch describes. -/
def toTree : Sketch → Except Fault Tree
  | missing => .ok .empty
  | operand literal left right token => do
    let left ← left.toTree
    let right ← right.toTree
    return .node .operand (token.getD literal) left right
  | binary symbol left right token => do
    let _ ← Tree.binary? symbol .empty .empty
    let left ← left.toTree
    let right ← right.toTree
    return .node .binary (token.getD symbol) left right
  | unary symbol left inner token => do
    let inner ← inner.toTree
    let _ ← Tree.unary? symbol inner
    let left ← left.toTree
    return .node .unary (token.getD symbol) left inner
  | operator symbol operands => do
    let operands ← toTrees operands
    Tree.ofOperands symbol operands

/-- The trees that several sketches describe. -/
def toTrees : List Sketch → Except Fault (List Tree)
  | [] => .ok []
  | sketch :: rest => do
    let t ← sketch.toTree
    let ts ← toTrees rest
    return t :: ts

end

end Sketch

end Abacus
