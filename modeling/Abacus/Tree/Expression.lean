import Abacus.Tree.Identity

/-!
# Trees that keep what was asked of them

An expression owns a tree. It keeps the text of the tree once this has been asked for, and the nodes of the tree keep
their sizes and fingerprints.
-/

namespace Abacus

/-- A tree, what its nodes keep, and the text that is kept of it (`ExpressionTree`). -/
structure Expression where
  tree : Tree
  memo : Memo UInt64
  string : Option String

namespace Expression

/-- A tree of which nothing has been asked. -/
def of (t : Tree) : Expression :=
  ⟨t, .fresh, none⟩

/-- The number of nodes, and the expression once its nodes keep their sizes (`ExpressionTree.size`). -/
def size (expression : Expression) : Except Fault (Nat × Expression) :=
  if expression.tree.isEmpty then .ok (0, expression)
  else
    match expression.memo.size Mixer.standard (.root expression.tree) with
    | .ok (size, memo) => .ok (size, { expression with memo })
    | .error stuck => .error stuck.fault

/-- The text, and the expression once it is kept (`ExpressionTree.to_string`). -/
def text (expression : Expression) : String × Expression :=
  match expression.string with
  | some text => (text, expression)
  | none =>
    let text := expression.tree.text
    (text, { expression with string := some text })

end Expression

end Abacus
