import Abacus.Text.Blank
import Abacus.Text.Quoted
import Abacus.Tree.Walk

/-!
# Trees as text

* `postfixTokens` lists the tokens in post-order.
* `infixTokens` lists them in order, each operator with its operands between parentheses; an operator is
  any token that is no numeral.
* `text` is the infix form with single spaces between the tokens.
-/

namespace Abacus.Tree

/-- The tokens in post-order (`Node.postfix_tokens`). -/
def postfixTokens (t : Tree) : List String :=
  t.postorder.map (·.tree.token)

/-! ## Infix form -/

/-- What the infix printer still has to do: write a token, or write a tree. -/
inductive Item
  | emit (token : String)
  | expand (tree : Tree)

/-- The number of steps that an item takes. -/
def Item.work : Item → Nat
  | emit _ => 1
  | expand t => 6 * t.count + 1

/-- The number of steps that a list of items takes. -/
def Item.workAll (items : List Item) : Nat :=
  total (items.map Item.work)

/-- A node as items: its left link, its token, its right link; all between parentheses if it is an
operator. Links that are missing are left out. -/
def Item.ofTree : Tree → List Item
  | .empty => []
  | t@(.node _ token left right) =>
    let inner := left.present.map expand ++ emit token :: right.present.map expand
    if t.isOperator then emit Token.opening :: inner ++ [emit Token.closing] else inner

theorem Item.work_ofTree (t : Tree) (rest : List Item) :
    Item.workAll (Item.ofTree t ++ rest) < Item.workAll (.expand t :: rest) := by
  rcases t with _ | ⟨k, s, l, r⟩
  · simp [ofTree, workAll, work]
  · rcases l with _ | _ <;> rcases r with _ | _ <;> simp only [ofTree] <;> split <;>
      simp [workAll, work, present, isEmpty, Tree.count] <;> omega

/-- Infix tokens from a list of items, the tokens written so far in `done`, last one first (the loop of
`Node.infix_tokens`). -/
def infixFrom (done : List String) (items : List Item) : List String :=
  match items with
  | [] => done.reverse
  | .emit token :: rest => infixFrom (token :: done) rest
  | .expand t :: rest => infixFrom done (Item.ofTree t ++ rest)
termination_by Item.workAll items
decreasing_by
  · simp [Item.workAll, Item.work]
  · exact Item.work_ofTree t rest

/-- The tokens in order, with parentheses around each operator and its operands (`Node.infix_tokens`). -/
def infixTokens (t : Tree) : List String :=
  infixFrom [] (t.present.map .expand)

/-! ## Lines -/

/-- The infix form, each token followed by a space (`ExpressionTree.to_infix`). -/
def infixLine (t : Tree) : String :=
  Text.terminated t.infixTokens

/-- The postfix form, each token followed by a space (`ExpressionTree.to_postfix`). -/
def postfixLine (t : Tree) : String :=
  Text.terminated t.postfixTokens

/-- The infix form with single spaces between the tokens (`Node.to_string`). -/
def text (t : Tree) : String :=
  Text.spaced t.infixTokens

/-! ## Descriptions -/

/-- The name of a kind of node. -/
def kindName : Kind → String
  | .operand => "OperandNode"
  | .binary => "BinaryOpNode"
  | .unary => "UnaryOpNode"

/-- The expression as shown in a listing. -/
def description (t : Tree) : String :=
  "ExpressionTree(" ++ Text.quoted t.text ++ ")"

/-- The root as shown in a listing, empty if there is none. -/
def nodeDescription (t : Tree) : String :=
  match t.kind? with
  | none => ""
  | some kind => kindName kind ++ "(" ++ Text.quoted t.text ++ ")"

end Abacus.Tree
