import Abacus.Build.Shunting

/-!
# Postfix expressions

One stack turns postfix tokens into a tree: a numeral is put on it, an operator takes its operands from
it. An operator that comes while the stack is empty is skipped.
-/

namespace Abacus

/-- The stack, newest tree first, the position of the next token, and what a listener has heard of them
(`PostfixBuilder`). -/
structure Stack (μ : Type) where
  trees : List Tree
  position : Nat
  trace : μ

namespace Stack

variable {μ : Type} [Listener μ]

/-- The empty stack before the first token. -/
def fresh (trace : μ) : Stack μ :=
  ⟨[], 0, trace⟩

/-- Joins an operator with the newest trees, the newest of them to the right, the end of the loop of
`PostfixBuilder.build`. -/
def reduce (symbol : String) (s : Stack μ) : Except (Stuck (Stack μ)) (Stack μ) :=
  match symbolArity symbol with
  | .error fault => .error ⟨fault, s⟩
  | .ok needed =>
    if s.trees.length < needed then
      .error ⟨.build (.missingOperands symbol (some s.position) needed s.trees.length), s⟩
    else
      match Tree.ofOperands symbol (s.trees.take needed).reverse with
      | .error fault => .error ⟨fault, { s with trees := s.trees.drop needed }⟩
      | .ok t =>
        let trace := Listener.report .verbose (.reduced .postFix symbol t) s.trace
        .ok ⟨t :: s.trees.drop needed, s.position + 1, trace⟩

/-- Handles one token, the loop of `PostfixBuilder.build`. -/
def feed (s : Stack μ) (token : String) : Except (Stuck (Stack μ)) (Stack μ) :=
  if Token.isNumeral token then .ok ⟨.operand token :: s.trees, s.position + 1, s.trace⟩
  else if !Token.isOperator token then
    .error ⟨.build (.unknownToken token (some s.position)), s⟩
  else if s.trees.isEmpty then
    .ok ⟨[], s.position + 1, Listener.tell (.skipped token s.position) s.trace⟩
  else reduce token s

/-- Takes the only tree as the result (the end of `PostfixBuilder.build`). -/
def finish (s : Stack μ) : Except (Stuck (Stack μ)) (Tree × Stack μ) :=
  match s.trees with
  | [t] => .ok (t, { s with trees := [] })
  | [] => .error ⟨.build (.noTree .postFix), s⟩
  | trees => .error ⟨.build (.leftover .postFix trees.reverse), s⟩

/-- The tree of a list of postfix tokens, and the state at the end (`PostfixBuilder.build`). -/
def build (trace : μ) (tokens : List String) : Except (Stuck (Stack μ)) (Tree × Stack μ) := do
  let s ← tokens.foldlM feed (fresh trace)
  s.finish

end Stack

/-- The tree of a list of postfix tokens, and all that happens (`build_postfix`). -/
def readPostfix (tokens : List String) : Report Tree :=
  match Stack.build ([] : Trace) tokens with
  | .ok (t, s) => ⟨.ok t, s.trace.reverse⟩
  | .error stuck => ⟨.error stuck.fault, stuck.state.trace.reverse⟩

end Abacus
