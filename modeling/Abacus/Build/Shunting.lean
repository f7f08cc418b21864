import Abacus.Build.Node
import Abacus.Log.Listener

/-!
# Infix expressions

Two stacks turn infix tokens into a tree. Numerals become operands; an operator waits on its stack until
an operator arrives that must bind later, a parenthesis closes, or the tokens end. An arriving operator
waits above one of lower rank, and above one of its own rank if it associates to the right.

A step that fails keeps the state it failed in. A listener is told of every operator that is joined, once the node is
made and before it is put on its stack; it asks for the text of the node only if it wants to know.

* `feed` handles one token, `resolve` one that is no numeral.
* `reduce` joins an operator with the newest operands.
* `build` handles a whole expression.
-/

namespace Abacus

/-- The two stacks, newest entry first, and what a listener has heard of them (`InfixBuilder`). -/
structure Shunt (μ : Type) where
  operands : List Tree
  operators : List String
  trace : μ

namespace Shunt

variable {μ : Type} [Listener μ]

/-- Empty stacks. -/
def fresh (trace : μ) : Shunt μ :=
  ⟨[], [], trace⟩

/-- Puts an operand on its stack. -/
def push (t : Tree) (s : Shunt μ) : Shunt μ :=
  { s with operands := t :: s.operands }

/-- Joins an operator with the newest operands, the newest of them to the right (`InfixBuilder.reduce`). -/
def reduce (symbol : String) (s : Shunt μ) : Except (Stuck (Shunt μ)) (Shunt μ) :=
  match symbolArity symbol with
  | .error fault => .error ⟨fault, s⟩
  | .ok needed =>
    if s.operands.length < needed then
      .error ⟨.build (.missingOperands symbol none needed s.operands.length), s⟩
    else
      let rest := { s with operands := s.operands.drop needed }
      match Tree.ofOperands symbol (s.operands.take needed).reverse with
      | .error fault => .error ⟨fault, rest⟩
      | .ok t =>
        let trace := Listener.report .verbose (.reduced .inFix symbol t) s.trace
        .ok ({ rest with trace }.push t)

/-- Joins the operators above the newest open parenthesis and removes the parenthesis, the loop of
`InfixBuilder.resolve` at a close parenthesis. The first argument is the operator stack. -/
def closeGroup : List String → Shunt μ → Except (Stuck (Shunt μ)) (Shunt μ)
  | [], s => .error ⟨.noOperand, s⟩
  | top :: rest, s =>
    let s := { s with operators := rest }
    if top = Token.opening then .ok s
    else
      match reduce top s with
      | .error stuck => .error stuck
      | .ok s => closeGroup rest s

/-- Does an arriving operator wait above the one on top of the stack? -/
def waitsAbove (token top : String) : Bool :=
  Token.precedence top < Token.precedence token ||
    (Token.precedence token == Token.precedence top && Token.isRightAssociative token)

/-- Joins the operators that must bind before an arriving one, the loop of `InfixBuilder.resolve` at all other tokens.
The second argument is the operator stack. -/
def makeWay (token : String) : List String → Shunt μ → Except (Stuck (Shunt μ)) (Shunt μ)
  | [], s => .ok s
  | top :: rest, s =>
    if token = Token.opening ∨ top = Token.opening ∨ waitsAbove token top then .ok s
    else
      match reduce top { s with operators := rest } with
      | .error stuck => .error stuck
      | .ok s => makeWay token rest s

/-- Handles an operator or a parenthesis (`InfixBuilder.resolve`). -/
def resolve (token : String) (s : Shunt μ) : Except (Stuck (Shunt μ)) (Shunt μ) :=
  if !Token.isOperator token && !Token.isGrouping token then
    .error ⟨.build (.unknownToken token none), s⟩
  else if token = Token.closing then
    if s.operators.contains Token.opening then closeGroup s.operators s
    else .error ⟨.build .unmatchedClosing, s⟩
  else
    match makeWay token s.operators s with
    | .error stuck => .error stuck
    | .ok s => .ok { s with operators := token :: s.operators }

/-- Handles one token, the first loop of `InfixBuilder.build`. -/
def feed (s : Shunt μ) (token : String) : Except (Stuck (Shunt μ)) (Shunt μ) :=
  if Token.isNumeral token then .ok (s.push (.operand token)) else resolve token s

/-- Joins all operators that are still waiting, the second loop of `InfixBuilder.build`. The first argument is the
operator stack. -/
def drain : List String → Shunt μ → Except (Stuck (Shunt μ)) (Shunt μ)
  | [], s => .ok s
  | top :: rest, s =>
    let s := { s with operators := rest }
    if top = Token.opening then .error ⟨.build .unclosedOpening, s⟩
    else
      match reduce top s with
      | .error stuck => .error stuck
      | .ok s => drain rest s

/-- Takes the only operand as the result (the end of `InfixBuilder.build`). -/
def finish (s : Shunt μ) : Except (Stuck (Shunt μ)) (Tree × Shunt μ) :=
  match s.operands with
  | [t] => .ok (t, { s with operands := [] })
  | [] => .error ⟨.build (.noTree .inFix), s⟩
  | operands => .error ⟨.build (.leftover .inFix operands.reverse), s⟩

/-- The tree of a list of infix tokens, and the state at the end (`InfixBuilder.build`). -/
def build (trace : μ) (tokens : List String) : Except (Stuck (Shunt μ)) (Tree × Shunt μ) := do
  let s ← tokens.foldlM feed (fresh trace)
  let s ← drain s.operators s
  s.finish

end Shunt

/-- The tree of a list of infix tokens, and all that happens (`build_infix`). -/
def readInfix (tokens : List String) : Report Tree :=
  match Shunt.build ([] : Trace) tokens with
  | .ok (t, s) => ⟨.ok t, s.trace.reverse⟩
  | .error stuck => ⟨.error stuck.fault, stuck.state.trace.reverse⟩

end Abacus
