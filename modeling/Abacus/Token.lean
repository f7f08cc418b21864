import Abacus.Operator

/-!
# Tokens

An expression is a list of tokens. A token is a numeral if its first character is an ASCII digit, whatever
follows; whether it is a proper literal is decided when it is evaluated. All other tokens are told
apart by the whole text: an operator symbol, one of the two parentheses, or unknown.
-/

namespace Abacus.Token

/-- The open parenthesis. -/
def opening : String := "("

/-- The close parenthesis. -/
def closing : String := ")"

/-- Does the token start with an ASCII digit (`is_numeral`)? -/
def isNumeral (token : String) : Bool :=
  match token.toList with
  | [] => false
  | c :: _ => c.isDigit

/-- Is the token an operator symbol (`is_operator`)? -/
def isOperator (token : String) : Bool :=
  (Operator.ofSymbol? token).isSome

/-- Is the token the symbol of a unary operator (`is_unary`)? -/
def isUnary (token : String) : Bool :=
  (Operator.ofSymbol? token).any (·.arity == 1)

/-- Is the token the symbol of a binary operator? -/
def isBinary (token : String) : Bool :=
  (Operator.ofSymbol? token).any (·.arity == 2)

/-- Is the token a parenthesis (`GROUPING_SYMBOLS`)? -/
def isGrouping (token : String) : Bool :=
  token == opening || token == closing

/-- The rank of an operator symbol, and -1 for every other token (`precedence`). -/
def precedence (token : String) : Int :=
  match Operator.ofSymbol? token with
  | some op => op.rank
  | none => -1

/-- Is the token the symbol of an operator that associates to the right (`is_right_associative`)? -/
def isRightAssociative (token : String) : Bool :=
  (Operator.ofSymbol? token).any (·.rightAssociative)

/-- Is the token neither a numeral nor an operator nor, where `grouping` allows it, a parenthesis? -/
def isUnknown (grouping : Bool) (token : String) : Bool :=
  !(isNumeral token || isOperator token || (grouping && isGrouping token))

/-- The unknown tokens (`find_unknown_tokens`). -/
def unknown (tokens : List String) (grouping : Bool) : List String :=
  tokens.filter (isUnknown grouping)

end Abacus.Token
