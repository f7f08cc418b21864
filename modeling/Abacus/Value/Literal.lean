import Abacus.Fault

/-!
# Literals

The value of a numeral. A literal is a sequence of ASCII digits; it may have as many digits as an integer
in a text, leading zeros included.
-/

namespace Abacus.Literal

/-- Is the text a sequence of at least one ASCII digit (`_DECIMAL_LITERAL`)? -/
def isProper (literal : String) : Bool :=
  !literal.isEmpty && literal.toList.all Char.isDigit

/-- The number that a list of digits denotes. -/
def digitsValue (digits : List Char) : Nat :=
  digits.foldl (fun n c => 10 * n + (c.toNat - '0'.toNat)) 0

/-- The value of a literal (`OperandNode.value`). -/
def value (literal : String) : Except Fault Nat :=
  if !isProper literal then .error (.eval (.notNumeric literal))
  else if Text.digitLimit < literal.length then .error (.literalLimit literal.length)
  else .ok (digitsValue literal.toList)

/-- The double nearest to the value of a literal (`OperandNode._apply`). -/
def double (literal : String) : Except Fault Float := do
  let n ← value literal
  match Binary64.ofNat? n with
  | some x => return x
  | none => throw (.eval (.literalTooLarge literal))

end Abacus.Literal
