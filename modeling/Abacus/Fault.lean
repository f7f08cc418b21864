import Abacus.Scalar
import Abacus.Text.Capital
import Abacus.Text.Digit
import Abacus.Tree.Printer

/-!
# Faults

Everything that can go wrong, by cause. `BuildError` and `EvalError` are the faults of an expression:
its tokens form no tree, or its tree has no value. A batch reports them line by line. All other faults
end the operation in which they occur.

Each type has its wording in one function `message`.
-/

namespace Abacus

/-- The two ways to write an expression (`BuildMode`). -/
inductive Fixity
  | inFix
  | postFix
  deriving DecidableEq, Repr

/-! ## Faults of an expression -/

/-- Why a list of tokens forms no tree. A position is the index of the token at fault. -/
inductive BuildError
  /-- An operator finds fewer operands than it needs. -/
  | missingOperands (symbol : String) (position : Option Nat) (needed found : Nat)
  /-- There is no operand at all. -/
  | noTree (fixity : Fixity)
  /-- Several operands are left without an operator that joins them. -/
  | leftover (fixity : Fixity) (operands : List Tree)
  /-- A token is neither a numeral nor an operator nor a parenthesis. -/
  | unknownToken (token : String) (position : Option Nat)
  /-- A close parenthesis has no open one. -/
  | unmatchedClosing
  /-- An open parenthesis is never closed. -/
  | unclosedOpening

/-- The operands in a message about them. -/
def BuildError.listing (operands : List Tree) : String :=
  ", ".intercalate (operands.map Tree.text)

/-- The wording of a build error. -/
def BuildError.message : BuildError → String
  | missingOperands symbol position needed found =>
    let place := match position with
      | none => ""
      | some p => s!" at position {p}"
    s!"Operator {Text.quoted symbol}{place} needs {needed} operands, found {found}"
  | noTree .inFix => "Infix expression produced no tree"
  | noTree .postFix => "Postfix expression produced no tree"
  | leftover .inFix operands =>
    s!"Infix expression left {operands.length} operands without an operator: {listing operands}"
  | leftover .postFix operands =>
    s!"Postfix expression left {operands.length} unreduced operands: {listing operands}"
  | unknownToken token none => s!"Unknown token: {Text.quoted token}"
  | unknownToken token (some p) =>
    s!"Unknown token {Text.quoted token} at position {p} in postfix expression"
  | unmatchedClosing => "')' without a matching '(' in infix expression"
  | unclosedOpening => "Unclosed '(' in infix expression"

/-- The name of a kind of build error in a report. -/
def BuildError.kindName : BuildError → String
  | missingOperands .. | noTree _ | leftover .. => "MalformedExpressionError"
  | unknownToken .. => "UnknownTokenError"
  | unmatchedClosing | unclosedOpening => "UnbalancedParenthesesError"

/-- A number in a message: a double, or an exact value that has been written. -/
inductive Quantity
  | double (value : Float)
  | exact (text : String)

/-- The text of a number in a message. -/
def Quantity.text : Quantity → String
  | double x => floatText x
  | exact text => text

/-- Why a tree has no value (`EvaluationError`). -/
inductive EvalError
  | divisionByZero (dividend divisor : Quantity)
  /-- Zero is raised to a negative power. -/
  | zeroToNegative (exponent : Quantity)
  /-- An operation on two doubles gives an infinity or no number. -/
  | notFinite (symbol : String) (result left right : Float)
  /-- A literal is beyond the largest double. -/
  | literalTooLarge (literal : String)
  /-- The exact value is infinite or undefined. -/
  | undefinedValue (text : String)
  /-- A literal has other characters than decimal digits. -/
  | notNumeric (literal : String)

/-- The wording of an evaluation error. -/
def EvalError.message : EvalError → String
  | divisionByZero dividend divisor => s!"Division by zero: {dividend.text} / {divisor.text}"
  | zeroToNegative exponent => s!"Zero raised to a negative power: 0 ^ {exponent.text}"
  | notFinite symbol result left right =>
    s!"'{symbol}' produced a non-finite result ({floatText result}) from {floatText left}" ++
      s!" and {floatText right}"
  | literalTooLarge literal => s!"Literal too large for float64: {literal}"
  | undefinedValue text => s!"Exact evaluation is not finite: {text}"
  | notNumeric literal => s!"Operand is not a decimal integer: {Text.quoted literal}"

/-- The name of a kind of evaluation error in a report. -/
def EvalError.kindName : EvalError → String
  | divisionByZero .. | zeroToNegative _ => "DivisionByZeroError"
  | notFinite .. | literalTooLarge _ | undefinedValue _ => "NumericOverflowError"
  | notNumeric _ => "NonNumericLiteralError"

/-- A fault of an expression (`ExpressionError`). -/
inductive ExpressionError
  | build (error : BuildError)
  | eval (error : EvalError)

/-- The wording of a fault of an expression. -/
def ExpressionError.message : ExpressionError → String
  | build e => e.message
  | eval e => e.message

/-- The name of a kind of fault of an expression in a report. -/
def ExpressionError.kindName : ExpressionError → String
  | build e => e.kindName
  | eval e => e.kindName

/-! ## All faults -/

/-- Why a file cannot be opened. -/
inductive FileError
  | missing
  | notDirectory
  | isDirectory
  | nameTooLong
  deriving DecidableEq, Repr

/-- The number of a file error in a message. -/
def FileError.number : FileError → Nat
  | missing => 2
  | notDirectory => 20
  | isDirectory => 21
  | nameTooLong => 36

/-- The wording of a file error. -/
def FileError.reason : FileError → String
  | missing => "No such file or directory"
  | notDirectory => "Not a directory"
  | isDirectory => "Is a directory"
  | nameTooLong => "File name too long"

/-- An error of the library of symbolic expressions, by its kind and its message. -/
structure ForeignFault where
  kind : String
  message : String
  deriving DecidableEq, Repr

/-- Why an operation has no result. -/
inductive Fault
  | expression (error : ExpressionError)
  /-- A symbol is not the symbol of an operator. -/
  | unknownSymbol (symbol : String)
  /-- A node does not have the number of operands that its operator takes. -/
  | operandCount (expected found : Nat)
  /-- An operand is asked for where there is none. -/
  | noOperand
  /-- The result of a link is missing. -/
  | lostResult
  | notBinary (symbol : String)
  | notUnary (symbol : String)
  /-- A literal has more digits than an integer may have. -/
  | literalLimit (digits : Nat)
  /-- The text of an integer has more digits than allowed. -/
  | textLimit
  /-- The library of symbolic expressions fails. -/
  | foreign (fault : ForeignFault)
  /-- An infinity or no number at all has no integer part. -/
  | noWholePart (value : Binary64)
  /-- The arithmetic kernel divides by zero. -/
  | zeroDivision
  | negativeTolerance
  | unknownOrder (name : String)
  /-- No tree is kept under a name. -/
  | unknownName (name : String)
  | unknownFixity (name : String)
  | badFixity (value : Scalar)
  | unknownLevel (name : String)
  | badMode (value : Scalar)
  | badLevel (value : Scalar)
  /-- The name of a level is no text. -/
  | levelNotText
  /-- The path of the log file is no text. -/
  | pathNotText
  /-- A path holds the character U+0000. -/
  | embeddedNull
  | file (error : FileError) (path : String)
  /-- A file is not valid UTF-8. -/
  | undecodable

namespace Fault

/-- A build error as a fault. -/
def build (e : BuildError) : Fault :=
  expression (.build e)

/-- An evaluation error as a fault. -/
def eval (e : EvalError) : Fault :=
  expression (.eval e)

/-- The wording of a fault. -/
def message : Fault → String
  | expression e => e.message
  | unknownSymbol symbol => Text.quoted symbol
  | operandCount expected found =>
    if found < expected then s!"not enough values to unpack (expected {expected}, got {found})"
    else s!"too many values to unpack (expected {expected})"
  | noOperand => "list index out of range"
  | lostResult => "no result for a link"
  | notBinary symbol => s!"Not a binary operator: {Text.quoted symbol}"
  | notUnary symbol => s!"Not a unary operator: {Text.quoted symbol}"
  | literalLimit digits =>
    s!"Exceeds the limit ({Text.digitLimit} digits) for integer string conversion: " ++
      s!"value has {digits} digits; use sys.set_int_max_str_digits() to increase the limit"
  | textLimit => Text.overlongMessage
  | foreign fault => fault.message
  | noWholePart .nan => "cannot convert float NaN to integer"
  | noWholePart _ => "cannot convert float infinity to integer"
  | zeroDivision => "division by zero"
  | negativeTolerance => "tolerances must be non-negative"
  | unknownName name => Text.quoted name
  | unknownOrder name => s!"Invalid traversal_order: {name}"
  | unknownFixity name => s!"Unknown build mode {Text.quoted name} (expected 'infix' or 'postfix')"
  | badFixity value => s!"{value.shown} is not a valid BuildMode"
  | unknownLevel name =>
    s!"Unknown log level {Text.quoted name} (expected one of: silent, minimal, moderate, " ++
      "detailed, verbose)"
  | badMode value => s!"mode must be one of ('auto', 'infix', 'postfix'), got {value.shown}"
  | badLevel value => s!"log_level must be a LogLevel, got {value.shown}"
  | levelNotText => "'list' object has no attribute 'upper'"
  | pathNotText => "expected str, bytes or os.PathLike object, not list"
  | embeddedNull => "embedded null byte"
  | file error path => s!"[Errno {error.number}] {error.reason}: {Text.quoted path}"
  | undecodable => "a file is not valid UTF-8"

end Fault

/-- A step that cannot go on. -/
structure Stuck (σ : Type) where
  fault : Fault
  state : σ

/-! ## Ways to write an expression, by name -/

namespace Fixity

/-- The name in capital letters. -/
def name : Fixity → String
  | inFix => "INFIX"
  | postFix => "POSTFIX"

/-- The name in small letters. -/
def smallName (fixity : Fixity) : String :=
  Text.small fixity.name

/-- The number that stands for a way to write. -/
def number : Fixity → Nat
  | inFix => 1
  | postFix => 2

/-- The way to write that a setting names: by its name in letters of any case, or by its number (`BuildMode.parse`).
-/
def ofScalar : Scalar → Except Fault Fixity
  | .text s =>
    match [inFix, postFix].find? (·.name == Text.capital s) with
    | some fixity => .ok fixity
    | none => .error (.unknownFixity s)
  | value =>
    match [inFix, postFix].find? fun fixity => value.isNumber fixity.number with
    | some fixity => .ok fixity
    | none => .error (.badFixity value)

end Fixity

end Abacus
