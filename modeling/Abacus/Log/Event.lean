import Abacus.Log.Level

/-!
# Events

What building, evaluating and batch runs have to tell. An event carries the data; its severity, the
level it requires and its text follow from them. So a run is the same whatever is reported of it.
-/

namespace Abacus

/-- How serious an event is. -/
inductive Severity
  | debug
  | info
  | warning
  | error
  deriving DecidableEq, Repr

/-- The name of a severity in a log line. -/
def Severity.name : Severity → String
  | debug => "DEBUG"
  | info => "INFO"
  | warning => "WARNING"
  | error => "ERROR"

/-- Something to be reported. -/
inductive Event
  /-- An operator without any operand before it is skipped. -/
  | skipped (symbol : String) (position : Nat)
  /-- An operator is joined with its operands. -/
  | reduced (fixity : Fixity) (symbol : String) (result : Tree)
  /-- All tokens of an expression form a tree. -/
  | built (fixity : Fixity) (result : Tree)
  /-- A line of a batch has its result. -/
  | lineDone (number : Nat) (line : String)
  /-- A line of a batch has no result. -/
  | lineFailed (number : Nat) (fixity : Fixity) (line : String) (error : ExpressionError)
  /-- A batch is over. -/
  | summary (processed failed : Nat)
  /-- A message that requires a given level. -/
  | note (message : String) (required : Level)
  /-- A warning in free words. -/
  | warning (message : String)
  /-- A debugging message in free words. -/
  | debug (message : String)
  /-- A failure in free words. -/
  | critical (message : String)

namespace Event

/-- How serious the event is. -/
def severity : Event → Severity
  | skipped .. | warning _ => .warning
  | reduced .. | debug _ => .debug
  | built .. | lineDone .. | summary .. | note .. => .info
  | lineFailed .. | critical _ => .error

/-- The level from which on the event is reported. -/
def required : Event → Level
  | skipped .. | lineFailed .. | summary .. | warning _ | critical _ => .minimal
  | lineDone .. => .moderate
  | built .. => .detailed
  | reduced .. | debug _ => .verbose
  | note _ level => level

/-- The text of an event; `elapsed` is the time that a summary gives. -/
def text (elapsed : String) : Event → String
  | skipped symbol position =>
    s!"Skipping operator {Text.quoted symbol} at position {position}: no operands on the stack"
  | reduced fixity symbol result =>
    s!"DEBUG: {fixity.smallName} reduce {Text.quoted symbol} -> {result.text}"
  | built fixity result =>
    s!"Built {fixity.smallName} tree with {result.count} node(s): {result.text}"
  | lineDone number line => s!"line {number}: {Text.quoted line} done"
  | lineFailed number fixity line error =>
    s!"CRITICAL: line {number} ({fixity.smallName}) {Text.quoted line}: {error.kindName}: " ++
      error.message
  | summary processed failed => s!"Processed {processed} expression(s), {failed} failed ({elapsed})"
  | note message _ => message
  | warning message => message
  | debug message => s!"DEBUG: {message}"
  | critical message => s!"CRITICAL: {message}"

end Event

/-- What an operation gives and what it has to tell, in order. -/
structure Report (α : Type) where
  result : Except Fault α
  events : List Event

end Abacus
