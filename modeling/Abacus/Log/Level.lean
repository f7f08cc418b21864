import Abacus.Fault

/-!
# Verbosity levels

A logger passes an event if its own level is at least the level that the event requires.
-/

namespace Abacus

/-- How much a logger reports (`LogLevel`). -/
inductive Level
  /-- Nothing. -/
  | silent
  /-- Warnings, failed expressions and summaries. -/
  | minimal
  /-- Each expression done. -/
  | moderate
  /-- Each tree built. -/
  | detailed
  /-- Each reduction. -/
  | verbose
  deriving DecidableEq, Repr

namespace Level

/-- All levels, in increasing order. -/
def all : List Level :=
  [silent, minimal, moderate, detailed, verbose]

/-- The rank of a level. -/
def rank : Level → Nat
  | silent => 0
  | minimal => 1
  | moderate => 2
  | detailed => 3
  | verbose => 4

/-- The name in capital letters. -/
def name : Level → String
  | silent => "SILENT"
  | minimal => "MINIMAL"
  | moderate => "MODERATE"
  | detailed => "DETAILED"
  | verbose => "VERBOSE"

/-- The name in small letters. -/
def smallName (level : Level) : String :=
  Text.small level.name

/-- The level with a given name in capital letters. -/
def ofCapitalName? (text : String) : Option Level :=
  all.find? (·.name == text)

/-- The level with a given name in letters of any case (`LogLevel.from_name`). -/
def ofName (text : String) : Except Fault Level :=
  match ofCapitalName? (Text.capital text) with
  | some level => .ok level
  | none => .error (.unknownLevel text)

/-- Does a logger of this level pass what requires `required`? -/
def passes (level required : Level) : Bool :=
  required.rank ≤ level.rank

end Level

end Abacus
