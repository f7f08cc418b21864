import Abacus.Batch.Lines
import Abacus.Build.Construct
import Abacus.Value.Evaluate
import Abacus.Value.Exact

/-!
# Batch runs

Each entry is built, evaluated and printed as a block. A fault of the expression is reported; the run
ends with it unless it is to continue on errors. Any other fault ends the run at once and is its outcome.
The status is 0 if no entry has failed, and 1 otherwise.
-/

namespace Abacus

variable [Symbolic]

/-- The text of the value of a tree (`format_value`). -/
def valueText (options : Options) (t : Tree) : Except Fault String :=
  if options.exact then t.exactText
  else do
    let x ← t.evaluate
    if options.integerOutput then truncatedText x else return floatText x

/-- The block of a tree: its two forms and its value (`render`). -/
def block (options : Options) (t : Tree) : Except Fault String := do
  let value ← valueText options t
  return s!"Infix format: {t.infixLine}\nPostfix format: {t.postfixLine}\nExpression value: {value}\n"

/-- The block of an entry. -/
def Entry.outcome (options : Options) (entry : Entry) : Report String :=
  let report := constructLine entry.fixity entry.line
  ⟨report.result >>= block options, report.events⟩

/-- What a run has done: its status, the texts it has written in order, and its events. -/
structure RunReport where
  status : Except Fault Nat
  written : List String
  events : List Event

namespace RunReport

/-- A run that has more events and writes more before it goes on. -/
def after (events : List Event) (written : List String) (r : RunReport) : RunReport :=
  ⟨r.status, written ++ r.written, events ++ r.events⟩

/-- The end of a run. -/
def summary (processed failed : Nat) : RunReport :=
  ⟨.ok (if failed = 0 then 0 else 1), [], [.summary processed failed]⟩

/-- All that a run has written. -/
def output (r : RunReport) : String :=
  String.join r.written

end RunReport

/-- A run over entries, after `processed` entries of which `failed` have failed (the loop of `run`). -/
def runEntries (options : Options) (processed failed : Nat) : List Entry → RunReport
  | [] => .summary processed failed
  | entry :: rest =>
    let report := entry.outcome options
    match report.result with
    | .ok text =>
      (runEntries options (processed + 1) failed rest).after
        (report.events ++ [.lineDone entry.number entry.line]) [text, "\n"]
    | .error (.expression error) =>
      let next :=
        if options.continueOnError then runEntries options (processed + 1) (failed + 1) rest
        else .summary (processed + 1) (failed + 1)
      next.after (report.events ++ [.lineFailed entry.number entry.fixity entry.line error]) []
    | .error fault => ⟨.error fault, [], report.events⟩

/-- A run over the lines of a batch (`run`). -/
def run (options : Options) (layout : Layout) (lines : List String) : RunReport :=
  runEntries options 0 0 (entries layout lines)

/-- A run with settings that have not been validated. -/
def runSettings (settings : Settings) (lines : List String) : RunReport :=
  match Layout.ofScalar settings.mode with
  | .ok layout => run settings.options layout lines
  | .error fault => ⟨.error fault, [], []⟩

end Abacus
