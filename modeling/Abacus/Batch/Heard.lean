import Abacus.Batch.Run
import Abacus.Log.Logger
import Abacus.Tree.Expression

/-!
# Runs that a logger listens to

The report of a run does not depend on any logger. Here the same run goes on while a logger listens: the builders ask
it before they write out a joined tree, a finished tree is counted and written out only if it wants to know, and each
kind of message has its own gate. What a run does for its logger is done where it stands: in a step of a builder, before
the tree is on its stack, or between the builder and the evaluation, where it fills what the nodes of the tree keep.
-/

namespace Abacus

/-- What an operation gives while a logger listens, the texts that it writes and the lines on the console. -/
structure Heard (α : Type) where
  result : Except Fault α
  written : List String
  lines : List LogLine

namespace Heard

variable {α β : Type}

/-- An operation that nothing is heard of. -/
def of (result : Except Fault α) : Heard α :=
  ⟨result, [], []⟩

/-- One operation after another. The second is not begun if the first fails. -/
def andThen (x : Heard α) (f : α → Heard β) : Heard β :=
  match x.result with
  | .error fault => ⟨.error fault, x.written, x.lines⟩
  | .ok a => ⟨(f a).result, x.written ++ (f a).written, x.lines ++ (f a).lines⟩

instance : Monad Heard where
  pure a := of (.ok a)
  bind := andThen

/-- Writes texts. -/
def write (texts : List String) : Heard Unit :=
  ⟨.ok (), texts, []⟩

/-- Shows lines on the console. -/
def log (lines : List LogLine) : Heard Unit :=
  ⟨.ok (), [], lines⟩

/-- Catches a fault of the expression. All other faults are passed on. -/
def attempt (x : Heard α) : Heard (Except ExpressionError α) :=
  match x.result with
  | .ok a => ⟨.ok (.ok a), x.written, x.lines⟩
  | .error (.expression error) => ⟨.ok (.error error), x.written, x.lines⟩
  | .error fault => ⟨.error fault, x.written, x.lines⟩

end Heard

/-! ## The gates of a logger -/

namespace Logger

variable (logger : Logger)

/-- The lines of a message that has passed its gate. -/
def emit (severity : Severity) (text : String) : List LogLine :=
  if logger.console then [⟨some severity, text⟩]
  else if logger.file.isNone && (severity == .warning || severity == .error) then [⟨none, text⟩]
  else []

/-- A message that requires a given level (`ExpressionLogger.info`). -/
def info (required : Level) (text : String) : List LogLine :=
  if logger.enabled required then logger.emit .info text else []

/-- A warning (`ExpressionLogger.warning`). -/
def warning (text : String) : List LogLine :=
  if logger.enabled .minimal then logger.emit .warning text else []

/-- A debugging message (`ExpressionLogger.debug`). -/
def debug (text : String) : List LogLine :=
  if logger.enabled .verbose then logger.emit .debug text else []

/-- A failure; it is kept back by a `silent` logger only (`ExpressionLogger.critical`). -/
def critical (text : String) : List LogLine :=
  if logger.level != .silent then logger.emit .error text else []

/-- The end of a batch; it is kept back by a `silent` logger only (`ExpressionLogger.batch_summary`). -/
def summarize (text : String) : List LogLine :=
  if logger.level == .silent then [] else logger.emit .info text

/-- The lines of an event, by the gate of its kind. -/
def shown (elapsed : String) (event : Event) : List LogLine :=
  match event with
  | .skipped .. | .warning _ => logger.warning (event.text elapsed)
  | .reduced .. | .debug _ => logger.debug (event.text elapsed)
  | .built .. => logger.info .detailed (event.text elapsed)
  | .lineDone .. => logger.info .moderate (event.text elapsed)
  | .note _ required => logger.info required (event.text elapsed)
  | .lineFailed .. | .critical _ => logger.critical (event.text elapsed)
  | .summary .. => logger.summarize (event.text elapsed)

/-- Tells the logger an event. -/
def hear (elapsed : String) (event : Event) : Heard Unit :=
  .log (logger.shown elapsed event)

end Logger

/-! ## Builders -/

/-- A logger that a builder tells its events, and the lines that it has shown. -/
structure Hearing where
  logger : Logger
  elapsed : String
  lines : List LogLine

instance : Listener Hearing where
  enabled level hearing := hearing.logger.enabled level
  tell event hearing :=
    { hearing with lines := hearing.lines ++ hearing.logger.shown hearing.elapsed event }

section Heard

variable (logger : Logger) (elapsed : String)

/-- The tree of a list of tokens, from a builder that tells the logger each of its steps. -/
def assembleHeard (fixity : Fixity) (tokens : List String) : Heard Tree :=
  let hearing : Hearing := ⟨logger, elapsed, []⟩
  match fixity with
  | .inFix =>
    match Shunt.build hearing tokens with
    | .ok (t, s) => ⟨.ok t, [], s.trace.lines⟩
    | .error stuck => ⟨.error stuck.fault, [], stuck.state.trace.lines⟩
  | .postFix =>
    match Stack.build hearing tokens with
    | .ok (t, s) => ⟨.ok t, [], s.trace.lines⟩
    | .error stuck => ⟨.error stuck.fault, [], stuck.state.trace.lines⟩

/-- The message about a finished tree of a given size. -/
def builtText (fixity : Fixity) (size : Nat) (text : String) : String :=
  s!"Built {fixity.smallName} tree with {size} node(s): {text}"

/-- The expression of a list of tokens (`ExpressionTree.construct`). For a logger that wants to know of it, the tree is
counted and written out, and it keeps both. -/
def constructHeard (fixity : Fixity) (tokens : List String) : Heard Expression := do
  let t ← assembleHeard logger elapsed fixity tokens
  let expression := Expression.of t
  if logger.enabled .detailed then
    let (size, expression) ← Heard.of expression.size
    let (text, expression) := expression.text
    Heard.log (logger.info .detailed (builtText fixity size text))
    return expression
  else return expression

/-- The expression of a list of tokens, if it can be told how they are written. -/
def expressionHeard (mode : Except Fault Fixity) (tokens : List String) : Heard Expression := do
  let fixity ← Heard.of mode
  constructHeard logger elapsed fixity tokens

/-! ## Batches -/

variable [Symbolic]

/-- The block of an entry, or the fault of its expression. -/
def Entry.heard (options : Options) (entry : Entry) : Heard (Except ExpressionError String) :=
  .attempt do
    let expression ← constructHeard logger elapsed entry.fixity (Text.words entry.line)
    Heard.of (block options expression.tree)

/-- A run over entries, after `processed` entries of which `failed` have failed. -/
def runEntriesHeard (options : Options) (processed failed : Nat) : List Entry → Heard Nat
  | [] => do
    logger.hear elapsed (.summary processed failed)
    return if failed = 0 then 0 else 1
  | entry :: rest => do
    match ← entry.heard logger elapsed options with
    | .ok text =>
      Heard.write [text, "\n"]
      logger.hear elapsed (.lineDone entry.number entry.line)
      runEntriesHeard options (processed + 1) failed rest
    | .error error =>
      logger.hear elapsed (.lineFailed entry.number entry.fixity entry.line error)
      if options.continueOnError then runEntriesHeard options (processed + 1) (failed + 1) rest
      else do
        logger.hear elapsed (.summary (processed + 1) (failed + 1))
        return 1

/-- A run with settings that have not been validated (`run`). -/
def runHeard (settings : Settings) (lines : List String) : Heard Nat := do
  let layout ← Heard.of (Layout.ofScalar settings.mode)
  runEntriesHeard logger elapsed settings.options 0 0 (entries layout lines)

end Heard

end Abacus
