import Abacus.Log.Event

/-!
# Loggers

A logger passes events by its level and writes them as lines: to the console if it was configured with a level
other than `silent`, and to a file if it has one. Changing the level later changes what passes but not where it
is written. When a logger has nowhere to write, warnings and errors still go to the console, bare.

At first there is no logger; whoever needs one creates it with the default level. `Logging` is this state.
-/

namespace Abacus

/-- A line of a log. A stamped line shows the time and the severity in front of its text. -/
structure LogLine where
  stamp : Option Severity
  text : String
  deriving DecidableEq, Repr

/-- The written line; `time` is what a stamped line begins with. -/
def LogLine.written (time : String) (line : LogLine) : String :=
  match line.stamp with
  | some severity => s!"{time}{severity.name} - {line.text}\n"
  | none => line.text ++ "\n"

/-- What passes, and where it is written (`ExpressionLogger`). -/
structure Logger where
  level : Level
  console : Bool
  file : Option String
  deriving DecidableEq, Repr

namespace Logger

/-- A logger as it is configured (`ExpressionLogger.__init__`). -/
def configured (level : Level) (file : Option String) : Logger :=
  ⟨level, level != .silent, file⟩

/-- The logger that is used unless one is configured. -/
def standard : Logger :=
  configured .minimal none

/-- The logger without anywhere to write (`ExpressionLogger.close`). -/
def close (logger : Logger) : Logger :=
  { logger with console := false, file := none }

/-- Does the logger pass what requires a given level (`ExpressionLogger.is_enabled`)? -/
def enabled (logger : Logger) (required : Level) : Bool :=
  logger.level.passes required

/-- The line of an event, stamped with its severity. -/
def stamped (elapsed : String) (event : Event) : LogLine :=
  ⟨some event.severity, event.text elapsed⟩

/-- Is an event shown even if there is nowhere to write? -/
def isUrgent (event : Event) : Bool :=
  event.severity == .warning || event.severity == .error

/-- The line that an event writes to the console. -/
def consoleLine? (logger : Logger) (elapsed : String) (event : Event) : Option LogLine :=
  if !logger.enabled event.required then none
  else if logger.console then some (stamped elapsed event)
  else if logger.file.isNone && isUrgent event then some ⟨none, event.text elapsed⟩
  else none

/-- The line that an event writes to the file. -/
def fileLine? (logger : Logger) (elapsed : String) (event : Event) : Option LogLine :=
  if logger.enabled event.required && logger.file.isSome then some (stamped elapsed event) else none

/-- All lines that events write to the console. -/
def consoleLines (logger : Logger) (elapsed : String) (events : List Event) : List LogLine :=
  events.filterMap (logger.consoleLine? elapsed)

/-- All lines that events write to the file. -/
def fileLines (logger : Logger) (elapsed : String) (events : List Event) : List LogLine :=
  events.filterMap (logger.fileLine? elapsed)

end Logger

/-- The logger in use, if there is one yet. -/
abbrev Logging := Option Logger

namespace Logging

/-- No logger yet. -/
def initial : Logging :=
  none

/-- The logger in use; a default one is created if there is none (`get_logger`). -/
def logger (logging : Logging) : Logger :=
  logging.getD Logger.standard

/-- The state once the logger has been asked for. -/
def touched (logging : Logging) : Logging :=
  some logging.logger

/-- Changes the level (`set_log_level`). If there is no logger yet, one is configured with this level. -/
def setLevel (level : Level) : Logging → Logging
  | some logger => some { logger with level := level }
  | none => some (.configured level none)

/-- Replaces the logger (`configure_logging`). -/
def configure (level : Level) (file : Option String) : Logging :=
  some (.configured level file)

end Logging

/-- The text of lines, one after the other. -/
def writtenLines (time : String) (lines : List LogLine) : String :=
  String.join (lines.map (LogLine.written time))

/-- The name of a log file that is given no name. -/
def defaultLogFile (timeStamp : String) : String :=
  s!"expression_calculator_{timeStamp}.log"

end Abacus
