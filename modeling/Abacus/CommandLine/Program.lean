import Abacus.Batch.Run
import Abacus.CommandLine.Arguments
import Abacus.CommandLine.Path
import Abacus.Log.Logger

/-!
# The program

The program reads its arguments, configures the log and runs a batch over the lines of a file or of the
standard input. `execute` is the outcome as a function of the arguments and of the files; the log file is opened
before the input.
-/

namespace Abacus.CommandLine

/-- The file name that stands for the standard input. -/
def standardInputName : String := "-"

/-- The lines of a file in UTF-8. -/
def decodeLines (bytes : ByteArray) : Except Fault (List String) :=
  match String.fromUTF8? bytes with
  | some text => .ok (Abacus.textLines text)
  | none => .error .undecodable

/-- The run over the bytes of a file, if they can be read. -/
def runBytes [Symbolic] (config : Config) (bytes : Except Fault ByteArray) : RunReport :=
  match bytes >>= decodeLines with
  | .ok lines => run config.options config.layout lines
  | .error fault => ⟨.error fault, [], []⟩

/-- What reading gives, if the path can be one. -/
def checkPath (path : String) (bytes : Except Fault ByteArray) : Except Fault ByteArray :=
  if path.contains '\x00' then .error .embeddedNull else bytes

/-- The logger of a configuration. -/
def configLogger (config : Config) : Logger :=
  .configured config.level config.logFile

/-- The files as the program finds them. -/
structure Files where
  /-- The absolute path of the current directory. -/
  directory : String
  /-- Why the file at an absolute path cannot be opened to append to it, if it cannot. -/
  appendError : String → Option FileError
  /-- The bytes of the input once the log of a configuration is open. -/
  input : Config → String → Except Fault ByteArray

/-- The outcome of the program. -/
inductive Outcome
  | help
  | usageError (error : UsageError)
  /-- The configuration is refused, or its log file cannot be opened. -/
  | refused (fault : Fault)
  | finished (report : RunReport) (logger : Logger)

/-- The status of the program after a usage error. -/
def usageStatus : Nat := 2

/-- Opening the log file of a configuration, if it has one. -/
def openLog (files : Files) (config : Config) : Except Fault Unit :=
  match config.logFile with
  | none => .ok ()
  | some path =>
    let full := absolutePath files.directory path
    match files.appendError full with
    | none => .ok ()
    | some error => .error (.file error full)

/-- The program as a function of its arguments and of the files (`main`). -/
def execute [Symbolic] (files : Files) (arguments : List String) : Outcome :=
  match Arguments.parse arguments with
  | .error error => .usageError error
  | .ok .help => .help
  | .ok (.run _ (.error fault)) => .refused fault
  | .ok (.run file (.ok config)) =>
    match openLog files config with
    | .error fault => .refused fault
    | .ok () => .finished (runBytes config (checkPath file (files.input config file))) (configLogger config)

end Abacus.CommandLine
