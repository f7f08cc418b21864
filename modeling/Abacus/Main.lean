import Abacus.CommandLine.Program
import Abacus.Exact.Standard
import Std.Time.Format

/-!
# Entry point

Reads the input, writes results to the standard output and the log to the standard error and to the log
file. Log lines begin with the time of day.
-/

namespace Abacus.CommandLine

/-- A number in decimal with at least `width` digits. -/
def padded (width : Nat) (n : Int) : String :=
  let digits := Nat.toDigits 10 n.toNat
  String.ofList (List.replicate (width - digits.length) '0' ++ digits)

/-- A duration in seconds with three decimal places. -/
def secondsText (milliseconds : Nat) : String :=
  s!"{milliseconds / 1000}.{padded 3 (milliseconds % 1000)}s"

/-- The local time of day, as a log line begins with it. -/
def timeOfDay : IO String := do
  let now ← Std.Time.PlainDateTime.now
  return s!"{padded 2 now.hour.val}:{padded 2 now.minute.val}:{padded 2 now.second.val} - "

/-- All bytes that a stream still holds. -/
partial def readAll (stream : IO.FS.Stream) (sofar : ByteArray) : IO ByteArray := do
  let chunk ← stream.read 65536
  if chunk.isEmpty then return sofar else readAll stream (sofar ++ chunk)

/-- Why a file cannot be opened. Errors of other kinds are passed on. -/
def fileError (error : IO.Error) : IO FileError :=
  match error with
  | .noFileOrDirectory .. => return .missing
  | .inappropriateType _ _ details =>
    return if details.toLower = "is a directory" then .isDirectory else .notDirectory
  | .invalidArgument _ _ details =>
    if details.endsWith "name too long" then return .nameTooLong else throw error
  | _ => throw error

/-- The bytes of a file or of the standard input. -/
def readInput (name : String) : IO (Except Fault ByteArray) := do
  if name = standardInputName then return .ok (← readAll (← IO.getStdin) ByteArray.empty)
  try return .ok (← IO.FS.readBinFile name)
  catch error => return .error (.file (← fileError error) name)

/-- Opens a file to append to it, and gives the reason if it cannot be opened. -/
def appendError (path : String) : IO (Option FileError) := do
  try
    let _ ← IO.FS.Handle.mk path .append
    return none
  catch error => return some (← fileError error)

/-- The files as a run over a file needs them: opens the log file, then reads the input. -/
def openFiles (file : String) (config : Config) : IO Files := do
  let directory := (← IO.currentDir).toString
  let error ← match config.logFile with
    | some path => appendError (absolutePath directory path)
    | none => pure none
  let bytes ← if error.isNone && !file.contains '\x00' then readInput file
    else pure (.ok ByteArray.empty)
  return ⟨directory, fun _ => error, fun _ _ => bytes⟩

/-- The files that arguments ask for. -/
def requestedFiles (arguments : List String) : IO Files :=
  match Arguments.parse arguments with
  | .ok (.run file (.ok config)) => openFiles file config
  | _ => return ⟨"/", fun _ => none, fun _ _ => .ok ByteArray.empty⟩

/-- Writes an error, and gives the status of the program. -/
def writeFault (fault : Fault) : IO UInt32 := do
  (← IO.getStderr).putStr (errorLine fault.message)
  return 1

/-- Writes the results and the log of a run, and gives the status of the program. -/
def writeRun (report : RunReport) (logger : Logger) (elapsed : String) : IO UInt32 := do
  let time ← timeOfDay
  (← IO.getStdout).putStr report.output
  (← IO.getStderr).putStr (writtenLines time (logger.consoleLines elapsed report.events))
  if let some path := logger.file then
    let full := absolutePath (← IO.currentDir).toString path
    (← IO.FS.Handle.mk full .append).putStr
      (writtenLines time (logger.fileLines elapsed report.events))
  match report.status with
  | .ok status => return status.toUInt32
  | .error fault => writeFault fault

/-- Runs the program. -/
def runProgram (arguments : List String) : IO UInt32 := do
  let start ← IO.monoMsNow
  let files ← requestedFiles arguments
  match execute files arguments with
  | .help =>
    (← IO.getStdout).putStr help
    return 0
  | .usageError error =>
    (← IO.getStderr).putStr (usage ++ errorLine error.message)
    return usageStatus.toUInt32
  | .refused fault => writeFault fault
  | .finished report logger =>
    let stop ← IO.monoMsNow
    writeRun report logger (secondsText (stop - start))

end Abacus.CommandLine

/-- The program. -/
def main (arguments : List String) : IO UInt32 :=
  Abacus.CommandLine.runProgram arguments
