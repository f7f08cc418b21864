import Abacus.Batch.Config
import Abacus.CommandLine.Help
import Abacus.Text.Digit

/-!
# Arguments

The arguments are sorted first: each is an option, the separator `--`, an unknown option, or plain. All
arguments after the separator are plain. Then they are taken one by one. Options may be given by a unique
abbreviation, with their value behind an equals sign or as the next plain argument; of a repeated option
the last one counts. The first plain argument that is no value is the file.

* `classify` sorts one argument.
* `Arguments.parse` is the outcome for a whole list.
-/

namespace Abacus.CommandLine

/-- The separator, after which all arguments are plain. -/
def separatorText : String := "--"

/-- An option of the program. -/
inductive Switch
  | help
  | mode
  | continueOnError
  | floatOutput
  | exact
  | logLevel
  | logFile
  deriving DecidableEq, Repr

namespace Switch

/-- The names of all options in the order in which they are listed. -/
def names : List (String × Switch) :=
  [("-h", help), ("--help", help), ("--mode", mode), ("--continue-on-error", continueOnError),
    ("--float-output", floatOutput), ("--exact", exact), ("--log-level", logLevel),
    ("--log-file", logFile)]

/-- The option with a given full name. -/
def ofName? (name : String) : Option Switch :=
  names.lookup name

/-- Does the option take a value? -/
def takesValue : Switch → Bool
  | mode | logLevel | logFile => true
  | _ => false

/-- All names of an option, as an error about it shows them. -/
def title (switch : Switch) : String :=
  "/".intercalate ((names.filter (·.2 == switch)).map (·.1))

end Switch

/-- An argument by its role; an option may hold its value. -/
inductive Argument
  | plain (text : String)
  | separator
  | option (switch : Switch) (short : Bool) (value : Option String)
  | unknown (text : String)
  deriving DecidableEq, Repr

/-- Why the arguments are refused. -/
inductive UsageError
  | ambiguous (argument : String) (candidates : List String)
  | missingValue (switch : Switch)
  | ignoredValue (switch : Switch) (value : String)
  | badChoice (switch : Switch) (value : String) (choices : List String)
  | missingFile
  | unrecognized (arguments : List String)
  deriving DecidableEq, Repr

/-- The wording of a usage error. -/
def UsageError.message : UsageError → String
  | ambiguous argument candidates =>
    s!"ambiguous option: {argument} could match " ++ ", ".intercalate candidates
  | missingValue switch => s!"argument {switch.title}: expected one argument"
  | ignoredValue switch value =>
    s!"argument {switch.title}: ignored explicit argument {Text.quoted value}"
  | badChoice switch value choices =>
    s!"argument {switch.title}: invalid choice: {Text.quoted value} (choose from " ++
      ", ".intercalate (choices.map Text.quoted) ++ ")"
  | missingFile => "the following arguments are required: file"
  | unrecognized arguments => "unrecognized arguments: " ++ " ".intercalate arguments

/-! ## Sorting -/

/-- Cuts a text at its first equals sign. -/
def cutAtEquals (text : List Char) : String × Option String :=
  let name := text.takeWhile (· != '=')
  (String.ofList name,
    match text.drop name.length with
    | [] => none
    | _ :: value => some (String.ofList value))

/-- The text without a line feed at its end. -/
def withoutLineEnd (text : List Char) : List Char :=
  if text.getLast? = some '\n' then text.dropLast else text

/-- Is the text a negative number, that is a minus sign before decimal digits with at most one point among them and
a digit after it? A line feed may follow. -/
def isNegativeNumber (text : List Char) : Bool :=
  match withoutLineEnd text with
  | '-' :: number =>
    match number.dropWhile Text.isDecimalDigit with
    | [] => !number.isEmpty
    | '.' :: fraction => !fraction.isEmpty && fraction.all Text.isDecimalDigit
    | _ => false
  | _ => false

/-- The options that a long option may abbreviate, and the value that it gives. -/
def longMatches (text : List Char) : List (String × Argument) :=
  let (name, value) := cutAtEquals text
  (Switch.names.filter fun entry => name.toList.isPrefixOf entry.1.toList).map fun entry =>
    (entry.1, .option entry.2 (entry.1 == "-h") value)

/-- The short option that an argument begins with; what follows is its value. -/
def shortMatches (text : List Char) : List (String × Argument) :=
  (Switch.names.filter fun entry => entry.1.toList == text.take 2).map fun entry =>
    (entry.1, .option entry.2 true (some (String.ofList (text.drop 2))))

/-- The role of an argument that begins with a minus sign, has further characters and is neither the separator nor
the name of an option. -/
def classifyDashed (argument : String) : Except UsageError Argument :=
  let text := argument.toList
  let named := match cutAtEquals text with
    | (name, some value) => (Switch.ofName? name).map fun switch =>
        Argument.option switch (name == "-h") (some value)
    | (_, none) => none
  match named with
  | some option => .ok option
  | none =>
    let candidates := if text.take 2 = ['-', '-'] then longMatches text else shortMatches text
    match candidates with
    | [(_, option)] => .ok option
    | [] =>
      if isNegativeNumber text || text.contains ' ' then .ok (.plain argument)
      else .ok (.unknown argument)
    | several => .error (.ambiguous argument (several.map (·.1)))

/-- The role of an argument before the separator. -/
def classify (argument : String) : Except UsageError Argument :=
  match Switch.ofName? argument with
  | some switch => .ok (.option switch (argument == "-h") none)
  | none =>
    match argument.toList with
    | '-' :: _ :: _ => classifyDashed argument
    | _ => .ok (.plain argument)

/-- The roles of all arguments. -/
def classifyAll : List String → Except UsageError (List Argument)
  | [] => .ok []
  | argument :: rest =>
    if argument = separatorText then .ok (.separator :: rest.map .plain)
    else do
      let first ← classify argument
      let others ← classifyAll rest
      return first :: others

/-! ## Taking -/

/-- What the arguments ask for. A value that is `none` has been given as the separator, which stands for no value
at all. -/
structure Arguments where
  file : Option String
  layout : Option Layout
  options : Options
  level : Option Level
  /-- The log file, if one is asked for. -/
  logFile : Option (Option String)
  /-- Arguments that have no use, last one first. -/
  extras : List String
  deriving DecidableEq, Repr

/-- The outcome of the arguments. -/
inductive Request
  /-- Show the help text. -/
  | help
  /-- Run over a file, if the configuration is proper. -/
  | run (file : String) (config : Except Fault Config)

namespace Arguments

/-- What holds without any argument. -/
def standard : Arguments :=
  ⟨none, some .auto, Options.standard, some .minimal, none, []⟩

/-- Takes an option with its value. -/
def withValue (switch : Switch) (value : String) (a : Arguments) : Except UsageError Arguments :=
  let absent := value = separatorText
  match switch with
  | .mode =>
    match Layout.ofName? value with
    | some layout => .ok { a with layout := some layout }
    | none =>
      if absent then .ok { a with layout := none }
      else .error (.badChoice switch value (Layout.all.map Layout.name))
  | .logLevel =>
    match Level.all.find? (·.smallName == value) with
    | some level => .ok { a with level := some level }
    | none =>
      if absent then .ok { a with level := none }
      else .error (.badChoice switch value (Level.all.map Level.smallName))
  | .logFile => .ok { a with logFile := some (if absent then none else some value) }
  | _ => .ok a

/-- Takes an option without a value. -/
def withFlag (switch : Switch) (a : Arguments) : Arguments :=
  match switch with
  | .continueOnError => { a with options := { a.options with continueOnError := true } }
  | .floatOutput => { a with options := { a.options with integerOutput := false } }
  | .exact => { a with options := { a.options with exact := true } }
  | _ => a

/-- Takes a plain argument: the first one is the file. -/
def withPlain (text : String) (a : Arguments) : Arguments :=
  match a.file with
  | none => { a with file := some text }
  | some _ => { a with extras := text :: a.extras }

/-- Checks a value given to a flag. Behind the short flag for help the same flag may be repeated; every other value
is refused. -/
def flagValue (switch : Switch) (short : Bool) : List Char → Except UsageError Unit
  | [] => .error (.ignoredValue switch "")
  | c :: rest =>
    if !short || c != 'h' then .error (.ignoredValue switch (String.ofList (c :: rest)))
    else if rest.isEmpty then .ok ()
    else flagValue switch short rest

/-- Takes the arguments after the separator; with the separator itself, if it comes before the file. -/
def takePlain (afterSeparator : Bool) (a : Arguments) : List Argument → Arguments
  | .plain text :: rest => takePlain false (a.withPlain text) rest
  | .separator :: rest =>
    if a.file.isNone && !rest.isEmpty || afterSeparator then takePlain false a rest
    else takePlain false { a with extras := separatorText :: a.extras } rest
  | _ => a

/-- The configuration, if the level, the layout and the log file have values (`CalculatorConfig.from_args`). -/
def config (a : Arguments) : Except Fault Config :=
  match a.level, a.layout, a.logFile with
  | none, _, _ => .error .levelNotText
  | _, none, _ => .error (.badMode .emptyList)
  | _, _, some none => .error .pathNotText
  | some level, some layout, some (some path) => .ok ⟨layout, a.options, level, some path⟩
  | some level, some layout, none => .ok ⟨layout, a.options, level, none⟩

/-- The request, once all arguments are taken. -/
def request (a : Arguments) : Except UsageError Request :=
  match a.file, a.extras.reverse with
  | none, _ => .error .missingFile
  | some file, [] => .ok (.run file a.config)
  | some _, extras => .error (.unrecognized extras)

/-- Takes the arguments one by one. `fresh` tells whether the argument before was taken as the file, so that a
separator belongs to it. -/
def take (fresh : Bool) (a : Arguments) : List Argument → Except UsageError Request
  | [] => a.request
  | .plain text :: rest => take a.file.isNone (a.withPlain text) rest
  | .unknown text :: rest => take false { a with extras := text :: a.extras } rest
  | .option switch _ none :: rest =>
    if switch = .help then .ok .help
    else if switch.takesValue then
      match rest with
      | .plain value :: rest =>
        match a.withValue switch value with
        | .ok a => take false a rest
        | .error e => .error e
      | _ => .error (.missingValue switch)
    else take false (a.withFlag switch) rest
  | .option switch short (some value) :: rest =>
    if switch.takesValue then
      match a.withValue switch value with
      | .ok a => take false a rest
      | .error e => .error e
    else
      match flagValue switch short value.toList with
      | .ok () => .ok .help
      | .error e => .error e
  | .separator :: rest => (takePlain fresh a (.separator :: rest)).request

/-- The request that a list of arguments makes (`build_parser`). -/
def parse (arguments : List String) : Except UsageError Request := do
  let sorted ← classifyAll arguments
  standard.take false sorted

end Arguments

end Abacus.CommandLine
