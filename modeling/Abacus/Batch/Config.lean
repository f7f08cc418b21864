import Abacus.Log.Level

/-!
# Settings of a batch

A configuration as it is given may hold anything for the layout and the level. `Settings.validate` accepts
the proper ones.
-/

namespace Abacus

/-- How the lines of a batch are written (`VALID_MODES`). -/
inductive Layout
  /-- Postfix lines up to the first blank line, infix lines after it. -/
  | auto
  /-- All lines one way. -/
  | fixed (fixity : Fixity)
  deriving DecidableEq, Repr

namespace Layout

/-- All layouts. -/
def all : List Layout :=
  [auto, fixed .inFix, fixed .postFix]

/-- The name of a layout. -/
def name : Layout → String
  | auto => "auto"
  | fixed fixity => fixity.smallName

/-- The layout with a given name. -/
def ofName? (text : String) : Option Layout :=
  all.find? (·.name == text)

/-- The layout that a setting names. Other than the names of layouts, every name or number of a way to
write is accepted. -/
def ofScalar (value : Scalar) : Except Fault Layout :=
  match value with
  | .text "auto" => .ok auto
  | value => fixed <$> Fixity.ofScalar value

end Layout

/-- What a batch does with its expressions. -/
structure Options where
  /-- Go on after an expression without a value. -/
  continueOnError : Bool
  /-- Print doubles without their fractional part. -/
  integerOutput : Bool
  /-- Print exact values. -/
  exact : Bool
  deriving DecidableEq, Repr

/-- The options unless others are given. -/
def Options.standard : Options :=
  ⟨false, true, false⟩

/-- A proper configuration. -/
structure Config where
  layout : Layout
  options : Options
  level : Level
  logFile : Option String
  deriving DecidableEq, Repr

/-- A value given for the level. -/
inductive LevelSetting
  | level (level : Level)
  | other (value : Scalar)

/-- A configuration as it is given (`CalculatorConfig`). -/
structure Settings where
  mode : Scalar
  continueOnError : Scalar
  integerOutput : Scalar
  exact : Scalar
  level : LevelSetting
  logFile : Scalar

namespace Settings

/-- The settings unless others are given. -/
def standard : Settings where
  mode := .text Layout.auto.name
  continueOnError := .bool Options.standard.continueOnError
  integerOutput := .bool Options.standard.integerOutput
  exact := .bool Options.standard.exact
  level := .level .minimal
  logFile := .null

/-- The options that are given. -/
def options (settings : Settings) : Options where
  continueOnError := settings.continueOnError.isTrue
  integerOutput := settings.integerOutput.isTrue
  exact := settings.exact.isTrue

/-- The layout that is given, if it is named exactly. -/
def layout? (settings : Settings) : Option Layout :=
  match settings.mode with
  | .text name => Layout.ofName? name
  | _ => none

/-- The path that is given for the log file. -/
def logPath? (settings : Settings) : Option String :=
  match settings.logFile with
  | .text path => some path
  | _ => none

/-- The configuration, if the layout and the level are proper (`CalculatorConfig.validate`). -/
def validate (settings : Settings) : Except Fault Config :=
  match settings.layout?, settings.level with
  | none, _ => .error (.badMode settings.mode)
  | _, .other value => .error (.badLevel value)
  | some layout, .level level => .ok ⟨layout, settings.options, level, settings.logPath?⟩

end Settings

end Abacus
