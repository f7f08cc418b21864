/-!
# Help texts

The usage and the help text of the program, for lines of 80 columns.
-/

namespace Abacus.CommandLine

/-- The name of the program. -/
def programName : String := "expression-calculator"

/-- How the program is called. -/
def usage : String :=
  "\n".intercalate [
    "usage: expression-calculator [-h] [--mode \x7bauto,infix,postfix\x7d]",
    "                             [--continue-on-error] [--float-output] [--exact]",
    "                             [--log-level \x7bsilent,minimal,moderate,detailed,verbose\x7d]",
    "                             [--log-file LOG_FILE]",
    "                             file",
    ""]

/-- What the program does, and its arguments. -/
def help : String :=
  usage ++ "\n".intercalate [
    "",
    "Build expression trees from infix/postfix lines and evaluate them",
    "",
    "positional arguments:",
    "  file                  Expression file ('-' reads stdin)",
    "",
    "options:",
    "  -h, --help            show this help message and exit",
    "  --mode \x7bauto,infix,postfix\x7d",
    "                        auto: postfix lines, a blank line, then infix lines",
    "                        (default)",
    "  --continue-on-error   Log bad expressions and keep going instead of stopping",
    "  --float-output        Print the float64 value instead of truncating it to an",
    "                        integer",
    "  --exact               Print the exact rational value computed with SymPy",
    "  --log-level \x7bsilent,minimal,moderate,detailed,verbose\x7d",
    "                        Logging verbosity (default: minimal)",
    "  --log-file LOG_FILE   Also write logs to this file",
    ""]

/-- The text of a usage error after the usage. -/
def errorLine (message : String) : String :=
  s!"{programName}: error: {message}\n"

end Abacus.CommandLine
