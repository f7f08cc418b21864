/-!
# Paths

The log file is opened under its absolute path. Its components are resolved by their names alone: empty components
and `.` vanish, and `..` takes away the component before it.
-/

namespace Abacus.CommandLine

/-- The components of a path, of whose current component the characters so far are given, newest first. -/
def componentsFrom (component : List Char) : List Char → List (List Char)
  | [] => [component.reverse]
  | c :: rest =>
    if c = '/' then component.reverse :: componentsFrom [] rest
    else componentsFrom (c :: component) rest

/-- The components of a path. Between two neighbouring slashes there is an empty one. -/
def components (path : String) : List String :=
  (componentsFrom [] path.toList).map String.ofList

/-- Goes from a directory along one component; both directories are lists of components, innermost first. -/
def enter (directory : List String) (component : String) : List String :=
  if component.isEmpty || component = "." then directory
  else if component = ".." then directory.tail
  else component :: directory

/-- The slashes at the beginning of an absolute path. Two are kept, any other number is one. -/
def leadingSlashes (path : String) : String :=
  if (path.toList.takeWhile (· = '/')).length = 2 then "//" else "/"

/-- The absolute path of what a path means in a directory. It ends before its first character U+0000. -/
def absolutePath (directory path : String) : String :=
  let full := if path.startsWith "/" then path else directory ++ "/" ++ path
  let resolved := (components full).foldl enter []
  let text := leadingSlashes full ++ "/".intercalate resolved.reverse
  String.ofList (text.toList.takeWhile (· ≠ '\x00'))

end Abacus.CommandLine
