import Abacus.Batch.Config
import Abacus.Text.Blank

/-!
# The lines of a batch

Blank lines are left out, all others are entries with their line number and the way they are written. In
the layout `auto` the first blank line switches from postfix to infix.
-/

namespace Abacus

/-- An expression of a batch. -/
structure Entry where
  number : Nat
  fixity : Fixity
  line : String
  deriving DecidableEq, Repr

/-- The entries of the lines from a given number on (the loop of `iter_expressions`). `switching` tells whether a
blank line switches to infix. -/
def entriesFrom (switching : Bool) (fixity : Fixity) (number : Nat) : List String → List Entry
  | [] => []
  | raw :: rest =>
    let line := Text.trim raw
    if line.isEmpty then
      entriesFrom switching (if switching then .inFix else fixity) (number + 1) rest
    else
      ⟨number, fixity, line⟩ :: entriesFrom switching fixity (number + 1) rest

/-- The entries of a batch; the first line has number 1 (`iter_expressions`). -/
def entries (layout : Layout) (lines : List String) : List Entry :=
  match layout with
  | .auto => entriesFrom true .postFix 1 lines
  | .fixed fixity => entriesFrom false fixity 1 lines

/-- The lines of a text from within a line, of which the characters so far are given, newest first. -/
def linesFrom (line : List Char) : List Char → List (List Char)
  | [] => if line.isEmpty then [] else [line.reverse]
  | '\r' :: '\n' :: rest => line.reverse :: linesFrom [] rest
  | c :: rest =>
    if c = '\n' || c = '\r' then line.reverse :: linesFrom [] rest else linesFrom (c :: line) rest

/-- The lines of a text. A line ends with a line feed, a carriage return or both in this order. -/
def textLines (text : String) : List String :=
  (linesFrom [] text.toList).map String.ofList

end Abacus
