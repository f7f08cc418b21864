import Abacus.Build.ReversePolish

/-!
# Expressions

The tree of a list of tokens or of a line, written either way.
-/

namespace Abacus

/-- The tree of a list of tokens, without a report of the finished tree. -/
def assemble (fixity : Fixity) (tokens : List String) : Report Tree :=
  match fixity with
  | .inFix => readInfix tokens
  | .postFix => readPostfix tokens

/-- The tree of a list of tokens (`ExpressionTree.construct`). -/
def construct (fixity : Fixity) (tokens : List String) : Report Tree :=
  let report := assemble fixity tokens
  match report.result with
  | .ok t => ⟨.ok t, report.events ++ [.built fixity t]⟩
  | .error _ => report

/-- The tree of a line, cut into tokens at its blanks. -/
def constructLine (fixity : Fixity) (line : String) : Report Tree :=
  construct fixity (Text.words line)

end Abacus
