import Abacus.Fault
import Abacus.Tree.Walk

/-!
# Bottom-up evaluation

`Place.fold` computes one result for each node from the results of its links. It follows the post-order
walk and keeps a table of the results that no parent has used yet; a parent takes the results of its
links out of the table. The first node at which `combine` fails ends the evaluation.

`combine` is told the place of the node, which stands for this node and no other one of the tree. Most evaluations
look at the kind and the token of the node only; for these there is `Tree.fold`.
-/

namespace Abacus

variable {α ε : Type}

/-- Results by path, the latest one first. -/
abbrev Table (α : Type) := List (Path × α)

namespace Table

/-- Takes the result at a path out of the table. -/
def take? (path : Path) : Table α → Option (α × Table α)
  | [] => none
  | (p, a) :: rest =>
    if p = path then some (a, rest)
    else (take? path rest).map fun (b, others) => (b, (p, a) :: others)

/-- Takes the results at several paths out of the table, in their order; `lost` if one is missing. -/
def takeAll (lost : ε) : List Path → Table α → Except ε (List α × Table α)
  | [], table => .ok ([], table)
  | path :: paths, table =>
    match table.take? path with
    | none => .error lost
    | some (a, table) =>
      match takeAll lost paths table with
      | .error e => .error e
      | .ok (values, table) => .ok (a :: values, table)

end Table

namespace Place

/-- Enters the result of one node into the table (the loop body of `Node._fold`). -/
def foldStep (lost : ε) (combine : Place → List α → Except ε α) (table : Table α) (place : Place) :
    Except ε (Table α) := do
  let (values, table) ← table.takeAll lost (place.children.map (·.path))
  let a ← combine place values
  return (place.path, a) :: table

/-- The result at a node from those of the nodes below it; `lost` if there is no node (`Node._fold`). -/
def fold (lost : ε) (combine : Place → List α → Except ε α) (place : Place) : Except ε α := do
  let table ← place.postorder.foldlM (foldStep lost combine) []
  match table.take? place.path with
  | some (a, _) => return a
  | none => throw lost

/-- What `combine` makes of the kind and the token of a node; `lost` if there is no node. -/
def byToken (lost : ε) (combine : Kind → String → List α → Except ε α) (place : Place) (values : List α) :
    Except ε α :=
  match place.tree with
  | .empty => .error lost
  | .node kind token _ _ => combine kind token values

end Place

/-- The result at the root where only the kinds and the tokens of the nodes matter; `lost` if there is no root. -/
def Tree.fold (lost : ε) (combine : Kind → String → List α → Except ε α) (t : Tree) : Except ε α :=
  (Place.root t).fold lost (Place.byToken lost combine)

/-! ## The values of the links -/

/-- The two values of a binary node. -/
def twoValues : List α → Except Fault (α × α)
  | [left, right] => .ok (left, right)
  | values => .error (.operandCount 2 values.length)

/-- The value that a unary node takes. -/
def lastValue (values : List α) : Except Fault α :=
  match values.getLast? with
  | some value => .ok value
  | none => .error .noOperand

end Abacus
