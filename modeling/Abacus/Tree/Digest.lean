import Abacus.Tree.Fold

/-!
# Fingerprints and the comparison of trees

The fingerprint of a node is mixed from its token and the fingerprints of its links. A binary node must have two links
and a unary node at least one; the fingerprint of an operand depends on its token alone.

Two trees of the same fingerprint are compared node by node, so the outcome does not depend on how fingerprints are
mixed.
-/

namespace Abacus

/-- How the fingerprint of a node is mixed from its token and the fingerprints of its links. -/
structure Mixer (η : Type) where
  operand : String → η
  binary : String → η → η → η
  unary : String → η → η

/-- The mixer that is used unless another one is given. -/
def Mixer.standard : Mixer UInt64 where
  operand token := mixHash 1 (hash token)
  binary token left right := mixHash 2 (mixHash (hash token) (mixHash left right))
  unary token operand := mixHash 3 (mixHash (hash token) operand)

/-- The number of nodes of a subtree, and its fingerprint. -/
structure Summary (η : Type) where
  size : Nat
  digest : η
  deriving DecidableEq, Repr

/-- The summary of a node from the summaries of its links (`Node._compute_hash`). -/
def Summary.combine {η : Type} (mixer : Mixer η) (kind : Kind) (token : String) (links : List (Summary η)) :
    Except Fault (Summary η) := do
  let size := total (links.map Summary.size) + 1
  match kind with
  | .operand => return ⟨size, mixer.operand token⟩
  | .binary =>
    let (left, right) ← twoValues links
    return ⟨size, mixer.binary token left.digest right.digest⟩
  | .unary =>
    let operand ← lastValue links
    return ⟨size, mixer.unary token operand.digest⟩

namespace Tree

/-- The number of nodes in a list of pairs of trees. -/
def pairWork (pairs : List (Tree × Tree)) : Nat :=
  total (pairs.map fun p => 2 * p.1.count + 1)

/-- Do all pairs of trees on a stack have the same nodes at the same places (the loop of `Node.__eq__`)? -/
def sameFrom (pairs : List (Tree × Tree)) : Bool :=
  match pairs with
  | [] => true
  | (empty, empty) :: rest => sameFrom rest
  | (node kind token left right, node kind' token' left' right') :: rest =>
    if kind = kind' ∧ token = token' then sameFrom ((right, right') :: (left, left') :: rest)
    else false
  | _ => false
termination_by pairWork pairs
decreasing_by
  · simp [pairWork, count]
  · simp [pairWork, count]
    omega

end Tree

end Abacus
