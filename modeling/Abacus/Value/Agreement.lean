import Abacus.Value.Evaluate
import Abacus.Value.Exact

/-!
# Agreement of the two evaluations

The value in doubles agrees with the exact value if they are close: by a relative tolerance, or by an
absolute one near zero.
-/

namespace Abacus

/-- The relative tolerance that is used unless another one is given. -/
def relativeTolerance : Float := 1e-9

/-- The absolute tolerance. -/
def absoluteTolerance : Float := 1e-12

/-- Are two doubles close? Equal ones are; an infinite one is close to nothing else. -/
def isClose (relative absolute a b : Float) : Bool :=
  if a == b then true
  else if a.isInf || b.isInf then false
  else
    let difference := (b - a).abs
    difference ≤ (relative * b).abs || difference ≤ (relative * a).abs || difference ≤ absolute

/-- Does the value in doubles agree with the exact one (`SymPyEvaluator.agrees_with_float`)? It does not if it is
missing for an arithmetic reason or if the exact value is not real. -/
def Tree.agrees [Symbolic] (t : Tree) (relative : Float) : Except Fault Bool :=
  match t.evaluate with
  | .error (.expression (.eval _)) => .ok false
  | .error f => .error f
  | .ok x => do
    let (real, imaginary) ← Symbolic.lifted (Symbolic.complex (← t.exactValue))
    if imaginary != 0 then return false
    if relative < 0 then throw .negativeTolerance
    return isClose relative absoluteTolerance x real

end Abacus
