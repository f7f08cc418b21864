import Abacus.Exact.Formula
import Abacus.Symbolic

/-!
# The expressions that run

The library of symbolic expressions that the program itself works with. Operations that are not to evaluate build the
expression as it stands.
-/

namespace Abacus

/-- A text that shows no integer that is too long. -/
def Term.written (t : Term) (text : String) : Except ForeignFault String :=
  if t.hasText then .ok text else .error ⟨"ValueError", Text.overlongMessage⟩

instance Symbolic.standard : Symbolic where
  Expr := Term
  integer n := .rational n
  add evaluate a b := .ok (if evaluate then a.add b else .sum a b)
  mul evaluate a b := .ok (if evaluate then a.multiply b else .product a b)
  pow evaluate a b := .ok (if evaluate then a.raise b else .power a b)
  isZero t := t == .rational 0
  isNegative := Term.isNegative
  hasNonFinite := Term.hasUndefined
  text t := t.written t.text
  latex t := t.written t.formula.text
  complex t := .ok t.complex

end Abacus
