import Abacus.Fault

/-!
# The arithmetic kernel

The operators on doubles. The kernel takes an operator by its code and checks nothing but division by
zero; `applyBinary` and `applyUnary` take it by its symbol and refuse results that are not finite.
-/

namespace Abacus

/-! ## By code -/

/-- A binary operator of the kernel, by its code (`evaluate_binary_op`). A code of no binary operator gives zero. -/
def kernelBinary (code : Int) (left right : Float) : Except Fault Float :=
  match Operator.ofCode? code with
  | some .add => .ok (left + right)
  | some .sub => .ok (left - right)
  | some .mul => .ok (left * right)
  | some .div => if right == 0 then .error .zeroDivision else .ok (left / right)
  | some .pow => .ok (left ^ right)
  | _ => .ok 0

/-- A unary operator of the kernel, by its code (`evaluate_unary_op`). A code of no unary operator gives zero. -/
def kernelUnary (code : Int) (operand : Float) : Float :=
  match Operator.ofCode? code with
  | some .neg => -operand
  | _ => 0

/-! ## By symbol -/

/-- Is this operation a division by zero (the guards of `apply_binary_op`)? Zero to a negative power counts as one. -/
def zeroDivisor? (op : Operator) (left right : Float) : Option EvalError :=
  match op with
  | .div => if right == 0 then some (.divisionByZero (.double left) (.double right)) else none
  | .pow => if left == 0 && right < 0 then some (.zeroToNegative (.double right)) else none
  | _ => none

/-- A binary operator on doubles, with a finite result (`apply_binary_op`). -/
def applyBinary (symbol : String) (left right : Float) : Except Fault Float :=
  if !Token.isBinary symbol then .error (.unknownSymbol symbol)
  else
    match Operator.ofSymbol? symbol with
    | none => .error (.unknownSymbol symbol)
    | some op =>
      match zeroDivisor? op left right with
      | some e => .error (.eval e)
      | none => do
        let result ← kernelBinary op.code left right
        if (Binary64.ofFloat result).isFinite then return result
        else throw (.eval (.notFinite symbol result left right))

/-- A unary operator on a double (`apply_unary_op`). -/
def applyUnary (symbol : String) (operand : Float) : Except Fault Float :=
  if !Token.isUnary symbol then .error (.unknownSymbol symbol)
  else
    match Operator.ofSymbol? symbol with
    | none => .error (.unknownSymbol symbol)
    | some op => .ok (kernelUnary op.code operand)

end Abacus
