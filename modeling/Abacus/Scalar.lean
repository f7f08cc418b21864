import Abacus.Binary64.Text
import Abacus.Text.Quoted

/-!
# Scalars

A setting that comes from outside may be of any simple type. `Scalar.shown` is the form in which a
refused one appears in a message.
-/

namespace Abacus

/-- A value given for a setting. -/
inductive Scalar
  | null
  | bool (value : Bool)
  | int (value : Int)
  | float (value : Float)
  | text (value : String)
  /-- A list without entries. -/
  | emptyList

namespace Scalar

/-- The value as shown in a message. -/
def shown : Scalar → String
  | null => "None"
  | bool true => "True"
  | bool false => "False"
  | int n => toString n
  | float x => floatText x
  | text s => Text.quoted s
  | emptyList => "[]"

/-- Does the value count as true? Zero and everything empty count as false. -/
def isTrue : Scalar → Bool
  | null | emptyList => false
  | bool b => b
  | int n => n != 0
  | float x => x != 0
  | text s => !s.isEmpty

/-- Is this the number `n`? The truth values count as 1 and 0. -/
def isNumber (n : Nat) : Scalar → Bool
  | bool b => b.toNat == n
  | int k => k == n
  | float x => x == n.toFloat
  | _ => false

end Scalar

end Abacus
