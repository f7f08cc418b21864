/-!
# Binary64 numbers

The value of a double as an integer times a power of two, and the double nearest to a fraction.

* `Binary64.ofBits` decodes the 64 bits of a double.
* `truncated` drops the fractional part of a finite double.
* `nearestBits` rounds a fraction to the nearest double, a tie to the even significand.
-/

namespace Abacus

/-- What a double denotes. A finite double is `± significand * 2 ^ exponent`. -/
inductive Binary64
  | finite (negative : Bool) (significand : Nat) (exponent : Int)
  | infinite (negative : Bool)
  | nan
  deriving DecidableEq, Repr

namespace Binary64

/-- The least exponent, that of the subnormal doubles. -/
def minExponent : Int := -1074

/-- The bits of positive infinity. All finite positive doubles have smaller bits, in increasing order
of their values. -/
def infinityBits : Nat := 0x7FF * Nat.pow 2 52

/-- Decodes sign, biased exponent and fraction. -/
def ofBits (bits : UInt64) : Binary64 :=
  let n := bits.toNat
  let negative : Bool := Nat.pow 2 63 ≤ n
  let biased : Nat := n / Nat.pow 2 52 % Nat.pow 2 11
  let fraction : Nat := n % Nat.pow 2 52
  if biased = 0x7FF then
    if fraction = 0 then .infinite negative else .nan
  else if biased = 0 then .finite negative fraction minExponent
  else .finite negative (Nat.pow 2 52 + fraction) ((biased : Int) - 1075)

/-- The value of a float. -/
def ofFloat (x : Float) : Binary64 :=
  ofBits x.toBits

/-- Is this neither infinite nor undefined? -/
def isFinite : Binary64 → Bool
  | finite .. => true
  | _ => false

/-! ## To an integer -/

/-- The integer part of a finite number, rounded toward zero; `none` for the others. -/
def truncated : Binary64 → Option Int
  | finite negative m e =>
    let magnitude := if 0 ≤ e then m * Nat.pow 2 e.toNat else m / Nat.pow 2 (-e).toNat
    some (if negative then -(magnitude : Int) else magnitude)
  | _ => none

/-! ## From a fraction -/

/-- The integer nearest to `num / den`; a tie goes to the even one. -/
def roundDiv (num den : Nat) : Nat :=
  let q := num / den
  let r := num % den
  if den < 2 * r ∨ (2 * r = den ∧ q % 2 = 1) then q + 1 else q

/-- The exponent of the significand's unit for the value `num / den`: the significand has 53 bits
unless the value is subnormal. -/
def unitExponent (num den : Nat) : Int :=
  let k : Int := (Nat.log2 num : Int) - Nat.log2 den
  let below := if 0 ≤ k then num < den * Nat.pow 2 k.toNat else num * Nat.pow 2 (-k).toNat < den
  max (if below then k - 53 else k - 52) minExponent

/-- The bits of the double nearest to `num / den`, without the sign. They are `infinityBits` or more
if the value is beyond the largest double by half a unit or more. -/
def nearestBits (num den : Nat) : Nat :=
  if num = 0 then 0
  else
    let e := unitExponent num den
    let m :=
      if 0 ≤ e then roundDiv num (den * Nat.pow 2 e.toNat)
      else roundDiv (num * Nat.pow 2 (-e).toNat) den
    (e - minExponent).toNat * Nat.pow 2 52 + m

/-- The double nearest to a natural number, if the number is small enough to have one. -/
def ofNat? (n : Nat) : Option Float :=
  let bits := nearestBits n 1
  if bits < infinityBits then some (Float.ofBits bits.toUInt64) else none

/-- The double nearest to `± num / den`, infinite where the fraction is too large. -/
def ofFraction (negative : Bool) (num den : Nat) : Float :=
  let bits := min (nearestBits num den) infinityBits
  Float.ofBits ((if negative then Nat.pow 2 63 else 0) + bits).toUInt64

end Binary64

end Abacus
