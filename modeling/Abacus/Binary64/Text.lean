import Abacus.Binary64.Shortest

/-!
# Doubles as text

A double is written with the digits of its shortest decimal. `NumberStyle` holds the decisions of the
format, and `plainStyle` the values that all results of this calculator are written with.
-/

namespace Abacus

namespace Binary64

/-- The decisions of a number format. The decimal point is fixed while the exponent of the first digit
is at least `fixedFrom` and less than `fixedBelow`; outside, the exponent is written out. -/
structure NumberStyle where
  fixedFrom : Int
  fixedBelow : Int
  /-- What follows the digits of a whole number in fixed notation. -/
  wholeEnd : String
  /-- What stands between the digits and a positive exponent. -/
  positiveMark : String
  /-- What stands between the digits and a negative exponent. -/
  negativeMark : String
  /-- The least number of digits of an exponent. -/
  exponentWidth : Nat
  infinityText : String
  nanText : String

/-- The notation is fixed from 0.0001 to below 10^16, a whole number ends in `.0`, and an exponent has a sign
and two digits at least. -/
def plainStyle : NumberStyle where
  fixedFrom := -4
  fixedBelow := 16
  wholeEnd := ".0"
  positiveMark := "e+"
  negativeMark := "e-"
  exponentWidth := 2
  infinityText := "inf"
  nanText := "nan"

/-- A row of zeros. -/
def zeros (n : Nat) : List Char :=
  List.replicate n '0'

/-- Digits in fixed notation; `point` digits stand before the decimal point, and a negative `point`
counts the zeros right after it. -/
def NumberStyle.fixed (style : NumberStyle) (digits : List Char) (point : Int) : String :=
  if point ≤ 0 then String.ofList ('0' :: '.' :: zeros (-point).toNat ++ digits)
  else
    let n := point.toNat
    if digits.length ≤ n then String.ofList (digits ++ zeros (n - digits.length)) ++ style.wholeEnd
    else String.ofList (digits.take n ++ '.' :: digits.drop n)

/-- Digits with one of them before the decimal point, and the exponent of that digit. -/
def NumberStyle.scientific (style : NumberStyle) (digits : List Char) (exponent : Int) : String :=
  let fraction := if digits.length ≤ 1 then [] else '.' :: digits.drop 1
  let power := Nat.toDigits 10 exponent.natAbs
  String.ofList (digits.take 1 ++ fraction) ++
    (if exponent < 0 then style.negativeMark else style.positiveMark) ++
    String.ofList (zeros (style.exponentWidth - power.length) ++ power)

/-- The text of a decimal. -/
def NumberStyle.decimal (style : NumberStyle) (d : Decimal) : String :=
  let digits := Nat.toDigits 10 d.digits
  let exponent := d.exponent + digits.length - 1
  if style.fixedFrom ≤ exponent && exponent < style.fixedBelow then style.fixed digits (exponent + 1)
  else style.scientific digits exponent

/-- The text of a double. -/
def NumberStyle.text (style : NumberStyle) : Binary64 → String
  | .nan => style.nanText
  | .infinite negative => (if negative then "-" else "") ++ style.infinityText
  | .finite negative m e =>
    (if negative then "-" else "") ++
      if m = 0 then "0" ++ style.wholeEnd else style.decimal (shortest m e)

end Binary64

/-- The text of a float in the plain style. -/
def floatText (x : Float) : String :=
  Binary64.plainStyle.text (.ofFloat x)

end Abacus
