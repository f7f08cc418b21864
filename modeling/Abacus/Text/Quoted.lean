import Abacus.Text.Printable

/-!
# Quoted texts

How a text is shown inside a message. It stands between single quotes, or between double quotes if it
holds a single quote and no double one. The quote in use and the backslash are escaped by a
backslash, tab, line feed and carriage return have a letter of their own, and every other character
that is not printable is written by its number in two, four or eight hexadecimal digits.
-/

namespace Abacus.Text

/-- The number in lower-case hexadecimal digits, with zeros in front up to `width`. -/
def hexadecimal (width n : Nat) : String :=
  let digits := Nat.toDigits 16 n
  String.ofList (List.replicate (width - digits.length) '0' ++ digits)

/-- A character that has no readable form, by its number. -/
def numbered (c : Char) : String :=
  let n := c.toNat
  if n < 0x100 then "\\x" ++ hexadecimal 2 n
  else if n < 0x10000 then "\\u" ++ hexadecimal 4 n
  else "\\U" ++ hexadecimal 8 n

/-- One character of a text that stands between two `quote` characters. -/
def quotedChar (quote c : Char) : String :=
  if c = quote || c = '\\' then String.ofList ['\\', c]
  else if c = '\t' then "\\t"
  else if c = '\n' then "\\n"
  else if c = '\r' then "\\r"
  else if isPrintable c then c.toString
  else numbered c

/-- The quote that a text is put between. -/
def quoteFor (text : List Char) : Char :=
  if text.contains '\'' && !text.contains '"' then '"' else '\''

/-- The text between quotes, with every character in readable form. -/
def quoted (text : String) : String :=
  let quote := quoteFor text.toList
  String.join (quote.toString :: text.toList.map (quotedChar quote)) ++ quote.toString

end Abacus.Text
