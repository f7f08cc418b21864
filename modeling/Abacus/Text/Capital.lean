/-!
# Capital letters

Names of modes and levels are compared in capital letters. All these names consist of ASCII letters,
so a character matters only if its capital form does: beside the ASCII letters these are the dotless i,
the long s, the sharp s and the Latin ligatures, whose capital form is one to three ASCII letters.
-/

namespace Abacus.Text

/-- The capital form of a character, where it consists of ASCII letters; any other character is left
as it is. -/
def capitalChar (c : Char) : List Char :=
  if c.isLower then [c.toUpper]
  else
    match c.toNat with
    | 0x00DF => ['S', 'S']
    | 0x0131 => ['I']
    | 0x017F => ['S']
    | 0xFB00 => ['F', 'F']
    | 0xFB01 => ['F', 'I']
    | 0xFB02 => ['F', 'L']
    | 0xFB03 => ['F', 'F', 'I']
    | 0xFB04 => ['F', 'F', 'L']
    | 0xFB05 => ['S', 'T']
    | 0xFB06 => ['S', 'T']
    | _ => [c]

/-- The text in capital letters. -/
def capital (text : String) : String :=
  String.ofList (text.toList.flatMap capitalChar)

/-- The text in small letters, for names of ASCII letters. -/
def small (text : String) : String :=
  text.map Char.toLower

end Abacus.Text
