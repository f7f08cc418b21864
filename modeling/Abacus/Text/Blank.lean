/-!
# Blanks and words

A text is cut into words at its blanks. The blank characters are the white space of Unicode together
with the four information separators U+001C to U+001F; zero-width characters such as U+200B and the
byte order mark U+FEFF are not blank.

* `words` cuts a text into its maximal runs of non-blank characters.
* `trim` removes the blanks at both ends.
* `terminated` writes tokens one after the other, each followed by one space.
-/

namespace Abacus.Text

/-- The characters that separate words. -/
def isBlank (c : Char) : Bool :=
  let n := c.toNat
  (0x09 ≤ n && n ≤ 0x0D) || (0x1C ≤ n && n ≤ 0x20) || n == 0x85 || n == 0xA0 || n == 0x1680 ||
    (0x2000 ≤ n && n ≤ 0x200A) || n == 0x2028 || n == 0x2029 || n == 0x202F || n == 0x205F ||
    n == 0x3000

/-- The words of a text whose current word so far, newest character first, is `word`. -/
def wordsFrom (word : List Char) : List Char → List (List Char)
  | [] => if word.isEmpty then [] else [word.reverse]
  | c :: rest =>
    if isBlank c then
      if word.isEmpty then wordsFrom [] rest else word.reverse :: wordsFrom [] rest
    else
      wordsFrom (c :: word) rest

/-- The maximal runs of non-blank characters, in order (`tokenize`). -/
def words (text : String) : List String :=
  (wordsFrom [] text.toList).map String.ofList

/-- The text without the blanks at its two ends. -/
def trim (text : String) : String :=
  String.ofList ((text.toList.dropWhile isBlank).reverse.dropWhile isBlank).reverse

/-- All tokens in order, each followed by one space (`_join`). -/
def terminated (tokens : List String) : String :=
  String.join (tokens.map (· ++ " "))

/-- All tokens in order, with one space between neighbours. -/
def spaced (tokens : List String) : String :=
  " ".intercalate tokens

end Abacus.Text
