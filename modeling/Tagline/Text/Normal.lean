import Tagline.Text.Blank
import Tagline.Text.Case
import Tagline.Text.Numeral

/-!
# The normal spelling of a value

Every typed value is brought to its **normal spelling** before it is stored or
compared, so `exercise-run`, `EXERCISE-RUN` and `Exercise-run` are one value.

* The value is trimmed.
* More than three words are free text, and a numeral is a number: both stay as
  they are.
* Otherwise the value is cut at commas, the parts into words and the words at
  hyphens.  Each segment is put in title case, and the cuts are closed again
  with a comma, one space and a hyphen.

A first character whose upper-case form is longer than one character is kept as
it is typed.
-/

namespace Tagline

namespace Text

/-- The most words that a value of the vocabulary has. -/
def vocabularyWords : Nat := 3

/-- The first character in upper case and the others in lower case. -/
def titleCase : Text → Text
  | [] => []
  | c :: t => upperChar c :: lower t

/-- A word with every hyphen segment in title case. -/
def titleWord (w : Text) : Text :=
  List.intercalate ['-'] ((pieces ['-'] w).map titleCase)

/-- The words of a comma part in title case, one space between them. -/
def titlePart (p : Text) : Text :=
  List.intercalate [' '] ((words p).map titleWord)

/-- Free text and numerals, which keep their spelling. -/
def isVerbatim (t : Text) : Bool :=
  vocabularyWords < (words t).length || isNumeral t

/-- The normal spelling of a value. -/
def normalize (raw : Text) : Text :=
  let value := trim raw
  if isVerbatim value then value
  else List.intercalate [','] ((pieces [','] value).map titlePart)

/-- The normal spellings of several values, without the empty ones. -/
def normalizeAll (raws : List Text) : List Text :=
  (raws.map normalize).filter fun value => !value.isEmpty

end Text

end Tagline
