import Tagline.Text.Basic

/-!
# Decimal numerals

A **numeral** is a sign or none, digits with at most one point among them and at
least one digit, and an exponent or none: `42`, `-3.5`, `.5`, `5.`, `1e3`,
`2.5E-7`.  All digits are ASCII.  Such a text is kept as it is typed.
-/

namespace Tagline

namespace Text

/-- An ASCII digit. -/
def isDigit (c : Char) : Bool :=
  '0' ≤ c && c ≤ '9'

/-- Drops one plus or minus sign at the start. -/
def dropSign : Text → Text
  | '+' :: t => t
  | '-' :: t => t
  | t => t

/-- Nothing, or an exponent: `e` or `E`, a sign or none, and digits. -/
def isExponent : Text → Bool
  | [] => true
  | c :: t => (c == 'e' || c == 'E') && !(dropSign t).isEmpty && (dropSign t).all isDigit

/-- The digits after the point, and what follows them; no digits if there is no
point. -/
def fraction : Text → Text × Text
  | '.' :: t => (t.takeWhile isDigit, t.dropWhile isDigit)
  | t => ([], t)

/-- Whether a text is a decimal numeral. -/
def isNumeral (t : Text) : Bool :=
  let body := dropSign t
  let whole := body.takeWhile isDigit
  let (part, rest) := fraction (body.dropWhile isDigit)
  (!whole.isEmpty || !part.isEmpty) && isExponent rest

end Text

end Tagline
