import Tagline.Text.Blank

/-!
# JSON values

The tree of a JSON text.  Members keep their order and their repeats, since
what a repeated name means depends on what is read: a field given twice is an
error, and a name given twice in a map counts as given last.

A string in which an escape leaves half of a surrogate pair over is well-formed
JSON but denotes no text.  Such a string, and an object with such a name, is
`garbled`: it may stand where nobody looks, and nothing can be read from it.
-/

namespace Tagline

/-- A JSON value. -/
inductive Json where
  /-- The literal `null`. -/
  | null
  /-- The literals `true` and `false`. -/
  | bool (b : Bool)
  /-- A number, kept as it is written. -/
  | number (numeral : Text)
  /-- A string. -/
  | string (t : Text)
  /-- An array. -/
  | array (items : List Json)
  /-- An object, with its members as they are written. -/
  | object (members : List (Text × Json))
  /-- A well-formed value that denotes nothing. -/
  | garbled

namespace Json

/-- The number `n`. -/
def ofNat (n : Nat) : Json :=
  .number (Text.ofNat n)

/-- An array of strings. -/
def ofTexts (ts : List Text) : Json :=
  .array (ts.map .string)

/-- A member that is written only where it has a value. -/
def memberIf (name : Text) : Option Json → List (Text × Json)
  | none => []
  | some j => [(name, j)]

end Json

end Tagline
