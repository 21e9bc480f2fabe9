import Tagline.Json.Basic
import Tagline.SortedMap

/-!
# Reading values out of JSON

Small readers from which those of the documents are put together.  Each gives
`none` where the value has the wrong shape.

A **record** is written as an object of its fields, or as an array of them in
order of declaration.  Unknown names are passed over, a field may be left out,
and a field given twice is an error.
-/

namespace Tagline

namespace Json

variable {α : Type}

/-- A string. -/
def text? : Json → Option Text
  | .string t => some t
  | _ => none

/-- An array, every item read in the same way. -/
def listOf? (f : Json → Option α) : Json → Option (List α)
  | .array js => js.mapM f
  | _ => none

/-- A member, its value read by `f`. -/
def member? (f : Json → Option α) (m : Text × Json) : Option (Text × α) :=
  (f m.2).map fun v => (m.1, v)

/-- An object as a map, every value read in the same way.  Of several members
with one name the last counts, but all of them have to be readable. -/
def mapOf? (f : Json → Option α) : Json → Option (SortedMap α)
  | .object ms => (ms.mapM (member? f)).map SortedMap.ofList
  | _ => none

/-- `null`, or a value read by `f`. -/
def nullable? (f : Json → Option α) : Json → Option (Option α)
  | .null => some none
  | j => (f j).map some

/-- A field that may be left out. -/
def fieldOr (default : α) (f : Json → Option α) : Option Json → Option α
  | none => some default
  | some j => f j

/-- The value of a field that has the given names, if it is there once or not
at all. -/
def field? (names : List Text) (ms : List (Text × Json)) : Option (Option Json) :=
  match ms.filter fun m => names.contains m.1 with
  | [] => some none
  | [m] => some (some m.2)
  | _ => none

/-- The fields of a record in order of declaration, each under any of its names. -/
def record? (fields : List (List Text)) : Json → Option (List (Option Json))
  | .object ms => fields.mapM fun names => field? names ms
  | .array js =>
      if js.length ≤ fields.length then
        some (js.map some ++ List.replicate (fields.length - js.length) none)
      else none
  | _ => none

end Json

end Tagline
