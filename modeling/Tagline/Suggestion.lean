import Tagline.History.Document
import Tagline.Parse

/-!
# Suggestions

What can be put where the cursor stands: names of databases, declared values,
and values from the history.  Declared values come first, then what the history
adds to them; of values that are alike only the first is offered.  A candidate
is offered when it begins with the text typed so far, ignoring case.
-/

namespace Tagline

/-- Where a suggestion comes from. -/
inductive Origin where
  /-- The name of a database. -/
  | database
  /-- A declared value. -/
  | fixed
  /-- A remembered value. -/
  | history
deriving DecidableEq

namespace Origin

/-- The mark in front of a suggestion in a menu. -/
def icon : Origin → Text
  | .database => "#"
  | .fixed => "*"
  | .history => "~"

/-- The word for an origin. -/
def word : Origin → Text
  | .database => "database"
  | .fixed => "fixed"
  | .history => "history"

end Origin

/-- A part of a line, by the byte offsets of its ends. -/
structure Span where
  start : Nat
  stop : Nat
deriving DecidableEq

/-- A text that can be put where the cursor stands. -/
structure Suggestion where
  /-- The text in the menu. -/
  display : Text
  /-- The text that is put on the line. -/
  replacement : Text
  /-- The part of the line that it replaces, once it is placed on one. -/
  span : Option Span := none
  /-- The mark in the menu. -/
  icon : Option Text
  origin : Origin
deriving DecidableEq

namespace Suggestion

/-- Every suggestion names this provider. -/
def provider : Text := "pojo"

/-- The suggestion of a value. -/
def ofValue (origin : Origin) (value : Text) : Suggestion where
  display := value
  replacement := value
  icon := some origin.icon
  origin := origin

/-- Places a suggestion on a line. -/
def place (s : Suggestion) (start stop : Nat) : Suggestion :=
  { s with span := some { start, stop } }

end Suggestion

/-- Whether a candidate begins with what is typed, ignoring case. -/
def matchesTyped (typed candidate : Text) : Bool :=
  (Text.lower typed).isPrefixOf (Text.lower candidate)

/-- The candidates that begin with what is typed, ignoring case. -/
def filterCandidates (candidates : List Text) (typed : Text) : List Text :=
  candidates.filter (matchesTyped typed)

/-- Of values that are alike keeps the first, whatever its mark; `seen` are the
lower-cased values before. -/
def firstOfEach (seen : List Text) : List (Origin × Text) → List (Origin × Text)
  | [] => []
  | (origin, value) :: rest =>
      if seen.contains (Text.lower value) then firstOfEach seen rest
      else (origin, value) :: firstOfEach (Text.lower value :: seen) rest

/-- The values offered for what is typed: declared ones, then remembered ones. -/
def offered (declared remembered : List Text) (typed : Text) : List Suggestion :=
  let marked := declared.map (Origin.fixed, ·) ++ remembered.map (Origin.history, ·)
  ((firstOfEach [] marked).filter fun (_, value) => matchesTyped typed value).map
    fun (origin, value) => Suggestion.ofValue origin value

/-- The value being typed in a field that may have several: what follows the
last separator, without the blanks in front. -/
def currentPiece (typed : Text) (separator : Option Text) : Text :=
  Text.trimStart <|
    match separator with
    | some sep => (Text.afterLast? sep typed).getD typed
    | none => typed

namespace Registry

/-- The databases whose names begin with what is typed. -/
def suggestDatabases (r : Registry) (typed : Text) : List Suggestion :=
  (filterCandidates r.names (Text.trimStart typed)).map (Suggestion.ofValue .database)

end Registry

/-- The values that a field offers for a type. -/
def Field.suggest (f : Field) (d : Database) (history : Document) (type : Option Text)
    (typed : Text) : List Suggestion :=
  let remembered :=
    match f.historyKey d.typeField.name type with
    | some key => history.values d.name key
    | none => []
  offered (f.allowedValues type) remembered typed

namespace Registry

/-- The suggestions for the place where a record ends.  There are none for a
daily entry, for a record without a place, and for an unknown database. -/
def suggest (r : Registry) (history : Document) (record : Record) : Option (List Suggestion) :=
  if record.daily then none
  else
    match record.location with
    | none => none
    | some (.database typed) => some (r.suggestDatabases typed)
    | some (.type typed) =>
        (r.database? record.database).map fun d =>
          d.typeField.suggest d history none (Text.trimStart typed)
    | some (.parameter name typed) =>
        (r.database? record.database).map fun d =>
          match d.field? name with
          | some f => f.suggest d history record.typeValue (currentPiece typed f.multi)
          | none => []

/-- The text with which the suggestions for a record begin. -/
def matchText (r : Registry) (record : Record) : Option Text :=
  record.location.map fun
    | .parameter name typed =>
        currentPiece typed
          (((r.database? record.database).bind fun d => d.field? name).bind (·.multi))
    | location => Text.trimStart location.typed

/-- The shape of the entry that a record belongs to, such as
`Exercise/Run Duration; Description`.  A missing type shows as the name of the
type field in angle brackets. -/
def hint (r : Registry) (record : Record) : Option Text :=
  if record.daily then none
  else
    (r.database? record.database).map fun d =>
      let type := record.typeValue.getD ('<' :: d.typeField.name ++ ['>'])
      let head := d.name ++ '/' :: type
      if d.params.isEmpty then head
      else head ++ ' ' :: List.intercalate (r.splitSeparator ++ [' ']) d.paramNames

end Registry

end Tagline
