import Tagline.Schema

/-!
# Records

What a tag line says: a database, a type, parameters, free text, and the place
where the line ends, which is where the cursor is taken to be.  A value outside a
closed list is kept and gives a **warning** beside the record.
-/

namespace Tagline

/-- The part of a line in which the cursor stands, with what is typed of it. -/
inductive Location where
  /-- The name of the database. -/
  | database (typed : Text)
  /-- The value after the slash. -/
  | type (typed : Text)
  /-- A parameter. -/
  | parameter (name typed : Text)
deriving DecidableEq

/-- What is typed of the part in which the cursor stands. -/
def Location.typed : Location → Text
  | .database typed => typed
  | .type typed => typed
  | .parameter _ typed => typed

/-- The value of a parameter. -/
inductive Value where
  /-- One value. -/
  | single (t : Text)
  /-- The values of a field that may have several. -/
  | multi (ts : List Text)
deriving DecidableEq

namespace Value

/-- The single values in order. -/
def texts : Value → List Text
  | .single t => [t]
  | .multi ts => ts

/-- Whether nothing but empty values is there. -/
def isEmpty (v : Value) : Bool :=
  v.texts.all List.isEmpty

end Value

/-- A parameter with its value. -/
structure Parameter where
  name : Text
  value : Value
deriving DecidableEq

/-- What a tag line says. -/
structure Record where
  /-- The database as it is declared, or the daily entry. -/
  database : Text
  /-- The type, in its declared or its normal spelling. -/
  typeValue : Option Text := none
  /-- The parameters that have a value, in the order of the line. -/
  params : List Parameter := []
  /-- Entries of the free text. -/
  description : List Text := []
  /-- Where the line ends. -/
  location : Option Location := none
  /-- Whether the line is a daily entry, which has no fields. -/
  daily : Bool := false
deriving DecidableEq

namespace Record

/-- The value of a parameter, ignoring the case of its name. -/
def param? (r : Record) (name : Text) : Option Value :=
  (r.params.find? fun p => Text.alike p.name name).map (·.value)

/-- All values of a field, be it the type field, a parameter or the free text. -/
def valuesOf (r : Record) (field typeField : Text) : List Text :=
  if Text.alike field typeField then r.typeValue.toList
  else
    match r.param? field with
    | some v => v.texts
    | none => if Text.alike field descriptionField then r.description else []

end Record

/-- What a warning is about. -/
inductive WarningKind where
  /-- The type is not in its list. -/
  | unknownType
  /-- The value of a parameter is not in its list. -/
  | valueNotAllowed
deriving DecidableEq

/-- A value outside the closed list of its field. -/
structure Warning where
  kind : WarningKind
  database : Text
  field : Text
  /-- The value as the record keeps it. -/
  value : Text
  /-- The list it is not in. -/
  allowed : List Text
deriving DecidableEq

namespace Warning

/-- The word for what is not allowed. -/
def subject (w : Warning) : Text :=
  match w.kind with
  | .unknownType => "type"
  | .valueNotAllowed => "value"

/-- The wording of a warning. -/
def message (w : Warning) : Text :=
  w.database ++ ": '" ++ w.value ++ "' is not an allowed " ++ w.subject ++ " for " ++ w.field
    ++ " (expected one of: " ++ List.intercalate ", ".toList w.allowed ++ ")"

end Warning

/-- A record with the warnings that came up while it was read. -/
structure Outcome where
  record : Record
  warnings : List Warning := []
deriving DecidableEq

/-- Whether nothing was flagged. -/
def Outcome.isClean (o : Outcome) : Bool :=
  o.warnings.isEmpty

/-- Why a line gives no record. -/
inductive LineError where
  /-- The line has no tag prefix. -/
  | notTagLine
  /-- Nothing follows the prefix. -/
  | empty
  /-- No database has this name. -/
  | unknownDatabase (name : Text)
  /-- More segments than the database has parameters. -/
  | tooManyParameters (database : Text) (expected found : Nat)
deriving DecidableEq

namespace LineError

/-- The wording of a cause. -/
def message : LineError → Text
  | .notTagLine => "line does not start with a tag prefix"
  | .empty => "tag line is empty"
  | .unknownDatabase name => "unknown database: " ++ name
  | .tooManyParameters database expected found =>
      "database '" ++ database ++ "' takes " ++ Text.ofNat expected ++ " parameters, found "
        ++ Text.ofNat found

end LineError

end Tagline
