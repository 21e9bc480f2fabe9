import Tagline.Record
import Tagline.Registry
import Tagline.Text.Normal

/-!
# Reading a tag line

A line without its prefix is a daily entry or has the form

    line    :  daily | head [blanks segments]
    head    :  database ["/" type]
    segments:  segment (separator segment)*

The segments belong to the parameters in order.  A blank segment leaves its
parameter without a value.  The last segment is where the cursor is.

A value of a fixed field takes the declared spelling; any other value takes its
normal spelling, and if the field's list is not empty, a warning says that the
value is not in it.
-/

namespace Tagline

/-- A value as the record keeps it, with the warning it gives. -/
structure Checked where
  value : Text
  warning : Option Warning := none

/-- Brings a typed value to the spelling that the record keeps. -/
def Field.check (f : Field) (database : Text) (kind : WarningKind) (type : Option Text)
    (raw : Text) : Checked :=
  let allowed := f.allowedValues type
  if !f.isFixed || allowed.isEmpty then { value := Text.normalize raw }
  else
    match f.canonical raw type with
    | some a => { value := a }
    | none =>
        let value := Text.normalize raw
        { value, warning := some { kind, database, field := f.name, value, allowed } }

/-- What one segment adds to a record. -/
structure Reading where
  parameter : Option Parameter := none
  description : Option Text := none
  warnings : List Warning := []

/-- The pieces of a segment that are not blank, trimmed. -/
def valuePieces (separator segment : Text) : List Text :=
  ((Text.pieces separator segment).map Text.trim).filter fun p => !p.isEmpty

/-- Reads the segment of a parameter. -/
def Field.readSegment (f : Field) (database : Text) (type : Option Text) (segment : Text) :
    Reading :=
  let text := Text.trim segment
  if text.isEmpty then {}
  else if Text.alike f.name descriptionField then { description := some text }
  else
    let check := f.check database .valueNotAllowed type
    let (value, warnings) :=
      match f.multi with
      | some separator =>
          let checked := (valuePieces separator text).map check
          (Value.multi (checked.map Checked.value), checked.filterMap Checked.warning)
      | none =>
          let checked := check text
          (Value.single checked.value, checked.warning.toList)
    { parameter := if value.isEmpty then none else some { name := f.name, value }
      warnings }

namespace Database

/-- Where a line without segments ends. -/
def headLocation (d : Database) (head : Text) (type : Option Text) (trailing : Bool) :
    Option Location :=
  match type with
  | none => some (.database head)
  | some typed =>
      if trailing then d.params.head?.map fun p => .parameter p.name []
      else some (.type typed)

/-- Reads the segments of a line whose type is known. -/
def readSegments (d : Database) (separator : Text) (type : Option Text) (rest : Text) :
    Except LineError Outcome :=
  let segments := Text.pieces separator rest
  if d.params.length < segments.length then
    .error (.tooManyParameters d.name d.params.length segments.length)
  else
    let pairs := d.params.zip segments
    let readings := pairs.map fun (p, segment) => p.readSegment d.name type segment
    .ok
      { record :=
          { database := d.name
            typeValue := type
            params := readings.filterMap (·.parameter)
            description := readings.filterMap (·.description)
            location := pairs.getLast?.map fun (p, segment) => .parameter p.name segment }
        warnings := readings.flatMap (·.warnings) }

/-- Reads a head and the segments after it, if there are any. -/
def readLine (d : Database) (separator head : Text) (typeRaw rest : Option Text)
    (trailing : Bool) : Except LineError Outcome :=
  let checked :=
    ((typeRaw.map Text.trim).filter fun t => !t.isEmpty).map
      (d.typeField.check d.name .unknownType none)
  let type := checked.map (·.value)
  let typeWarnings := (checked.bind (·.warning)).toList
  match rest with
  | none =>
      .ok
        { record :=
            { database := d.name
              typeValue := type
              location := d.headLocation head typeRaw trailing }
          warnings := typeWarnings }
  | some rest =>
      (d.readSegments separator type rest).map fun o =>
        { o with warnings := typeWarnings ++ o.warnings }

end Database

/-- The head of a line and what follows the blanks after it. -/
def splitHead (line : Text) : Text × Option Text :=
  let head := line.takeWhile fun c => !Text.isBlank c
  match line.dropWhile fun c => !Text.isBlank c with
  | [] => (head, none)
  | rest => (head, some (Text.trimStart rest))

/-- The name in front of the slash of a head, and the type after it. -/
def splitType (head : Text) : Text × Option Text :=
  match Text.cutAt '/' head with
  | some (database, type) => (database, some type)
  | none => (head, none)

/-- Reads a line whose tag prefix is stripped. -/
def Registry.parse (r : Registry) (line : Text) : Except LineError Outcome :=
  let upToEnd := Text.trimEnd line
  let trailing := upToEnd.length < line.length
  let trimmed := Text.trimStart upToEnd
  if trimmed.isEmpty then .error .empty
  else
    match r.dailyEntry? trimmed with
    | some entry => .ok { record := { database := entry, daily := true } }
    | none =>
        let (head, rest) := splitHead trimmed
        let (name, typeRaw) := splitType head
        match r.database? name with
        | none => .error (.unknownDatabase name)
        | some d => d.readLine r.splitSeparator head typeRaw rest trailing

/-- The part of a database's name that a line consists of, if it is still inside
the name.  The name need not be known, so it can be completed while it is typed. -/
def databasePrefix? (line : Text) : Option Text :=
  let head := Text.trim line
  if head.any fun c => Text.isBlank c || c == '/' then none else some head

end Tagline
