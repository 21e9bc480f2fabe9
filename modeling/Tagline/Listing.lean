import Tagline.Scan
import Tagline.Table

/-!
# Listings

What the program shows of records, suggestions, scans and the history: as a
table for people, or as JSON for other programs.  In JSON the fields of a record
have a fixed order, absent parts are left out, and the history ascends by name.
-/

namespace Tagline

/-- How a listing is written. -/
inductive Format where
  | table
  | json
deriving DecidableEq

namespace Format

/-- The word for a format. -/
def word : Format → Text
  | .table => "table"
  | .json => "json"

/-- The format that a word names, ignoring case. -/
def ofWord? (w : Text) : Option Format :=
  if Text.lower w = word .table then some .table
  else if Text.lower w = word .json then some .json
  else none

/-- What is said about a word that names no format. -/
def unknown (w : Text) : Text :=
  "Unknown format '" ++ Text.lower w ++ "'. Valid formats: table, json"

end Format

/-- The JSON form of a place on a line. -/
def Location.toJson : Location → Json
  | .database typed => .object [("kind", .string "database"), ("partial", .string typed)]
  | .type typed => .object [("kind", .string "type"), ("partial", .string typed)]
  | .parameter name typed =>
      .object
        [("kind", .string "parameter"), ("name", .string name), ("partial", .string typed)]

/-- The JSON form of a value. -/
def Value.toJson : Value → Json
  | .single t => .string t
  | .multi ts => Json.ofTexts ts

/-- The JSON form of a parameter. -/
def Parameter.toJson (p : Parameter) : Json :=
  .object [("name", .string p.name), ("value", p.value.toJson)]

/-- The JSON form of a record. -/
def Record.toJson (r : Record) : Json :=
  .object
    (("database", .string r.database) ::
      (Json.memberIf "type_value" (r.typeValue.map .string)
      ++ Json.memberIf "params"
        (if r.params.isEmpty then none else some (.array (r.params.map Parameter.toJson)))
      ++ Json.memberIf "description"
        (if r.description.isEmpty then none else some (Json.ofTexts r.description))
      ++ Json.memberIf "location" (r.location.map Location.toJson)
      ++ Json.memberIf "daily_entry" (if r.daily then some (.bool true) else none)))

/-- The word for what a warning is about. -/
def WarningKind.word : WarningKind → Text
  | .unknownType => "unknown-type"
  | .valueNotAllowed => "value-not-allowed"

/-- The JSON form of a warning. -/
def Warning.toJson (w : Warning) : Json :=
  .object
    [ ("kind", .string w.kind.word),
      ("database", .string w.database),
      ("field", .string w.field),
      ("value", .string w.value),
      ("allowed", Json.ofTexts w.allowed) ]

/-- The JSON form of a record with its warnings. -/
def Outcome.toJson (o : Outcome) : Json :=
  .object
    [("record", o.record.toJson), ("warnings", .array (o.warnings.map Warning.toJson))]

/-- The JSON form of a part of a line. -/
def Span.toJson (s : Span) : Json :=
  .object [("start", Json.ofNat s.start), ("end", Json.ofNat s.stop)]

/-- The JSON form of a suggestion. -/
def Suggestion.toJson (s : Suggestion) : Json :=
  .object
    (("display", .string s.display) :: ("replacement", .string s.replacement) ::
      (Json.memberIf "replace_span" (s.span.map Span.toJson)
        ++ Json.memberIf "icon" (some ((s.icon.map Json.string).getD .null))
        ++ Json.memberIf "source" (some (.string s.origin.word))
        ++ Json.memberIf "provider" (some (.string provider))))

/-- The JSON form of the totals of a scan. -/
def ScanReport.toJson (r : ScanReport) : Json :=
  .object
    [ ("files_scanned", Json.ofNat r.filesScanned),
      ("files_failed", Json.ofNat r.filesFailed),
      ("lines_parsed", Json.ofNat r.linesParsed),
      ("values_added", Json.ofNat r.valuesAdded) ]

/-- Several values in one cell. -/
def inOneCell (ts : List Text) : Text :=
  List.intercalate ", ".toList ts

/-- A row of a table of fields. -/
def fieldRow (name value : Text) : List Text :=
  [name, value]

/-- A table of fields and their values. -/
def fieldTable (rows : List (List Text)) : Text :=
  Table.print { header := ["Field", "Value"], rows }

/-- A record with its warnings. -/
def Outcome.list (o : Outcome) : Format → Text
  | .json => o.toJson.print
  | .table =>
      fieldTable
        (fieldRow "Database" o.record.database ::
          ((if o.record.daily then [fieldRow "Daily entry" "yes"] else [])
            ++ o.record.typeValue.toList.map (fieldRow "Type")
            ++ (o.record.params.map fun p => fieldRow p.name (inOneCell p.value.texts))
            ++ o.record.description.map (fieldRow "Description")
            ++ o.warnings.map fun w => fieldRow "Warning" w.message))

/-- The cell for the part of a line that a suggestion replaces. -/
def Span.cell (s : Span) : Text :=
  Text.ofNat s.start ++ ".." ++ Text.ofNat s.stop

/-- Several suggestions. -/
def listSuggestions (suggestions : List Suggestion) : Format → Text
  | .json => (Json.array (suggestions.map Suggestion.toJson)).print
  | .table =>
      if suggestions.isEmpty then "(no suggestions)"
      else
        Table.print
          { header := ["", "Suggestion", "Source", "Replaces"]
            rows := suggestions.map fun s =>
              [s.icon.getD [], s.display, s.origin.word, (s.span.map Span.cell).getD []] }

/-- The totals of a scan. -/
def ScanReport.list (r : ScanReport) : Format → Text
  | .json => r.toJson.print
  | .table =>
      fieldTable
        [ ["Files scanned", Text.ofNat r.filesScanned],
          ["Files failed", Text.ofNat r.filesFailed],
          ["Tag lines", Text.ofNat r.linesParsed],
          ["Values added", Text.ofNat r.valuesAdded] ]

/-- Whether a name passes a filter, ignoring case; an absent filter passes
every name. -/
def passes (filter : Option Text) (name : Text) : Bool :=
  match filter with
  | some wanted => Text.alike wanted name
  | none => true

namespace Document

/-- The buckets whose database and key pass the filters, one after another, each with its
database and key.  The names are listed first, and every bucket is looked up under them. -/
def rows (d : Document) (database key : Option Text) : List (Text × Text × List Text) :=
  (d.names.filter (passes database)).flatMap fun name =>
    ((d.keys name).filter (passes key)).filterMap fun k =>
      (d.bucket? name k).map fun list => (name, k, list)

/-- Puts a row under exactly its names. -/
def withRow (d : Document) (row : Text × Text × List Text) : Document :=
  let (name, key, list) := row
  let buckets := (d.databases.get? name).getD SortedMap.empty
  ⟨d.databases.insert name (buckets.insert key list)⟩

/-- The rows as they are written in JSON, by database and key again. -/
def ofRows (rows : List (Text × Text × List Text)) : Document :=
  rows.foldl withRow empty

/-- The history, or the part of it that passes the filters. -/
def list (d : Document) (database key : Option Text) (format : Format) : Text :=
  let rows := d.rows database key
  match format with
  | .json => (ofRows rows).print
  | .table =>
      if rows.isEmpty then "(no history)"
      else
        Table.print
            { header := ["Database", "Key", "Values"]
              rows := rows.map fun (name, k, values) => [name, k, inOneCell values] }
          ++ "\n(" ++ Text.ofNat rows.length ++ (if rows.length = 1 then " key)" else " keys)")

end Document

end Tagline
