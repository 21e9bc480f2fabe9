import Tagline.Json.Decode
import Tagline.Json.Printer
import Tagline.Json.Reader
import Tagline.Settings

/-!
# Settings as JSON

The written form of settings and its reader.  The type field may be named
`type_field` or `type`; it is written with the first name.  Only the name of a
database is required.  An absent source, an absent separator and an empty map of
values are not written.
-/

namespace Tagline

namespace ValueSource

/-- The word for a source of values. -/
def word : ValueSource → Text
  | .fixed => "fixed"
  | .history => "history"
  | .historyByType => "history-type"

/-- The source that a word names. -/
def ofWord? (w : Text) : Option ValueSource :=
  if w = word .fixed then some .fixed
  else if w = word .history then some .history
  else if w = word .historyByType then some .historyByType
  else none

/-- A source is its word, or an object of that name with nothing in it. -/
def ofJson? : Json → Option ValueSource
  | .string w => ofWord? w
  | .object [(w, .null)] => ofWord? w
  | _ => none

end ValueSource

namespace FieldSettings

/-- The written form. -/
def toJson (f : FieldSettings) : Json :=
  let values := Json.object (f.values.entries.map fun e => (e.1, Json.ofTexts e.2))
  .object
    (Json.memberIf "allowed" (f.allowed.map fun source => .string source.word)
      ++ Json.memberIf "values" (if f.values.isEmpty then none else some values)
      ++ Json.memberIf "multi" (f.multi.map .string))

/-- Reads what `toJson` writes. -/
def ofJson? (j : Json) : Option FieldSettings := do
  match ← j.record? [["allowed"], ["values"], ["multi"]] with
  | [allowed, values, multi] =>
      let allowed ← Json.fieldOr none (Json.nullable? ValueSource.ofJson?) allowed
      let values ← Json.fieldOr SortedMap.empty (Json.mapOf? (Json.listOf? Json.text?)) values
      let multi ← Json.fieldOr none (Json.nullable? Json.text?) multi
      return { allowed, values, multi }
  | _ => none

end FieldSettings

namespace DatabaseSettings

/-- The written form. -/
def toJson (d : DatabaseSettings) : Json :=
  .object
    [ ("database", .string d.database),
      ("type_field", .string d.typeField),
      ("params", Json.ofTexts d.params),
      ("fields", .object (d.fields.entries.map fun e => (e.1, e.2.toJson))) ]

/-- Reads what `toJson` writes. -/
def ofJson? (j : Json) : Option DatabaseSettings := do
  match ← j.record? [["database"], ["type_field", "type"], ["params"], ["fields"]] with
  | [some database, typeField, params, fields] =>
      let database ← database.text?
      let typeField ← Json.fieldOr defaultTypeField Json.text? typeField
      let params ← Json.fieldOr [] (Json.listOf? Json.text?) params
      let fields ← Json.fieldOr SortedMap.empty (Json.mapOf? FieldSettings.ofJson?) fields
      return { database, typeField, params, fields }
  | _ => none

end DatabaseSettings

namespace Settings

/-- The written form. -/
def toJson (s : Settings) : Json :=
  .object
    [ ("split_separator", .string s.splitSeparator),
      ("daily_entries", Json.ofTexts s.dailyEntries),
      ("databases", .array (s.databases.map DatabaseSettings.toJson)) ]

/-- Reads what `toJson` writes. -/
def ofJson? (j : Json) : Option Settings := do
  match ← j.record? [["split_separator"], ["daily_entries"], ["databases"]] with
  | [separator, dailyEntries, databases] =>
      let splitSeparator ← Json.fieldOr defaultSeparator Json.text? separator
      let dailyEntries ← Json.fieldOr [] (Json.listOf? Json.text?) dailyEntries
      let databases ← Json.fieldOr [] (Json.listOf? DatabaseSettings.ofJson?) databases
      return { splitSeparator, dailyEntries, databases }
  | _ => none

/-- The text of a settings document. -/
def print (s : Settings) : Text :=
  s.toJson.print

/-- The settings that a text is a document of. -/
def read? (t : Text) : Option Settings :=
  (Json.read? t).bind ofJson?

end Settings

end Tagline
