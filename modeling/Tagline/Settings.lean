import Tagline.SortedMap

/-!
# Settings

What a user declares: the separator between parameters, the lines that are
daily entries, and the databases with their type field, parameters and fields.
Nothing is checked here; `Registry.ofSettings` accepts or refuses settings.
-/

namespace Tagline

/-- Where the values of a field come from. -/
inductive ValueSource where
  /-- A closed list. -/
  | fixed
  /-- What was entered before, for every type. -/
  | history
  /-- What was entered before for the same type. -/
  | historyByType
deriving DecidableEq

/-- What is declared about one field. -/
structure FieldSettings where
  /-- The source of its values.  Without one the field is free, or fixed if it
  declares values. -/
  allowed : Option ValueSource := none
  /-- Declared values, under a type value or under `_ALL`. -/
  values : SortedMap (List Text) := SortedMap.empty
  /-- The separator between its values, if it may have several. -/
  multi : Option Text := none
deriving DecidableEq

/-- The name of the type field where none is given. -/
def defaultTypeField : Text := "Type"

/-- What is declared about one database. -/
structure DatabaseSettings where
  /-- Its name, the first word of its tag lines. -/
  database : Text
  /-- The name of the field after the slash. -/
  typeField : Text := defaultTypeField
  /-- Its parameters, in the order in which they are written on a line. -/
  params : List Text := []
  /-- What is declared about the type field and the parameters, by name. -/
  fields : SortedMap FieldSettings := SortedMap.empty
deriving DecidableEq

/-- The separator between parameters where none is given. -/
def defaultSeparator : Text := ";"

/-- A settings document. -/
structure Settings where
  /-- The separator between parameters. -/
  splitSeparator : Text := defaultSeparator
  /-- Lines that are daily entries. -/
  dailyEntries : List Text := []
  /-- The databases, in the order in which they are shown. -/
  databases : List DatabaseSettings := []
deriving DecidableEq

end Tagline
