import Tagline.Text.Basic

/-!
# Why settings are refused

The causes for which a settings document gives no registry, and their wording.
-/

namespace Tagline

/-- Why settings are refused. -/
inductive SettingsError where
  /-- The settings file cannot be read. -/
  | unreadable (path : Text)
  /-- The text is no settings document. -/
  | malformed
  /-- The separator between parameters is empty. -/
  | emptySeparator
  /-- The definition at this place has a blank name. -/
  | emptyDatabaseName (index : Nat)
  /-- A name that could not stand in front of the slash of a tag line. -/
  | invalidDatabaseName (name : Text)
  /-- A second definition of a name, ignoring case. -/
  | duplicateDatabase (name : Text)
  /-- The type field of a database is blank. -/
  | emptyTypeField (database : Text)
  /-- A parameter has the name of the type field or of an earlier parameter. -/
  | duplicateParameter (database parameter : Text)
  /-- The separator between the values of a field is empty. -/
  | emptyMultiSeparator (database field : Text)
deriving DecidableEq

namespace SettingsError

/-- The wording of a cause. -/
def message : SettingsError → Text
  | .unreadable path => "failed to read settings from " ++ path
  | .malformed => "invalid settings document"
  | .emptySeparator => "split separator must not be empty"
  | .emptyDatabaseName index =>
      "database definition #" ++ Text.ofNat index ++ " has an empty name"
  | .invalidDatabaseName name =>
      "database name '" ++ name ++ "' must not contain '/' or whitespace"
  | .duplicateDatabase name => "database '" ++ name ++ "' is defined more than once"
  | .emptyTypeField database => "database '" ++ database ++ "' has an empty type field"
  | .duplicateParameter database parameter =>
      "parameter '" ++ parameter ++ "' is listed twice in database '" ++ database ++ "'"
  | .emptyMultiSeparator database field =>
      "field '" ++ field ++ "' of database '" ++ database
        ++ "' has an empty multi-value separator"

end SettingsError

end Tagline
