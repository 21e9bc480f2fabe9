import Tagline.Schema

/-!
# The registry of databases

A registry is what accepted settings give: the databases, the separator between
parameters and the lines that are daily entries.  Names are looked up ignoring
case, daily entries exactly.
-/

namespace Tagline

/-- The databases and the rules for lines. -/
structure Registry where
  /-- The separator between parameters. -/
  splitSeparator : Text := defaultSeparator
  /-- Lines that are daily entries, trimmed and not empty. -/
  dailyEntries : List Text := []
  /-- The databases, in the order of the settings. -/
  databases : List Database := []

namespace Registry

/-- Checks the definitions one after another, from the place `index` on; `seen`
are the databases before it. -/
def collect (seen : List Database) (index : Nat) :
    List DatabaseSettings → Except SettingsError (List Database)
  | [] => .ok seen
  | d :: ds =>
      match Database.ofSettings index d with
      | .error e => .error e
      | .ok database =>
          if seen.any fun s => Text.alike s.name database.name then
            .error (.duplicateDatabase database.name)
          else collect (seen ++ [database]) (index + 1) ds

/-- The registry of settings, unless they have a fault. -/
def ofSettings (s : Settings) : Except SettingsError Registry :=
  if s.splitSeparator.isEmpty then .error .emptySeparator
  else
    match collect [] 0 s.databases with
    | .error e => .error e
    | .ok databases =>
        .ok
          { splitSeparator := s.splitSeparator
            dailyEntries := (s.dailyEntries.map Text.trim).filter fun e => !e.isEmpty
            databases }

/-- The names of the databases. -/
def names (r : Registry) : List Text :=
  r.databases.map (·.name)

/-- The database of a name, ignoring case and blanks around it. -/
def database? (r : Registry) (name : Text) : Option Database :=
  r.databases.find? fun d => Text.alike d.name (Text.trim name)

/-- The daily entry that a line is, if it is one. -/
def dailyEntry? (r : Registry) (line : Text) : Option Text :=
  r.dailyEntries.find? fun e => e == line

end Registry

end Tagline
