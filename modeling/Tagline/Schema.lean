import Tagline.Settings
import Tagline.Settings.Error
import Tagline.Text.Blank

/-!
# Databases and their fields

A **database** is a checked definition: a name, the type field, and the
parameters in the order in which a line gives them.  Every field knows where its
values come from and under which key they are remembered.

`Database.ofSettings` checks one definition.  The first fault counts, in the
order name, type field, parameters, separators of the fields.
-/

namespace Tagline

/-- The key of the values that hold for every type. -/
def allTypesKey : Text := "_ALL"

/-- The parameter for free text, of which every entry is kept as it is typed. -/
def descriptionField : Text := "Description"

/-- Declared values, for every type or for one. -/
structure AllowedValues where
  /-- Values for every type without a list of its own. -/
  all : List Text
  /-- Lists of single types, in ascending order of the types' names. -/
  byType : List (Text × List Text)

namespace AllowedValues

/-- Sorts the declared lists by what they hold for. -/
def ofMap (values : SortedMap (List Text)) : AllowedValues where
  all := (values.get? allTypesKey).getD []
  byType := values.entries.filter fun e => e.1 != allTypesKey

/-- The values that hold for a type; its own list goes before the common one. -/
def forType (values : AllowedValues) (type : Option Text) : List Text :=
  match type.bind fun t => values.byType.find? fun e => Text.alike e.1 t with
  | some e => e.2
  | none => values.all

/-- Whether no value is declared for any type. -/
def isEmpty (values : AllowedValues) : Bool :=
  values.all.isEmpty && values.byType.all fun e => e.2.isEmpty

end AllowedValues

/-- Where the values of a field come from and how they are remembered. -/
inductive FieldPolicy where
  /-- Anything goes and nothing is remembered. -/
  | free
  /-- Values come from a closed list. -/
  | fixed (values : AllowedValues)
  /-- Values are remembered for all types together. -/
  | history (values : AllowedValues)
  /-- Values are remembered for each type on its own. -/
  | historyByType (values : AllowedValues)

namespace FieldPolicy

/-- The policy that a descriptor asks for. -/
def ofSettings (f : FieldSettings) : FieldPolicy :=
  let values := AllowedValues.ofMap f.values
  match f.allowed with
  | some .fixed => .fixed values
  | some .history => .history values
  | some .historyByType => .historyByType values
  | none => if values.isEmpty then .free else .fixed values

/-- The declared values, whatever the policy makes of them. -/
def values? : FieldPolicy → Option AllowedValues
  | .free => none
  | .fixed values => some values
  | .history values => some values
  | .historyByType values => some values

/-- Whether entered values are remembered. -/
def recordsHistory : FieldPolicy → Bool
  | .history _ => true
  | .historyByType _ => true
  | _ => false

end FieldPolicy

/-- One field of a database. -/
structure Field where
  /-- The name as it is declared. -/
  name : Text
  /-- Where its values come from. -/
  policy : FieldPolicy := .free
  /-- The separator between its values, if it may have several. -/
  multi : Option Text := none

namespace Field

/-- The values that are offered or enforced for a type. -/
def allowedValues (f : Field) (type : Option Text) : List Text :=
  match f.policy.values? with
  | some values => values.forType type
  | none => []

/-- Whether values outside the list are flagged. -/
def isFixed (f : Field) : Bool :=
  match f.policy with
  | .fixed _ => true
  | _ => false

/-- Whether the field may have several values. -/
def isMulti (f : Field) : Bool :=
  f.multi.isSome

/-- The declared spelling of a value, for a fixed field that declares it. -/
def canonical (f : Field) (value : Text) (type : Option Text) : Option Text :=
  if f.isFixed then (f.allowedValues type).find? fun a => Text.alike a (Text.trim value)
  else none

/-- The key under which the values of the field are remembered.  A field that
remembers by type puts the type and a hyphen in front of its name, and has no key
without a type; the type field itself always has its own name. -/
def historyKey (f : Field) (typeField : Text) (type : Option Text) : Option Text :=
  match f.policy with
  | .history _ => some f.name
  | .historyByType _ =>
      if Text.alike f.name typeField then some f.name
      else
        match type with
        | some t => if t.isEmpty then none else some (t ++ "-" ++ f.name)
        | none => none
  | _ => none

end Field

/-- A checked definition of a database. -/
structure Database where
  /-- The name as it is declared. -/
  name : Text
  /-- The field after the slash. -/
  typeField : Field
  /-- The parameters, in the order in which a line gives them. -/
  params : List Field

namespace Database

/-- All fields, the type field first. -/
def fields (d : Database) : List Field :=
  d.typeField :: d.params

/-- The names of the parameters. -/
def paramNames (d : Database) : List Text :=
  d.params.map (·.name)

/-- The field of a name, ignoring case. -/
def field? (d : Database) (name : Text) : Option Field :=
  d.fields.find? fun f => Text.alike f.name name

/-- The trimmed names of the parameters, unless one repeats the type field or
one of the names `seen` before it. -/
def distinctParams (database typeField : Text) (seen : List Text) :
    List Text → Except SettingsError (List Text)
  | [] => .ok []
  | p :: ps =>
      let name := Text.trim p
      if Text.alike name typeField || seen.any fun s => Text.alike s name then
        .error (.duplicateParameter database name)
      else (distinctParams database typeField (seen ++ [name]) ps).map (name :: ·)

/-- The descriptor of a field: the first, in ascending order, whose trimmed name
is alike. -/
def descriptor? (fields : SortedMap FieldSettings) (name : Text) : Option FieldSettings :=
  (fields.entries.find? fun e => Text.alike (Text.trim e.1) name).map (·.2)

/-- The field of a name with what is declared about it. -/
def describe (database : Text) (fields : SortedMap FieldSettings) (name : Text) :
    Except SettingsError Field :=
  match descriptor? fields name with
  | none => .ok { name }
  | some f =>
      if f.multi = some [] then .error (.emptyMultiSeparator database name)
      else .ok { name, policy := FieldPolicy.ofSettings f, multi := f.multi }

/-- Checks the definition that stands at a place of the settings. -/
def ofSettings (index : Nat) (d : DatabaseSettings) : Except SettingsError Database := do
  let name := Text.trim d.database
  if name.isEmpty then
    throw (.emptyDatabaseName index)
  if name.any fun c => c == '/' || Text.isBlank c then
    throw (.invalidDatabaseName name)
  let typeName := Text.trim d.typeField
  if typeName.isEmpty then
    throw (.emptyTypeField name)
  let paramNames ← distinctParams name typeName [] d.params
  let typeField ← describe name d.fields typeName
  let params ← paramNames.mapM (describe name d.fields)
  return { name, typeField, params }

end Database

end Tagline
