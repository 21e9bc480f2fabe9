import Tagline.Text.Numeral
import Tagline.FileSystem

/-!
# Arguments of the program

The words of a command line and what they ask for.  Options are written
`--name value` or `--name=value`; three of them may stand before and behind the
command, and there the later place counts.  A word that begins with a hyphen is
no value, except a single hyphen, and behind `--` every word is a value.

Reading goes from left to right and stops at the first word that asks for help,
asks for the version, or cannot be.
-/

namespace Tagline

/-- What the program is asked to do. -/
inductive Command where
  /-- The shell; with `confirm` it asks before it remembers values. -/
  | shell (confirm : Bool)
  /-- Read one line. -/
  | parse (line : Text)
  /-- Suggestions for a line, at its end if no cursor is given. -/
  | suggest (line : Text) (cursor : Option Nat)
  /-- The shape of the entry that a line begins. -/
  | hint (line : Text)
  /-- Scan notes. -/
  | scan (files : List Path)
  /-- List the history. -/
  | history (database key : Option Text)
  /-- Forget one value. -/
  | forget (database key value : Text)
  /-- Forget everything, if that is confirmed. -/
  | deleteHistory (yes : Bool)
deriving DecidableEq

/-- A command with the options that hold for every command. -/
structure Invocation where
  settings : Option Path := none
  history : Option Path := none
  format : Text := "table"
  command : Command := .shell false
deriving DecidableEq

/-- Why arguments ask for nothing to be done. -/
inductive Refusal where
  /-- The arguments cannot be understood. -/
  | usage
  /-- Help is asked for. -/
  | help
  /-- The version is asked for. -/
  | version
deriving DecidableEq

/-- The words that a command understands: switches, options with a value, and how
many further values. -/
structure Grammar where
  switches : List Text := []
  options : List Text := []
  least : Nat := 0
  most : Option Nat := some 0

/-- Words sorted by what they are. -/
structure Arguments where
  switches : List Text := []
  options : List (Text × Text) := []
  values : List Text := []

namespace Arguments

/-- The value of an option. -/
def option? (a : Arguments) (name : Text) : Option Text :=
  (a.options.find? fun o => o.1 == name).map (·.2)

/-- Whether a switch is given. -/
def has (a : Arguments) (name : Text) : Bool :=
  a.switches.contains name

/-- Adds a switch, once. -/
def addSwitch (a : Arguments) (name : Text) : Except Refusal Arguments :=
  if a.has name then .error .usage else .ok { a with switches := name :: a.switches }

/-- Adds an option, once. -/
def addOption (a : Arguments) (name value : Text) : Except Refusal Arguments :=
  if (a.option? name).isSome then .error .usage
  else .ok { a with options := (name, value) :: a.options }

/-- Adds a value at the end. -/
def addValue (a : Arguments) (value : Text) : Arguments :=
  { a with values := a.values ++ [value] }

end Arguments

/-- The kinds of word on a command line. -/
inductive Word where
  /-- The word behind which all are values. -/
  | divider
  /-- An option or a switch, with what follows its equals sign. -/
  | named (name : Text) (value : Option Text)
  /-- A word of one hyphen and letters. -/
  | letters (t : Text)
  /-- Any other word. -/
  | plain (t : Text)

/-- The kind of a word. -/
def Word.ofText : Text → Word
  | ['-', '-'] => .divider
  | '-' :: '-' :: t =>
      match Text.cutAt '=' t with
      | some (name, value) => .named name (some value)
      | none => .named t none
  | '-' :: c :: t => .letters (c :: t)
  | t => .plain t

/-- Whether a word can be the value of the option in front of it. -/
def Word.isValue (t : Text) : Bool :=
  match Word.ofText t with
  | .plain _ => true
  | _ => false

namespace Grammar

/-- Whether the values are as many as the command takes. -/
def admits (g : Grammar) (values : List Text) : Bool :=
  g.least ≤ values.length &&
    match g.most with
    | some most => values.length ≤ most
    | none => true

/-- Sorts the words of a command. -/
def sort (g : Grammar) (a : Arguments) : List Text → Except Refusal Arguments
  | [] => .ok a
  | word :: words =>
      match Word.ofText word with
      | .divider => .ok { a with values := a.values ++ words }
      | .plain t => g.sort (a.addValue t) words
      | .letters t => .error (if t.head? = some 'h' then .help else .usage)
      | .named name (some value) =>
          if g.options.contains name then
            match a.addOption name value with
            | .ok a => g.sort a words
            | .error e => .error e
          else .error .usage
      | .named name none =>
          if name = "help".toList then .error .help
          else if g.switches.contains name then
            match a.addSwitch name with
            | .ok a => g.sort a words
            | .error e => .error e
          else if g.options.contains name then
            match words with
            | value :: words =>
                if Word.isValue value then
                  match a.addOption name value with
                  | .ok a => g.sort a words
                  | .error e => .error e
                else .error .usage
            | [] => .error .usage
          else .error .usage

end Grammar

/-- The options that hold for every command. -/
def commonOptions : List Text :=
  ["settings", "history", "format"]

/-- The numbers that a cursor can have are below this one. -/
def cursorLimit : Nat := 0x10000000000000000

/-- A number below the limit in decimal digits, with a plus sign or none. -/
def cursor? (t : Text) : Option Nat :=
  let digits := match t with
    | '+' :: t => t
    | t => t
  if digits.isEmpty || !digits.all Text.isDigit then none
  else
    let n := digits.foldl (fun n c => 10 * n + (c.toNat - '0'.toNat)) 0
    if n < cursorLimit then some n else none

/-- The words that a command understands, and the command that they give. -/
structure CommandForm where
  grammar : Grammar
  build : Arguments → Option Command

/-- The form of the command of a name. -/
def commandForm? (name : Text) : Option CommandForm :=
  if name = "repl".toList then
    some
      { grammar := { switches := ["confirm"] }
        build := fun a => some (.shell (a.has "confirm")) }
  else if name = "parse".toList then
    some
      { grammar := { least := 1, most := some 1 }
        build := fun a => a.values.head?.map .parse }
  else if name = "suggest".toList then
    some
      { grammar := { options := ["cursor"], least := 1, most := some 1 }
        build := fun a => do
          let line ← a.values.head?
          match a.option? "cursor" with
          | none => return .suggest line none
          | some t => return .suggest line (some (← cursor? t)) }
  else if name = "hint".toList then
    some
      { grammar := { least := 1, most := some 1 }
        build := fun a => a.values.head?.map .hint }
  else if name = "scan".toList then
    some
      { grammar := { least := 1, most := none }
        build := fun a => if a.values.any List.isEmpty then none else some (.scan a.values) }
  else if name = "history".toList then
    some
      { grammar := { options := ["database", "key"] }
        build := fun a => some (.history (a.option? "database") (a.option? "key")) }
  else if name = "forget".toList then
    some
      { grammar := { least := 3, most := some 3 }
        build := fun a =>
          match a.values with
          | [database, key, value] => some (.forget database key value)
          | _ => none }
  else if name = "delete-history".toList then
    some
      { grammar := { switches := ["yes"] }
        build := fun a => some (.deleteHistory (a.has "yes")) }
  else none

namespace Invocation

/-- Takes over the options that hold for every command.  A path is not empty. -/
def withCommon (i : Invocation) (a : Arguments) : Except Refusal Invocation :=
  let settings := a.option? "settings"
  let history := a.option? "history"
  if settings = some [] ∨ history = some [] then .error .usage
  else
    .ok
      { i with
        settings := settings <|> i.settings
        history := history <|> i.history
        format := (a.option? "format").getD i.format }

/-- The answer to the command `help`: it takes the name of one command or none. -/
def readHelp : List Text → Refusal
  | [] => .help
  | [name] =>
      if name = "help".toList || (commandForm? name).isSome then .help else .usage
  | _ => .usage

/-- Reads the words behind the name of a command. -/
def readCommand (i : Invocation) (name : Text) (words : List Text) :
    Except Refusal Invocation :=
  match commandForm? name with
  | none => .error (if name = "help".toList then readHelp words else .usage)
  | some form =>
      let g := { form.grammar with options := commonOptions ++ form.grammar.options }
      match g.sort {} words with
      | .error e => .error e
      | .ok a =>
          if g.admits a.values then
            match i.withCommon a, form.build a with
            | .ok i, some command => .ok { i with command }
            | .error e, _ => .error e
            | _, none => .error .usage
          else .error .usage

/-- Reads the words in front of the command, and then the command. -/
def readFrom (a : Arguments) : List Text → Except Refusal Invocation
  | [] => withCommon {} a
  | word :: words =>
      match Word.ofText word with
      | .divider => if words.isEmpty then withCommon {} a else .error .usage
      | .plain name =>
          match withCommon {} a with
          | .ok i => i.readCommand name words
          | .error e => .error e
      | .letters t =>
          .error (if t.head? = some 'h' then .help
            else if t.head? = some 'V' then .version else .usage)
      | .named name (some value) =>
          if commonOptions.contains name then
            match a.addOption name value with
            | .ok a => readFrom a words
            | .error e => .error e
          else .error .usage
      | .named name none =>
          if name = "help".toList then .error .help
          else if name = "version".toList then .error .version
          else if commonOptions.contains name then
            match words with
            | value :: words =>
                if Word.isValue value then
                  match a.addOption name value with
                  | .ok a => readFrom a words
                  | .error e => .error e
                else .error .usage
            | [] => .error .usage
          else .error .usage

/-- What the words of a command line ask for. -/
def ofWords (words : List Text) : Except Refusal Invocation :=
  readFrom {} words

end Invocation

end Tagline
