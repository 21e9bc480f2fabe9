import Tagline.Completion
import Tagline.Listing

/-!
# The shell

The shell takes one line after another.  A line that begins with a backslash is
a command; any other line is shown to the session, which completes the line
before a blank one.  At times the shell asks something, and then the next line is
the answer.

So a shell is a state and a step: `feed` takes a line, or the end of the input,
and gives the next state with what is printed.
-/

namespace Tagline

/-- What is printed: for the reader, and about what went wrong. -/
structure Printed where
  out : Text := []
  err : Text := []

namespace Printed

/-- One thing printed after another. -/
def append (p q : Printed) : Printed where
  out := p.out ++ q.out
  err := p.err ++ q.err

instance : Append Printed := ⟨append⟩

/-- A line for the reader. -/
def line (t : Text) : Printed where
  out := t ++ ['\n']

/-- Several lines for the reader. -/
def ofLines (ts : List Text) : Printed where
  out := ts.flatMap fun t => t ++ ['\n']

/-- A line about what went wrong. -/
def complaint (t : Text) : Printed where
  err := "Error: " ++ t ++ ['\n']

end Printed

/-- A question of the shell that the next line answers. -/
inductive Question where
  /-- Whether these values are to be remembered. -/
  | remember (delta : Delta)
  /-- Whether everything is to be forgotten. -/
  | deleteHistory
deriving DecidableEq

/-- The shell between two lines. -/
structure Shell where
  session : Session HistoryFile
  settingsPath : Path
  format : Format
  /-- Whether to ask before values are remembered. -/
  confirm : Bool
  /-- The question that has been asked. -/
  question : Option Question := none
  /-- Whether the shell has ended. -/
  finished : Bool := false

/-- The version of the program. -/
def version : Text := "0.1.0"

/-- An entry as it is shown. -/
def Entry.show (e : Entry) : Text :=
  e.database ++ '/' :: e.key ++ ": " ++ e.value

/-- The text before and after the first character of a class. -/
def cutWhere (p : Char → Bool) (t : Text) : Option (Text × Text) :=
  match t.dropWhile fun c => !p c with
  | [] => none
  | _ :: after => some (t.takeWhile fun c => !p c, after)

/-- Whether an answer is this letter, in either case, between blanks. -/
def answers (answer : Text) (small capital : Char) : Bool :=
  Text.trim answer == [small] || Text.trim answer == [capital]

namespace Shell

/-- What is shown when the shell begins. -/
def banner (s : Shell) : Printed :=
  .ofLines
    [ "", "  POJO tag-line shell",
      "  Version:   " ++ version,
      "  Settings:  " ++ s.settingsPath,
      "  Databases: " ++ inOneCell s.session.registry.names,
      "  History:   " ++ Text.ofNat s.session.history.document.valueCount,
      "", "  Type \\help for help, \\quit to exit.", "" ]

/-- The commands and what they do. -/
def help : Printed :=
  .ofLines
    [ "", "  Tag lines", "",
      "  #Database/Type value; value; ...   or   ### Database/Type ...",
      "  Tab completes the field under the cursor. An empty line after",
      "  an entry records its values.",
      "", "  Meta-commands", "",
      "  \\history [db] [key]           Show remembered values",
      "  \\forget <db> <key> <value>    Forget one value",
      "  \\scan <file>...               Record the tag lines of note files",
      "  \\reload                       Re-read the settings file",
      "  \\confirm                      Toggle confirmation before recording",
      "  \\format <fmt>                 Set output format (table|json)",
      "  \\delete-history               Forget everything",
      "  \\help                         Show this help message",
      "  \\quit / \\q                    Exit the shell",
      "" ]

/-- Says goodbye. -/
def finish (s : Shell) : Shell × Printed :=
  ({ s with finished := true }, .line "Goodbye.")

/-- Takes the result of a session's operation: on success something is printed,
and otherwise what went wrong. -/
def report {α : Type} (s : Shell) (result : Session HistoryFile × Except SessionError α)
    (onSuccess : α → Printed) : Shell × Printed :=
  let s := { s with session := result.1 }
  match result.2 with
  | .ok a => (s, onSuccess a)
  | .error e => (s, .complaint e.message)

/-- Remembers the values of a completed line. -/
def record (s : Shell) (delta : Delta) : Shell × Printed :=
  s.report (s.session.commit delta) fun _ =>
    .ofLines (delta.entries.map fun e => "+ " ++ e.show)

/-- Remembers the values of a completed line, or asks whether to. -/
def recordOrAsk (s : Shell) (completed : CompletedLine) : Shell × Printed :=
  if !completed.delta.changed then (s, {})
  else if s.confirm then
    ({ s with question := some (.remember completed.delta) },
      .ofLines ("New values:" :: completed.delta.entries.map fun e => "  " ++ e.show))
  else s.record completed.delta

/-- Says what a line was read as. -/
def describe (s : Shell) (line : Text) : Printed :=
  match s.session.registry.parseTagLine line with
  | .error .notTagLine => {}
  | .error e => .line ("Invalid: " ++ (SessionError.line e).message)
  | .ok outcome =>
      let warnings : List Text := outcome.warnings.map fun w => "Warning: " ++ w.message
      .ofLines warnings
        ++ (if outcome.record.daily then {} else .line "(empty line to record)")

/-- Says whether a value was forgotten. -/
def forgotten (database key value : Text) (removed : Bool) : Printed :=
  .line <|
    if removed then "Forgot '" ++ value ++ "' from " ++ database ++ '/' :: key ++ "."
    else "'" ++ value ++ "' is not in " ++ database ++ '/' :: key ++ "."

/-- The command `forget`: database, key and value, of which the first two end at
the first blank after them. -/
def forget (s : Shell) (argument : Text) : Shell × Printed :=
  let parts := do
    let (database, rest) ← cutWhere Text.isBlank argument
    let (key, value) ← cutWhere Text.isBlank rest
    return (database, key, Text.trim value)
  match parts with
  | none => (s, .line "Usage: \\forget <database> <key> <value>")
  | some (database, key, value) =>
      s.report (s.session.forget database key value) (forgotten database key value)

/-- The command `scan`. -/
def scan (s : Shell) (argument : Text) : Shell × Printed :=
  let files := Text.words argument
  if files.isEmpty then (s, .line "Usage: \\scan <file>...")
  else
    s.report (s.session.scanFiles (files.map s.session.history.medium.files.readText?))
      fun r => .line (r.list s.format)

/-- The command `reload`. -/
def reload (s : Shell) : Shell × Printed :=
  match Settings.ofFile s.session.history.medium.files s.settingsPath with
  | .error e => (s, .complaint e.message)
  | .ok settings =>
      let (session, result) := s.session.reload settings
      let s := { s with session }
      match result with
      | .ok () =>
          (s, .line ("Reloaded " ++ Text.ofNat session.registry.databases.length
            ++ " database(s) from " ++ s.settingsPath))
      | .error e => (s, .complaint (e.message ++ ": " ++ e.cause))

/-- The command `format`. -/
def setFormat (s : Shell) (argument : Text) : Shell × Printed :=
  if argument.isEmpty then
    (s, .ofLines ["Current format: " ++ s.format.word, "Usage: \\format <table|json>"])
  else
    match Format.ofWord? argument with
    | some format => ({ s with format }, .line ("Output format: " ++ format.word))
    | none => (s, .complaint (Format.unknown argument))

/-- The command `confirm`. -/
def toggleConfirm (s : Shell) : Shell × Printed :=
  let s := { s with confirm := !s.confirm }
  (s, .line ("Confirm before recording: " ++ if s.confirm then "on" else "off"))

/-- The command `history`. -/
def showHistory (s : Shell) (argument : Text) : Printed :=
  let filters := Text.words argument
  .line (s.session.history.document.list filters[0]? filters[1]? s.format)

/-- The name of a command and its argument. -/
def splitCommand (line : Text) : Text × Text :=
  match cutWhere Text.isBlank line with
  | some (name, argument) => (name, Text.trim argument)
  | none => (line, [])

/-- Carries out a command, which is trimmed and begins with a backslash. -/
def command (s : Shell) (line : Text) : Shell × Printed :=
  let (name, argument) := splitCommand line
  if name = "\\quit".toList ∨ name = "\\q".toList then s.finish
  else if name = "\\help".toList ∨ name = "\\h".toList ∨ name = "\\?".toList then (s, help)
  else if name = "\\history".toList then (s, s.showHistory argument)
  else if name = "\\forget".toList then s.forget argument
  else if name = "\\scan".toList then s.scan argument
  else if name = "\\reload".toList then s.reload
  else if name = "\\confirm".toList then s.toggleConfirm
  else if name = "\\format".toList then s.setFormat argument
  else if name = "\\delete-history".toList then
    ({ s with question := some .deleteHistory }, {})
  else
    (s, .complaint ("Unknown command: " ++ name
      ++ ". Type \\help for available commands."))

/-- Takes the answer to a question. -/
def answer (s : Shell) (q : Question) (t : Text) : Shell × Printed :=
  let s := { s with question := none }
  match q with
  | .remember delta =>
      if answers t 'n' 'N' then (s, .line "Not recorded.") else s.record delta
  | .deleteHistory =>
      if answers t 'y' 'Y' then
        s.report s.session.deleteHistory fun _ => .line "History deleted."
      else (s, .line "Kept.")

/-- Takes a line that answers no question. -/
def takeLine (s : Shell) (line : Text) : Shell × Printed :=
  let trimmed := Text.trim line
  if trimmed.head? = some '\\' then s.command trimmed
  else
    let (session, completed) := s.session.observe line
    let s := { s with session }
    if trimmed.isEmpty then
      match completed with
      | some completed => s.recordOrAsk completed
      | none => (s, {})
    else (s, s.describe line)

/-- One step: takes a line. -/
def feed (s : Shell) (line : Text) : Shell × Printed :=
  if s.finished then (s, {})
  else
    match s.question with
    | some q => s.answer q line
    | none => s.takeLine line

/-- The last step: takes the end of the input.  An open question is answered
with nothing. -/
def close (s : Shell) : Shell × Printed :=
  if s.finished then (s, {})
  else
    match s.question with
    | some q =>
        let (s, answered) := s.answer q []
        let (s, goodbye) := s.finish
        (s, answered ++ goodbye)
    | none => s.finish

/-- The steps for several lines, one after another. -/
def feedAll (s : Shell) (printed : Printed) : List Text → Shell × Printed
  | [] => (s, printed)
  | line :: lines =>
      let (s, p) := s.feed line
      s.feedAll (printed ++ p) lines

/-- A whole run of the shell. -/
def run (s : Shell) (lines : List Text) : Shell × Printed :=
  let (s, printed) := s.feedAll s.banner lines
  let (s, p) := s.close
  (s, printed ++ p)

end Shell

end Tagline
