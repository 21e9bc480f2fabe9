import Tagline.Invocation
import Tagline.Shell

/-!
# The program

What one call of the program does: it reads its arguments, the settings and the
history, carries out one command or runs the shell, and ends with a code.  The
code is 0 on success, 1 when something failed, and 2 when the arguments cannot be
understood.
-/

namespace Tagline

/-- Where a call of the program begins: the files, the user's home directory, the
arguments, and the lines of the input. -/
structure Call where
  files : FileSystem
  home : Path
  arguments : List Text
  input : List Text := []

/-- Where a call of the program ends. -/
structure Ending where
  code : Nat
  printed : Printed := {}
  files : FileSystem

/-- Why a call fails: what failed, and the causes behind it. -/
structure Failure where
  what : Text
  causes : List Text := []

namespace Failure

/-- A refusal of the session. -/
def ofSession (e : SessionError) : Failure where
  what := e.message
  causes := [e.cause]

/-- A refusal of settings. -/
def ofSettings (e : SettingsError) : Failure where
  what := e.message

/-- Puts a failure behind another. -/
def context (what : Text) (f : Failure) : Failure where
  what := what
  causes := f.what :: f.causes

/-- Puts `margin` behind every line break. -/
def indent (margin : Text) (t : Text) : Text :=
  List.intercalate ('\n' :: margin) (Text.pieces ['\n'] t)

/-- A cause among several, with its number. -/
def numbered (n : Nat) (cause : Text) : Text :=
  let number := Text.ofNat n
  '\n' :: List.replicate (5 - number.length) ' ' ++ number ++ ": "
    ++ indent (List.replicate 7 ' ') cause

/-- The wording of a failure: one cause is indented, several are numbered. -/
def message (f : Failure) : Text :=
  match f.causes with
  | [] => f.what
  | [cause] => f.what ++ "\n\nCaused by:\n    " ++ indent (List.replicate 4 ' ') cause
  | causes =>
      f.what ++ "\n\nCaused by:"
        ++ ((List.range causes.length).zip causes).flatMap fun (n, cause) => numbered n cause

end Failure

/-- How to call the program. -/
def usage : Text :=
  "Usage: pojo [--settings <SETTINGS>] [--history <HISTORY>] [--format <FORMAT>] [COMMAND]\n\n"
    ++ "Commands: repl, parse, suggest, hint, scan, history, forget, delete-history\n"

namespace Call

/-- The settings file of a user who names none. -/
def defaultSettings (c : Call) : Path :=
  Path.join c.home ".config/pojo/settings.json"

/-- The history file of a user who names none. -/
def defaultHistory (c : Call) : Path :=
  Path.join (Path.join c.home ".local/share/pojo") historyFileName

/-- The registry of the settings file.  Where no file is named, a missing one
gives the empty registry. -/
def registry (c : Call) (named : Option Path) : Except Failure Registry :=
  let path := named.getD c.defaultSettings
  if named.isNone && !c.files.exists? path then .ok {}
  else
    match Settings.ofFile c.files path with
    | .error e => .error (.ofSettings e)
    | .ok settings =>
        match Registry.ofSettings settings with
        | .ok r => .ok r
        | .error e => .error (.context ("invalid settings in " ++ path) (.ofSettings e))

/-- The session on the history file. -/
def session (c : Call) (r : Registry) (named : Option Path) :
    Except Failure (Session HistoryFile) :=
  let path := named.getD c.defaultHistory
  match Session.openOn r { path, files := c.files : HistoryFile } with
  | .ok s => .ok s
  | .error e => .error (.context ("failed to open history at " ++ path) (.ofSession e))

end Call

/-- What a command leaves behind: a session, and what is printed or why it
failed. -/
abbrev Done := Session HistoryFile × Except Failure Printed

/-- Ends a command with the result of a session's operation. -/
def Done.ofResult {α : Type} (result : Session HistoryFile × Except SessionError α)
    (onSuccess : α → Printed) : Done :=
  (result.1, (result.2.map onSuccess).mapError Failure.ofSession)

/-- Carries out a command. -/
def Command.run (command : Command) (s : Session HistoryFile) (format : Format)
    (settingsPath : Path) (input : List Text) : Done :=
  match command with
  | .shell confirm =>
      let (ended, printed) := Shell.run { session := s, settingsPath, format, confirm } input
      (ended.session, .ok printed)
  | .parse line => .ofResult (s, s.parse line) fun o => .line (o.list format)
  | .suggest line cursor =>
      let suggestions := (s.suggest line (cursor.getD line.length)).getD []
      (s, .ok (.line (listSuggestions suggestions format)))
  | .hint line =>
      (s, .ok ((s.hint line).map Printed.line |>.getD {}))
  | .scan files =>
      .ofResult (s.scanFiles (files.map s.history.medium.files.readText?))
        fun r => .line (r.list format)
  | .history database key => (s, .ok (.line (s.history.document.list database key format)))
  | .forget database key value =>
      .ofResult (s.forget database key value) (Shell.forgotten database key value)
  | .deleteHistory yes =>
      if yes then .ofResult s.deleteHistory fun _ => .line "History deleted."
      else (s, .error { what := "refusing to delete history without --yes" })

namespace Call

/-- The format that is asked for, with a warning if there is no such format. -/
def format (word : Text) : Format × Printed :=
  match Format.ofWord? word with
  | some format => (format, {})
  | none =>
      (.table,
        { err := "Warning: " ++ Format.unknown word ++ ". Defaulting to table format.\n" })

/-- Carries out what the arguments ask for. -/
def carryOut (c : Call) (i : Invocation) : Ending :=
  let (format, warning) := Call.format i.format
  let fail (files : FileSystem) (f : Failure) : Ending :=
    { code := 1, printed := warning ++ .complaint f.message, files }
  match c.registry i.settings with
  | .error f => fail c.files f
  | .ok r =>
      match c.session r i.history with
      | .error f => fail c.files f
      | .ok s =>
          let settingsPath := i.settings.getD c.defaultSettings
          match i.command.run s format settingsPath c.input with
          | (s, .error f) => fail s.history.medium.files f
          | (s, .ok printed) =>
              { code := 0, printed := warning ++ printed, files := s.history.medium.files }

/-- One call of the program. -/
def run (c : Call) : Ending :=
  match Invocation.ofWords c.arguments with
  | .error .usage => { code := 2, printed := { err := usage }, files := c.files }
  | .error .help => { code := 0, printed := { out := usage }, files := c.files }
  | .error .version => { code := 0, printed := .line ("pojo " ++ version), files := c.files }
  | .ok i => c.carryOut i

end Call

end Tagline
