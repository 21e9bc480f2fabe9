import Tagline.History.Store
import Tagline.Prefix
import Tagline.Settings.Document
import Tagline.Suggestion

/-!
# Sessions

A **session** is one user's registry and history, with the line that waits for
the blank line after it.  Asking changes nothing; whatever the session keeps is
saved before it is reported.

A line is **completed** by a blank line after it.  `observe` reports it with the
values it would add, and `commit` adds them.
-/

namespace Tagline

/-- Why a session refuses something. -/
inductive SessionError where
  | settings (cause : SettingsError)
  | line (cause : LineError)
  | history (cause : HistoryError)
deriving DecidableEq

namespace SessionError

/-- The wording of the cause alone. -/
def cause : SessionError → Text
  | .settings e => e.message
  | .line e => e.message
  | .history e => e.message

/-- What the cause is about. -/
def subject : SessionError → Text
  | .settings _ => "settings error: "
  | .line _ => "parse error: "
  | .history _ => "history error: "

/-- The wording of an error. -/
def message (e : SessionError) : Text :=
  e.subject ++ e.cause

/-- Whether only one line is at fault. -/
def isLineError : SessionError → Bool
  | .line _ => true
  | _ => false

end SessionError

/-- A completed line, with the values that it would add. -/
structure CompletedLine where
  line : Text
  record : Record
  delta : Delta
deriving DecidableEq

/-- A registry, a history, and the line that waits to be completed. -/
structure Session (β : Type) where
  registry : Registry
  history : Store β
  lastLine : Option Text := none

namespace Registry

/-- Reads a line with its tag prefix. -/
def parseTagLine (r : Registry) (line : Text) : Except LineError Outcome :=
  match Prefix.strip? line with
  | none => .error .notTagLine
  | some body => r.parse body

end Registry

namespace Session

variable {β : Type}

/-- Reads a line with its tag prefix. -/
def parse (s : Session β) (line : Text) : Except SessionError Outcome :=
  (s.registry.parseTagLine line).mapError .line

/-- Suggestions for a line with the cursor behind its first `cursor` characters,
placed on the line.  Only the text in front of the cursor counts.

While the name of the database is typed, it is completed even if no database has
it yet.  Otherwise the line has to be readable; then each suggestion replaces
what it begins with, or nothing at the cursor if nothing is typed of it. -/
def suggest (s : Session β) (line : Text) (cursor : Nat) : Option (List Suggestion) :=
  let before := line.take cursor
  match Prefix.split? before with
  | none => none
  | some (lead, body) =>
      let textEnd := Text.bytes lead + Text.bytes (Text.trimEnd body)
      let known :=
        match s.registry.parse body with
        | .error _ => none
        | .ok outcome =>
            (s.registry.suggest s.history.document outcome.record).map fun suggestions =>
              let typed := (s.registry.matchText outcome.record).getD []
              let (start, stop) :=
                if typed.isEmpty then (Text.bytes before, Text.bytes before)
                else (textEnd - Text.bytes typed, textEnd)
              suggestions.map fun x => x.place start stop
      match s.registry.dailyEntry? (Text.trim body), databasePrefix? body with
      | none, some typed =>
          some <| (s.registry.suggestDatabases typed).map fun x =>
            x.place (textEnd - Text.bytes typed) textEnd
      | _, _ => known

/-- The shape of the entry that a line begins. -/
def hint (s : Session β) (line : Text) : Option Text :=
  match s.parse line with
  | .ok outcome => s.registry.hint outcome.record
  | .error _ => none

/-- What a record would add to the history. -/
def pendingDelta (s : Session β) (record : Record) : Delta :=
  match s.registry.database? record.database with
  | some d => s.history.diff d record
  | none => {}

/-- Takes notice of the line in which the cursor stands.  A line that is not
blank waits; a blank line completes the waiting line, which is reported if it
can be read. -/
def observe (s : Session β) (line : Text) : Session β × Option CompletedLine :=
  if Text.allBlank line then
    let completed := s.lastLine.bind fun previous =>
      match s.parse previous with
      | .ok outcome =>
          some
            { line := previous, record := outcome.record
              delta := s.pendingDelta outcome.record }
      | .error _ => none
    ({ s with lastLine := none }, completed)
  else ({ s with lastLine := some line }, none)

/-- Takes new settings, unless they are refused. -/
def reload (s : Session β) (settings : Settings) : Session β × Except SessionError Unit :=
  match Registry.ofSettings settings with
  | .ok registry => ({ s with registry }, .ok ())
  | .error e => (s, .error (.settings e))

variable [Medium β]

/-- A session on a medium. -/
def openOn (registry : Registry) (medium : β) : Except SessionError (Session β) :=
  match Store.openOn medium with
  | .ok history => .ok { registry, history }
  | .error e => .error (.history e)

/-- Saves the history; gives `answer` if that succeeds. -/
def saving {α : Type} (s : Session β) (answer : α) : Session β × Except SessionError α :=
  match s.history.save with
  | (history, .ok ()) => ({ s with history }, .ok answer)
  | (history, .error e) => ({ s with history }, .error (.history e))

/-- Adds the entries of a delta and saves, if a bucket grew; says whether one
did. -/
def commit (s : Session β) (delta : Delta) : Session β × Except SessionError Bool :=
  let (history, grew) := s.history.apply delta
  let s := { s with history }
  if grew then s.saving true else (s, .ok false)

/-- Reads a line and adds its values. -/
def recordLine (s : Session β) (line : Text) : Session β × Except SessionError Delta :=
  match s.parse line with
  | .error e => (s, .error e)
  | .ok outcome =>
      let delta := s.pendingDelta outcome.record
      let (s, result) := s.commit delta
      (s, result.map fun _ => delta)

/-- Takes one value out and saves, if it is there; says whether it was. -/
def forget (s : Session β) (database key value : Text) :
    Session β × Except SessionError Bool :=
  let (history, removed) := s.history.removeValue database key value
  let s := { s with history }
  if removed then s.saving true else (s, .ok false)

/-- Forgets everything, the waiting line included, and saves. -/
def deleteHistory (s : Session β) : Session β × Except SessionError Unit :=
  match s.history.deleteHistory with
  | (history, .ok ()) => ({ s with history, lastLine := none }, .ok ())
  | (history, .error e) => ({ s with history }, .error (.history e))

end Session

namespace Settings

/-- The settings in a file. -/
def ofFile (files : FileSystem) (path : Path) : Except SettingsError Settings :=
  match files.readText? path with
  | none => .error (.unreadable path)
  | some text =>
      match read? text with
      | some settings => .ok settings
      | none => .error .malformed

end Settings

/-- A session on a history file, with the settings of a file. -/
def Session.openFiles (files : FileSystem) (settingsPath historyPath : Path) :
    Except SessionError (Session HistoryFile) :=
  match (Settings.ofFile files settingsPath).bind Registry.ofSettings with
  | .error e => .error (.settings e)
  | .ok registry => Session.openOn registry { path := historyPath, files := files }

end Tagline
