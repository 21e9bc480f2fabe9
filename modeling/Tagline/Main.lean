import Tagline.Program

/-!
# The executable

The outer layer of the program.  It copies the files that a call can touch into
a `FileSystem`, runs the call, prints what the call prints, and writes the
history file if the call has changed it.
-/

namespace Tagline

/-- The history file of a call. -/
def Call.historyFile (c : Call) : HistoryFile where
  path :=
    match Invocation.ofWords c.arguments with
    | .ok i => i.history.getD c.defaultHistory
    | .error _ => c.defaultHistory
  files := c.files

/-- Whether a call runs the shell, which reads the input. -/
def Call.readsInput (c : Call) : Bool :=
  match Invocation.ofWords c.arguments with
  | .ok { command := .shell _, .. } => true
  | _ => false

/-- The files that a call can read: the settings, the history with the file that
is written before it, and the notes that the arguments or the input name. -/
def Call.paths (c : Call) : List Path :=
  match Invocation.ofWords c.arguments with
  | .error _ => []
  | .ok i =>
      let history := c.historyFile.path
      [i.settings.getD c.defaultSettings, history, history ++ HistoryFile.temporaryEnding]
        ++ match i.command with
          | .scan files => files
          | _ => c.input.flatMap Text.words

/-- Adds what the disk holds at a path; what is there but is no readable file
counts as a directory. -/
def copyFromDisk (fs : FileSystem) (path : Path) : IO FileSystem := do
  try
    return fs.withFile path (← IO.FS.readBinFile (String.ofList path))
  catch
    | .noFileOrDirectory .. => return fs
    | _ => return fs.withDirectory path

/-- Writes the history file beside its place and renames it. -/
def writeHistory (path : Path) (bytes : ByteArray) : IO Unit := do
  let names := Path.names path
  if names.length > 1 then
    let parent := path.take (path.length - (names.getLastD []).length)
    IO.FS.createDirAll (String.ofList parent)
  let temporary := String.ofList (path ++ HistoryFile.temporaryEnding)
  IO.FS.writeBinFile temporary bytes
  IO.FS.rename temporary (String.ofList path)

/-- The lines of the standard input. -/
def readInput : IO (List Text) := do
  let stdin ← IO.getStdin
  let mut all := ""
  repeat
    let line ← stdin.getLine
    if line.isEmpty then
      break
    all := all ++ line
  return Text.lines all.toList

end Tagline

open Tagline in
def main (args : List String) : IO UInt32 := do
  let home := ((← IO.getEnv "HOME").getD ".").toList
  let call : Call := { files := {}, home, arguments := args.map String.toList }
  let input ← if call.readsInput then readInput else pure []
  let call := { call with input }
  let files ← call.paths.foldlM copyFromDisk {}
  let call := { call with files }
  let ending := call.run
  let history := call.historyFile
  match ending.files.read history.path, call.files.read history.path with
  | .ok new, .ok old => if new != old then writeHistory history.path new
  | .ok new, .error _ => writeHistory history.path new
  | .error _, _ => pure ()
  IO.print (String.ofList ending.printed.out)
  IO.eprint (String.ofList ending.printed.err)
  return ending.code.toUInt32
