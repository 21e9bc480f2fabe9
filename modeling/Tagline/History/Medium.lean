import Tagline.FileSystem

/-!
# Where the history text is kept

The history is kept as one block of bytes, read as a whole and replaced as a
whole.  A **medium** is anything that can do both; either may fail, and a write
gives the medium as it is afterwards.

Two media are given: the memory of the program, and a file.  A file is written
beside its place first and then renamed, so whoever reads the history finds the
old bytes or the new ones and never a part of them.
-/

namespace Tagline

/-- A place that keeps one block of bytes. -/
class Medium (β : Type) where
  /-- The bytes, or nothing if none were ever kept. -/
  read : β → Except FileError (Option ByteArray)
  /-- Replaces the bytes. -/
  write : β → ByteArray → β × Except FileError Unit
  /-- What the medium is called. -/
  label : β → Text

/-- A block of bytes in memory. -/
structure Memory where
  blob : Option ByteArray := none

instance : Medium Memory where
  read m := .ok m.blob
  write _ bytes := (⟨some bytes⟩, .ok ())
  label _ := "in-memory"

/-- The name of the history file inside a directory of its own. -/
def historyFileName : Text := "pojo-history.json"

/-- A file of a file system. -/
structure HistoryFile where
  path : Path
  files : FileSystem

namespace HistoryFile

/-- The history file of a directory. -/
def inDirectory (directory : Path) (files : FileSystem) : HistoryFile where
  path := Path.join directory historyFileName
  files := files

/-- The names of the directory that the file stands in. -/
def parentNames (f : HistoryFile) : List Text :=
  (Path.names f.path).dropLast

/-- The ending of a file that is not yet in its place. -/
def temporaryEnding : Text := ".tmp"

/-- The names of the file that is written first: beside the history file, with
one more ending. -/
def temporaryNames (f : HistoryFile) : List Text :=
  match (Path.names f.path).getLast? with
  | none => [temporaryEnding]
  | some name =>
      if name = parentName then Path.names f.path ++ [temporaryEnding]
      else f.parentNames ++ [name ++ temporaryEnding]

/-- The bytes of the file; a missing file keeps nothing. -/
def read (f : HistoryFile) : Except FileError (Option ByteArray) :=
  match f.files.read f.path with
  | .ok bytes => .ok (some bytes)
  | .error .notFound => .ok none
  | .error e => .error e

/-- Makes the directories, writes the temporary file and renames it.  The first
step that fails ends the writing. -/
def write (f : HistoryFile) (bytes : ByteArray) : HistoryFile × Except FileError Unit :=
  match f.files.makeDirectories [] f.parentNames with
  | (files, .error e) => ({ f with files }, .error e)
  | (files, .ok ()) =>
      match files.write f.temporaryNames bytes with
      | (files, .error e) => ({ f with files }, .error e)
      | (files, .ok ()) =>
          let (files, result) := files.rename f.temporaryNames f.path
          ({ f with files }, result)

end HistoryFile

instance : Medium HistoryFile where
  read := HistoryFile.read
  write := HistoryFile.write
  label _ := "file"

end Tagline
