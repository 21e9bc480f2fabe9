import Tagline.Text.Basic

/-!
# Files and directories

A file system as a value: which names lead to files and which to directories,
seen from a working directory.  A **place** is the list of names that leads to a
node; the empty list is the working directory itself.

Every operation checks what an operating system checks: each name on the way
must lead to a directory, a directory is not read or written as a file, and a
path that ends in a slash does not name a file.
-/

namespace Tagline

/-- What a name leads to. -/
inductive Node where
  | file (contents : ByteArray)
  | directory

/-- Why a file operation fails. -/
inductive FileError where
  /-- Some name on the path leads nowhere. -/
  | notFound
  /-- A file stands where a directory is needed. -/
  | notDirectory
  /-- A directory stands where a file is needed. -/
  | isDirectory
deriving DecidableEq

/-- A path as it is written. -/
abbrev Path := Text

/-- The name that stands for the directory above. -/
def parentName : Text := ".."

namespace Path

/-- The names of a path.  Empty names and single dots lead nowhere else; a
leading slash is the name of the root directory. -/
def names (p : Path) : List Text :=
  let own := (Text.pieces ['/'] p).filter fun n => !(n.isEmpty || n == ['.'])
  if p.head? = some '/' then ['/'] :: own else own

/-- Whether the path ends in a slash or a dot, so that it names a directory. -/
def namesDirectory (p : Path) : Bool :=
  match (Text.pieces ['/'] p).getLast? with
  | some n => n.isEmpty || n == ['.']
  | none => false

/-- A name inside a directory. -/
def join (directory : Path) (name : Text) : Path :=
  if directory.isEmpty || directory.getLast? = some '/' then directory ++ name
  else directory ++ '/' :: name

end Path

/-- The nodes of a file system, by place. -/
structure FileSystem where
  nodes : List (List Text × Node) := []

namespace FileSystem

/-- The node at a place. -/
def node? (fs : FileSystem) (place : List Text) : Option Node :=
  if place.isEmpty then some .directory
  else (fs.nodes.find? fun e => e.1 == place).map (·.2)

/-- Puts a node at a place. -/
def put (fs : FileSystem) (place : List Text) (node : Node) : FileSystem :=
  ⟨(place, node) :: fs.nodes.filter fun e => e.1 != place⟩

/-- Takes the node at a place away. -/
def delete (fs : FileSystem) (place : List Text) : FileSystem :=
  ⟨fs.nodes.filter fun e => e.1 != place⟩

/-- Follows names from a place.  Every name needs a directory to stand in. -/
def follow (fs : FileSystem) (place : List Text) : List Text → Except FileError (List Text)
  | [] => .ok place
  | name :: names =>
      match fs.node? place with
      | none => .error .notFound
      | some (.file _) => .error .notDirectory
      | some .directory =>
          if name = parentName then fs.follow place.dropLast names
          else fs.follow (place ++ [name]) names

/-- The place of a path, whether or not there is a node. -/
def locate (fs : FileSystem) (p : Path) : Except FileError (List Text) :=
  if p.isEmpty then .error .notFound
  else
    match fs.follow [] (Path.names p) with
    | .error e => .error e
    | .ok place =>
        match Path.namesDirectory p, fs.node? place with
        | true, some (.file _) => .error .notDirectory
        | _, _ => .ok place

/-- Whether a path leads to a node. -/
def exists? (fs : FileSystem) (p : Path) : Bool :=
  match fs.locate p with
  | .ok place => (fs.node? place).isSome
  | .error _ => false

/-- The contents of the file at a place. -/
def readPlace (fs : FileSystem) (place : List Text) : Except FileError ByteArray :=
  match fs.node? place with
  | none => .error .notFound
  | some .directory => .error .isDirectory
  | some (.file contents) => .ok contents

/-- The contents of a file. -/
def read (fs : FileSystem) (p : Path) : Except FileError ByteArray :=
  match fs.locate p with
  | .error e => .error e
  | .ok place => fs.readPlace place

/-- The contents of a file as text. -/
def readText? (fs : FileSystem) (p : Path) : Option Text :=
  match fs.read p with
  | .ok contents => (String.fromUTF8? contents).map String.toList
  | .error _ => none

/-- Makes the directories that names lead through from a place. -/
def makeDirectories (fs : FileSystem) (place : List Text) :
    List Text → FileSystem × Except FileError Unit
  | [] => (fs, .ok ())
  | name :: names =>
      if name = parentName then fs.makeDirectories place.dropLast names
      else
        let next := place ++ [name]
        match fs.node? next with
        | some .directory => fs.makeDirectories next names
        | some (.file _) => (fs, .error .notDirectory)
        | none => (fs.put next .directory).makeDirectories next names

/-- Writes a file at the end of names; the directories have to be there. -/
def write (fs : FileSystem) (names : List Text) (contents : ByteArray) :
    FileSystem × Except FileError Unit :=
  match fs.follow [] names with
  | .error e => (fs, .error e)
  | .ok place =>
      match fs.node? place with
      | some .directory => (fs, .error .isDirectory)
      | _ => (fs.put place (.file contents), .ok ())

/-- Renames a file, instead of the one that the new path leads to. -/
def rename (fs : FileSystem) (names : List Text) (p : Path) :
    FileSystem × Except FileError Unit :=
  match fs.follow [] names with
  | .error e => (fs, .error e)
  | .ok place =>
      match fs.readPlace place, fs.locate p with
      | .error e, _ => (fs, .error e)
      | _, .error e => (fs, .error e)
      | .ok contents, .ok target =>
          match fs.node? target with
          | some .directory => (fs, .error .isDirectory)
          | none =>
              if Path.namesDirectory p then (fs, .error .notDirectory)
              else ((fs.delete place).put target (.file contents), .ok ())
          | some (.file _) => ((fs.delete place).put target (.file contents), .ok ())

/-- Adds a file with the directories it stands in. -/
def withFile (fs : FileSystem) (p : Path) (contents : ByteArray) : FileSystem :=
  let names := Path.names p
  (((fs.makeDirectories [] names.dropLast).1).write names contents).1

/-- Adds a directory with those it stands in. -/
def withDirectory (fs : FileSystem) (p : Path) : FileSystem :=
  (fs.makeDirectories [] (Path.names p)).1

end FileSystem

end Tagline
