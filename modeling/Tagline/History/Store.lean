import Tagline.History.Delta
import Tagline.History.Medium

/-!
# The history store

A **store** holds a history document in memory and the medium on which it is
kept.  Changes are made in memory; `save`, `load` and `deleteHistory` move the
document to and from the medium.  The store is **dirty** while the document may
differ from what the medium holds.
-/

namespace Tagline

/-- Why a history cannot be loaded or saved. -/
inductive HistoryError where
  /-- The medium fails. -/
  | io (cause : FileError)
  /-- The medium holds bytes that are no history document. -/
  | corrupted
deriving DecidableEq

namespace HistoryError

/-- The wording of a cause. -/
def message : HistoryError → Text
  | .io .notFound => "I/O error: not found"
  | .io .notDirectory => "I/O error: not a directory"
  | .io .isDirectory => "I/O error: is a directory"
  | .corrupted => "corrupted history: not a history document"

end HistoryError

/-- A history document in memory and the medium that keeps it. -/
structure Store (β : Type) where
  medium : β
  document : Document := Document.empty
  dirty : Bool := false

namespace Store

variable {β : Type}

/-- The values of a bucket, oldest first. -/
def values (s : Store β) (database key : Text) : List Text :=
  s.document.values database key

/-- What a record would add. -/
def diff (s : Store β) (d : Database) (r : Record) : Delta :=
  s.document.diff d r

/-- Adds the entries of a delta; says whether a bucket grew. -/
def apply (s : Store β) (delta : Delta) : Store β × Bool :=
  let grew := s.document.grows delta
  ({ s with document := s.document.apply delta, dirty := s.dirty || grew }, grew)

/-- Adds what a record adds, and gives it. -/
def addRecord (s : Store β) (d : Database) (r : Record) : Store β × Delta :=
  let delta := s.diff d r
  ((s.apply delta).1, delta)

/-- Takes one value out, ignoring case; says whether it was there. -/
def removeValue (s : Store β) (database key value : Text) : Store β × Bool :=
  if s.document.contains database key value then
    ({ s with document := s.document.remove { database, key, value }, dirty := true }, true)
  else (s, false)

variable [Medium β]

/-- Replaces the document by the one that the medium holds, without repeats.  A
medium that holds nothing gives the empty document; one that fails, or holds
something else, changes nothing. -/
def load (s : Store β) : Store β × Except HistoryError Unit :=
  match Medium.read s.medium with
  | .error e => (s, .error (.io e))
  | .ok none => ({ s with document := Document.empty, dirty := false }, .ok ())
  | .ok (some bytes) =>
      match Document.decode? bytes with
      | none => (s, .error .corrupted)
      | some document =>
          ({ s with document := document.dedup, dirty := document.dedup != document }, .ok ())

/-- Writes the document to the medium. -/
def save (s : Store β) : Store β × Except HistoryError Unit :=
  match Medium.write s.medium s.document.encode with
  | (medium, .error e) => ({ s with medium }, .error (.io e))
  | (medium, .ok ()) => ({ s with medium, dirty := false }, .ok ())

/-- Forgets everything and writes that. -/
def deleteHistory (s : Store β) : Store β × Except HistoryError Unit :=
  { s with document := Document.empty, dirty := true : Store β }.save

/-- A store with what a medium holds. -/
def openOn (medium : β) : Except HistoryError (Store β) :=
  match load { medium : Store β } with
  | (s, .ok ()) => .ok s
  | (_, .error e) => .error e

end Store

end Tagline
