import Tagline.History.Document
import Tagline.Record
import Tagline.Text.Normal

/-!
# What a record adds to the history

A **delta** lists the values of a record that the history does not hold yet, in
the order of the fields.  It is computed without changing anything and can be
applied later, also to a history that has grown meanwhile.
-/

namespace Tagline

/-- Values to be added, each under its database and key. -/
structure Delta where
  entries : List Entry := []
deriving DecidableEq

namespace Delta

/-- Whether there is anything to add. -/
def changed (d : Delta) : Bool :=
  !d.entries.isEmpty

/-- Adds an entry at the end, unless it is there. -/
def push (d : Delta) (e : Entry) : Delta :=
  if d.entries.contains e then d else ⟨d.entries ++ [e]⟩

/-- Adds the entries of another delta, without those that are there. -/
def merge (d other : Delta) : Delta :=
  other.entries.foldl push d

end Delta

/-- The values of a record for the fields that remember theirs, in normal
spelling, under the keys of the fields; empty values are left out. -/
def Record.entries (r : Record) (d : Database) : List Entry :=
  if r.daily then []
  else
    (d.fields.filter fun f => f.policy.recordsHistory).flatMap fun f =>
      match f.historyKey d.typeField.name r.typeValue with
      | none => []
      | some key =>
          ((r.valuesOf f.name d.typeField.name).map Text.normalize).filterMap fun value =>
            if value.isEmpty then none else some { database := d.name, key, value }

namespace Document

/-- The entries of a record that the document does not hold, each once. -/
def diff (doc : Document) (d : Database) (r : Record) : Delta :=
  ((r.entries d).filter fun e => !doc.contains e.database e.key e.value).foldl Delta.push {}

/-- Adds the entries of a delta one after another. -/
def apply (doc : Document) (delta : Delta) : Document :=
  delta.entries.foldl add doc

/-- Whether applying a delta makes a bucket grow. -/
def grows (doc : Document) (delta : Delta) : Bool :=
  delta.entries.any fun e => !doc.contains e.database e.key e.value

end Document

end Tagline
