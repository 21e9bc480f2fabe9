import Tagline.Json.Decode
import Tagline.Json.Printer
import Tagline.Json.Reader

/-!
# The history document

What is remembered: under each database and each key a list of values, oldest
first.  Databases and keys keep the spelling in which they first came and are
found ignoring case (`SortedMap.find?`).  A list that the library builds never
holds two values that are alike.

The document is kept as one JSON text, an object of objects of lists.
-/

namespace Tagline

/-- The lists of one database, by key. -/
abbrev Buckets := SortedMap (List Text)

/-- Values by database and key. -/
structure Document where
  databases : SortedMap Buckets := SortedMap.empty
deriving DecidableEq

/-- One value under its database and key. -/
structure Entry where
  database : Text
  key : Text
  value : Text
deriving DecidableEq

/-- Keeps the first of several values that are alike; `seen` are the
lower-cased values before. -/
def keepFirst (seen : List Text) : List Text → List Text
  | [] => []
  | v :: vs =>
      if seen.contains (Text.lower v) then keepFirst seen vs
      else v :: keepFirst (Text.lower v :: seen) vs

namespace Document

/-- The document without values. -/
def empty : Document := {}

/-- The list of a bucket, ignoring case. -/
def bucket? (d : Document) (database key : Text) : Option (List Text) :=
  ((d.databases.find? database).bind fun e => e.2.find? key).map (·.2)

/-- The values of a bucket; none if there is no such bucket. -/
def values (d : Document) (database key : Text) : List Text :=
  (d.bucket? database key).getD []

/-- Whether a bucket holds a value, ignoring case. -/
def contains (d : Document) (database key value : Text) : Bool :=
  (d.values database key).any fun v => Text.alike v value

/-- The names of the databases. -/
def names (d : Document) : List Text :=
  d.databases.names

/-- The keys of one database, ignoring the case of its name. -/
def keys (d : Document) (database : Text) : List Text :=
  match d.databases.find? database with
  | some (_, buckets) => buckets.names
  | none => []

/-- The lists of all buckets, one after another. -/
def lists (d : Document) : List (List Text) :=
  d.databases.values.flatMap SortedMap.values

/-- The number of values. -/
def valueCount (d : Document) : Nat :=
  d.lists.flatten.length

/-- Whether nothing is remembered. -/
def isEmpty (d : Document) : Bool :=
  d.valueCount == 0

/-- Puts a list under the spelling in which the database and the key are found,
or under the given one where they are new. -/
def setBucket (d : Document) (database key : Text) (list : List Text) : Document :=
  let name := d.databases.spelling database
  let buckets := (d.databases.get? name).getD SortedMap.empty
  ⟨d.databases.insert name (buckets.insert (buckets.spelling key) list)⟩

/-- Adds a value at the end of its bucket, unless the bucket holds it. -/
def add (d : Document) (e : Entry) : Document :=
  if d.contains e.database e.key e.value then d
  else d.setBucket e.database e.key (d.values e.database e.key ++ [e.value])

/-- Takes a value out of its bucket, ignoring case. -/
def remove (d : Document) (e : Entry) : Document :=
  if d.contains e.database e.key e.value then
    d.setBucket e.database e.key
      ((d.values e.database e.key).eraseP fun v => Text.alike v e.value)
  else d

/-- Drops the repeats of every bucket; values that are alike are repeats. -/
def dedup (d : Document) : Document :=
  ⟨d.databases.mapValues fun buckets => buckets.mapValues (keepFirst [])⟩

/-- The document of given lists, without repeats. -/
def ofMap (databases : SortedMap Buckets) : Document :=
  dedup ⟨databases⟩

/-- The written form. -/
def toJson (d : Document) : Json :=
  .object (d.databases.entries.map fun e =>
    (e.1, .object (e.2.entries.map fun b => (b.1, Json.ofTexts b.2))))

/-- Reads what `toJson` writes, repeats included. -/
def ofJson? (j : Json) : Option Document :=
  (j.mapOf? (Json.mapOf? (Json.listOf? Json.text?))).map Document.mk

/-- The text of a document. -/
def print (d : Document) : Text :=
  d.toJson.print

/-- The document that a text is the written form of. -/
def read? (t : Text) : Option Document :=
  (Json.read? t).bind ofJson?

/-- The bytes of the text of a document. -/
def encode (d : Document) : ByteArray :=
  (String.ofList d.print).toUTF8

/-- The document that bytes are the UTF-8 text of. -/
def decode? (bytes : ByteArray) : Option Document :=
  (String.fromUTF8? bytes).bind fun s => read? s.toList

end Document

end Tagline
