import Tagline.Json.Basic
import Tagline.Text.Numeral

/-!
# Reading JSON

The reader follows the grammar of RFC 8259.  It is strict: no comments, no
trailing commas, no leading zeros, no unescaped character below U+0020 in a
string, and nothing but white space after the value.

A string is read in two steps.  `stringUnits` finds its end and undoes the
escapes, where `\u` gives a UTF-16 code unit; `assemble` then pairs the
surrogates.  A unit that finds no partner makes the string denote no text.

The recursion runs on a fuel that `read?` takes from the length of the text: a
value or a list of items costs one unit, and at most two are spent before a
character is consumed.
-/

namespace Tagline

namespace Json

/-- The white space of JSON: space, tab, line feed, carriage return. -/
def isSpace (c : Char) : Bool :=
  c == ' ' || c == '\t' || c == '\n' || c == '\r'

/-- Drops the white space at the start. -/
def skipSpace (t : Text) : Text :=
  t.dropWhile isSpace

/-- A part of a string literal: a character, or a code unit from an escape. -/
inductive StringUnit where
  /-- A character that stands for itself, or comes from a one-letter escape. -/
  | plain (c : Char)
  /-- A UTF-16 code unit from an escape with four hexadecimal digits. -/
  | unit (n : Nat)

/-- The value of a hexadecimal digit. -/
def hexValue? (c : Char) : Option Nat :=
  if '0' ≤ c ∧ c ≤ '9' then some (c.toNat - '0'.toNat)
  else if 'a' ≤ c ∧ c ≤ 'f' then some (c.toNat - 'a'.toNat + 10)
  else if 'A' ≤ c ∧ c ≤ 'F' then some (c.toNat - 'A'.toNat + 10)
  else none

/-- The code unit written with four hexadecimal digits. -/
def codeUnit? (a b c d : Char) : Option Nat := do
  let a ← hexValue? a
  let b ← hexValue? b
  let c ← hexValue? c
  let d ← hexValue? d
  return ((a * 16 + b) * 16 + c) * 16 + d

/-- The character that a one-letter escape stands for. -/
def unescape? (c : Char) : Option Char :=
  if c = '"' then some '"'
  else if c = '\\' then some '\\'
  else if c = '/' then some '/'
  else if c = 'b' then some '\x08'
  else if c = 'f' then some '\x0c'
  else if c = 'n' then some '\n'
  else if c = 'r' then some '\r'
  else if c = 't' then some '\t'
  else none

/-- The units of a string literal after its opening quote, and what follows
the closing one. -/
def stringUnits : Text → Option (List StringUnit × Text)
  | [] => none
  | '"' :: t => some ([], t)
  | '\\' :: 'u' :: a :: b :: c :: d :: t =>
      match codeUnit? a b c d, stringUnits t with
      | some n, some (us, rest) => some (.unit n :: us, rest)
      | _, _ => none
  | '\\' :: e :: t =>
      match unescape? e, stringUnits t with
      | some c, some (us, rest) => some (.plain c :: us, rest)
      | _, _ => none
  | c :: t =>
      if c.toNat < 0x20 then none
      else
        match stringUnits t with
        | some (us, rest) => some (.plain c :: us, rest)
        | none => none

/-- The first half of a surrogate pair. -/
def isHighSurrogate (n : Nat) : Bool :=
  0xD800 ≤ n && n ≤ 0xDBFF

/-- The second half of a surrogate pair. -/
def isLowSurrogate (n : Nat) : Bool :=
  0xDC00 ≤ n && n ≤ 0xDFFF

/-- The character that a surrogate pair stands for. -/
def pairChar (high low : Nat) : Char :=
  Char.ofNat (0x10000 + (high - 0xD800) * 0x400 + (low - 0xDC00))

/-- The text that the units denote, if every surrogate is paired. -/
def assemble : List StringUnit → Option Text
  | [] => some []
  | .plain c :: us => (assemble us).map (c :: ·)
  | .unit n :: .unit m :: us =>
      if isHighSurrogate n && isLowSurrogate m then (assemble us).map (pairChar n m :: ·)
      else if isHighSurrogate n || isLowSurrogate n then none
      else (assemble (.unit m :: us)).map (Char.ofNat n :: ·)
  | .unit n :: us =>
      if isHighSurrogate n || isLowSurrogate n then none
      else (assemble us).map (Char.ofNat n :: ·)

/-- A string literal after its opening quote: the text it denotes, if it
denotes one, and what follows. -/
def stringBody (t : Text) : Option (Option Text × Text) :=
  (stringUnits t).map fun (us, rest) => (assemble us, rest)

/-- The digits at the start, which must not be missing. -/
def digits? (t : Text) : Option (Text × Text) :=
  let ds := t.takeWhile Text.isDigit
  if ds.isEmpty then none else some (ds, t.dropWhile Text.isDigit)

/-- The whole part of a number: digits, of which the first is zero only if it is
alone. -/
def whole? (t : Text) : Option (Text × Text) :=
  match digits? t with
  | some (['0'], rest) => some (['0'], rest)
  | some ('0' :: _, _) => none
  | other => other

/-- The fraction of a number, if there is a point. -/
def fraction? : Text → Option (Text × Text)
  | '.' :: t => (digits? t).map fun (ds, rest) => ('.' :: ds, rest)
  | t => some ([], t)

/-- The exponent of a number, if there is a letter for it. -/
def exponent? : Text → Option (Text × Text)
  | [] => some ([], [])
  | e :: t =>
      if e = 'e' ∨ e = 'E' then
        match t with
        | '+' :: t => (digits? t).map fun (ds, rest) => (e :: '+' :: ds, rest)
        | '-' :: t => (digits? t).map fun (ds, rest) => (e :: '-' :: ds, rest)
        | t => (digits? t).map fun (ds, rest) => (e :: ds, rest)
      else some ([], e :: t)

/-- A number without a sign. -/
def unsigned? (t : Text) : Option (Text × Text) := do
  let (whole, t) ← whole? t
  let (part, t) ← fraction? t
  let (power, t) ← exponent? t
  return (whole ++ part ++ power, t)

/-- A number and what follows it. -/
def number? : Text → Option (Text × Text)
  | '-' :: t => (unsigned? t).map fun (numeral, rest) => ('-' :: numeral, rest)
  | t => unsigned? t

/-- An object with one more member in front; garbled if its name is. -/
def addMember (name : Option Text) (value : Json) (rest : Json) : Json :=
  match name, rest with
  | some name, .object ms => .object ((name, value) :: ms)
  | _, _ => .garbled

mutual

/-- A value at the start of a text, and what follows it. -/
def value? : Nat → Text → Option (Json × Text)
  | 0, _ => none
  | fuel + 1, t =>
      match skipSpace t with
      | '"' :: t =>
          match stringBody t with
          | some (some s, rest) => some (.string s, rest)
          | some (none, rest) => some (.garbled, rest)
          | none => none
      | '[' :: t =>
          match skipSpace t with
          | ']' :: rest => some (.array [], rest)
          | t => (items? fuel t).map fun (js, rest) => (.array js, rest)
      | '\x7b' :: t =>
          match skipSpace t with
          | '\x7d' :: rest => some (.object [], rest)
          | t => members? fuel t
      | 'n' :: 'u' :: 'l' :: 'l' :: rest => some (.null, rest)
      | 't' :: 'r' :: 'u' :: 'e' :: rest => some (.bool true, rest)
      | 'f' :: 'a' :: 'l' :: 's' :: 'e' :: rest => some (.bool false, rest)
      | t => (number? t).map fun (numeral, rest) => (.number numeral, rest)

/-- The items of an array up to its closing bracket. -/
def items? : Nat → Text → Option (List Json × Text)
  | 0, _ => none
  | fuel + 1, t =>
      match value? fuel t with
      | none => none
      | some (j, t) =>
          match skipSpace t with
          | ',' :: t => (items? fuel t).map fun (js, rest) => (j :: js, rest)
          | ']' :: rest => some ([j], rest)
          | _ => none

/-- The members of an object up to its closing brace, as an object. -/
def members? : Nat → Text → Option (Json × Text)
  | 0, _ => none
  | fuel + 1, t =>
      match skipSpace t with
      | '"' :: t =>
          match stringBody t with
          | none => none
          | some (name, t) =>
              match skipSpace t with
              | ':' :: t =>
                  match value? fuel t with
                  | none => none
                  | some (j, t) =>
                      match skipSpace t with
                      | ',' :: t =>
                          (members? fuel t).map fun (o, rest) => (addMember name j o, rest)
                      | '\x7d' :: rest => some (addMember name j (.object []), rest)
                      | _ => none
              | _ => none
      | _ => none

end

/-- The value that a text is the written form of. -/
def read? (t : Text) : Option Json :=
  match value? (2 * t.length + 2) t with
  | some (j, rest) => if (skipSpace rest).isEmpty then some j else none
  | none => none

end Json

end Tagline
