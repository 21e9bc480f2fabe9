import Tagline.Json.Basic

/-!
# Printing JSON

The written form has two blanks of indentation for each level, one item or
member to a line, a colon and a blank between name and value, and `[]` and `{}`
for what is empty.  In a string the quote, the backslash and the characters
below U+0020 are escaped, the last with a letter where there is one and with
four hexadecimal digits otherwise; all other characters stand for themselves.
-/

namespace Tagline

namespace Json

/-- A hexadecimal digit in lower case. -/
def hexDigit (n : Nat) : Char :=
  Nat.digitChar n

/-- The written form of a character inside a string. -/
def escape (c : Char) : Text :=
  if c = '"' then ['\\', '"']
  else if c = '\\' then ['\\', '\\']
  else if c = '\n' then ['\\', 'n']
  else if c = '\r' then ['\\', 'r']
  else if c = '\t' then ['\\', 't']
  else if c = '\x08' then ['\\', 'b']
  else if c = '\x0c' then ['\\', 'f']
  else if c.toNat < 0x20 then
    ['\\', 'u', '0', '0', hexDigit (c.toNat / 16), hexDigit (c.toNat % 16)]
  else [c]

/-- A string in its quotes. -/
def quoted (t : Text) : Text :=
  '"' :: (t.flatMap escape ++ ['"'])

/-- A line break and the indentation of a level. -/
def newLine (level : Nat) : Text :=
  '\n' :: List.replicate (2 * level) ' '

mutual

/-- The written form of a value that stands on a level. -/
def printAt (level : Nat) : Json → Text
  | .null => ['n', 'u', 'l', 'l']
  | .bool true => ['t', 'r', 'u', 'e']
  | .bool false => ['f', 'a', 'l', 's', 'e']
  | .number numeral => numeral
  | .string t => quoted t
  | .array [] => ['[', ']']
  | .array (j :: js) =>
      '[' :: (newLine (level + 1) ++ printAt (level + 1) j ++ printItems level js ++ [']'])
  | .object [] => ['\x7b', '\x7d']
  | .object ((name, j) :: ms) =>
      '\x7b' :: (newLine (level + 1) ++ quoted name ++ [':', ' '] ++ printAt (level + 1) j
        ++ printMembers level ms ++ ['\x7d'])
  | .garbled => ['"', '\\', 'u', 'd', '8', '0', '0', '"']

/-- The further items of an array on a level, up to the closing bracket. -/
def printItems (level : Nat) : List Json → Text
  | [] => newLine level
  | j :: js => ',' :: (newLine (level + 1) ++ printAt (level + 1) j ++ printItems level js)

/-- The further members of an object on a level, up to the closing brace. -/
def printMembers (level : Nat) : List (Text × Json) → Text
  | [] => newLine level
  | (name, j) :: ms =>
      ',' :: (newLine (level + 1) ++ quoted name ++ [':', ' '] ++ printAt (level + 1) j
        ++ printMembers level ms)

end

/-- The written form of a value. -/
def print (j : Json) : Text :=
  printAt 0 j

end Json

end Tagline
