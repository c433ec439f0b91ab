import Gatehouse.Value

/-!
# The text of a value

What this file fixes:

* `Value.quoted`: a string in quotes, where only the quote, the backslash and the characters below
  U+0020 are escaped;
* `Value.compact`: the text of a value without any blank;
* `Value.pretty`: the text of a value on several lines, two spaces to a level.
-/

namespace Gatehouse.Value

/-! ## 1. Strings -/

/-- One character of a quoted string. -/
def escaped (c : Char) : List Char :=
  if c = '"' then ['\\', '"']
  else if c = '\\' then ['\\', '\\']
  else if c.toNat = 8 then ['\\', 'b']
  else if c = '\t' then ['\\', 't']
  else if c = '\n' then ['\\', 'n']
  else if c.toNat = 12 then ['\\', 'f']
  else if c = '\r' then ['\\', 'r']
  else if c.toNat < 0x20 then
    ['\\', 'u', '0', '0', Text.hexDigit (Fin.ofNat 16 (c.toNat / 16)),
      Text.hexDigit (Fin.ofNat 16 (c.toNat % 16))]
  else [c]

/-- A string in quotes. -/
def quoted (s : String) : List Char := '"' :: s.toList.flatMap escaped ++ ['"']

/-! ## 2. On one line -/

mutual

/-- The characters of a value, without any blank. -/
def compactChars : Value → List Char
  | .null => ['n', 'u', 'l', 'l']
  | .bool true => ['t', 'r', 'u', 'e']
  | .bool false => ['f', 'a', 'l', 's', 'e']
  | .number n => n.text
  | .string s => quoted s
  | .array items => '[' :: compactItems items
  | .object entries => '\x7b' :: compactEntries entries

/-- The items of a list up to its closing bracket. -/
def compactItems : List Value → List Char
  | [] => [']']
  | [v] => compactChars v ++ [']']
  | v :: rest => compactChars v ++ ',' :: compactItems rest

/-- The entries of an object up to its closing brace. -/
def compactEntries : List (String × Value) → List Char
  | [] => ['\x7d']
  | [(k, v)] => quoted k ++ ':' :: compactChars v ++ ['\x7d']
  | (k, v) :: rest => quoted k ++ ':' :: compactChars v ++ ',' :: compactEntries rest

end

/-- The text of a value, without any blank. -/
def compact (v : Value) : String := String.ofList (compactChars v)

/-! ## 3. On several lines -/

/-- A line break and the blanks of a level. -/
def newline (level : Nat) : List Char := '\n' :: List.replicate (2 * level) ' '

mutual

/-- The characters of a value that starts on a line of the given level. -/
def prettyChars (level : Nat) : Value → List Char
  | .array [] => ['[', ']']
  | .array (v :: rest) => '[' :: prettyItems level (v :: rest)
  | .object [] => ['\x7b', '\x7d']
  | .object (e :: rest) => '\x7b' :: prettyEntries level (e :: rest)
  | .null => compactChars .null
  | .bool b => compactChars (.bool b)
  | .number n => compactChars (.number n)
  | .string s => compactChars (.string s)

/-- Items on lines of their own, up to the closing bracket. -/
def prettyItems (level : Nat) : List Value → List Char
  | [] => newline level ++ [']']
  | [v] => newline (level + 1) ++ prettyChars (level + 1) v ++ newline level ++ [']']
  | v :: rest => newline (level + 1) ++ prettyChars (level + 1) v ++ ',' :: prettyItems level rest

/-- Entries on lines of their own, up to the closing brace. -/
def prettyEntries (level : Nat) : List (String × Value) → List Char
  | [] => newline level ++ ['\x7d']
  | [(k, v)] =>
      newline (level + 1) ++ quoted k ++ [':', ' '] ++ prettyChars (level + 1) v
        ++ newline level ++ ['\x7d']
  | (k, v) :: rest =>
      newline (level + 1) ++ quoted k ++ [':', ' '] ++ prettyChars (level + 1) v
        ++ ',' :: prettyEntries level rest

end

/-- The text of a value on several lines. -/
def pretty (v : Value) : String := String.ofList (prettyChars 0 v)

end Gatehouse.Value
