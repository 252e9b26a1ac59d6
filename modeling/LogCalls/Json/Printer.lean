import LogCalls.Json.Token

/-! # Printing JSON

Values as text: on one line, or spread over lines with two spaces of indentation for each level. -/

namespace LogCalls.Json

/-- The four hexadecimal digits of a code below 256. -/
def controlDigits (code : Nat) : List Char :=
  ['0', '0', Nat.digitChar (code / 16), Nat.digitChar (code % 16)]

/-- A character as spelled inside a string. -/
def spellChar (c : Char) : List Char :=
  if c = '"' then ['\\', '"']
  else if c = '\\' then ['\\', '\\']
  else if c = '\x08' then ['\\', 'b']
  else if c = '\x0c' then ['\\', 'f']
  else if c = '\n' then ['\\', 'n']
  else if c = '\r' then ['\\', 'r']
  else if c = '\t' then ['\\', 't']
  else if c.toNat < 0x20 then '\\' :: 'u' :: controlDigits c.toNat
  else [c]

/-- A string with its quotes. -/
def spellString (text : String) : List Char := '"' :: text.toList.flatMap spellChar ++ ['"']

/-- The spelling of a value that is neither array nor object. -/
def spellAtom : Json → List Char
  | .boolean true => "true".toList
  | .boolean false => "false".toList
  | .natural value => Nat.toDigits 10 value
  | .numeral spelling => spelling.toList
  | .string text => spellString text
  | _ => "null".toList

/-- A line end and the indentation of a level. -/
def lineStart (depth : Nat) : List Char := '\n' :: List.replicate (2 * depth) ' '

mutual

/-- A value over several lines, at a depth of indentation. -/
def prettyAt (depth : Nat) : Json → List Char
  | .array [] => ['[', ']']
  | .array (first :: rest) =>
    '[' :: lineStart (depth + 1) ++ prettyAt (depth + 1) first ++ prettyItems (depth + 1) rest ++
      lineStart depth ++ [']']
  | .object [] => ['{', '}']
  | .object ((name, value) :: rest) =>
    '{' :: lineStart (depth + 1) ++ spellString name ++ [':', ' '] ++ prettyAt (depth + 1) value ++
      prettyMembers (depth + 1) rest ++ lineStart depth ++ ['}']
  | atom => spellAtom atom

/-- Further items of an array, each after a comma. -/
def prettyItems (depth : Nat) : List Json → List Char
  | [] => []
  | item :: rest => ',' :: lineStart depth ++ prettyAt depth item ++ prettyItems depth rest

/-- Further members of an object, each after a comma. -/
def prettyMembers (depth : Nat) : List (String × Json) → List Char
  | [] => []
  | (name, value) :: rest =>
    ',' :: lineStart depth ++ spellString name ++ [':', ' '] ++ prettyAt depth value ++
      prettyMembers depth rest

end

/-- A value over several lines. -/
def pretty (value : Json) : String := String.ofList (prettyAt 0 value)

mutual

/-- A value on one line. -/
def compactChars : Json → List Char
  | .array [] => ['[', ']']
  | .array (first :: rest) => '[' :: compactChars first ++ compactItems rest ++ [']']
  | .object [] => ['{', '}']
  | .object ((name, value) :: rest) =>
    '{' :: spellString name ++ ':' :: compactChars value ++ compactMembers rest ++ ['}']
  | atom => spellAtom atom

/-- Further items of an array, each after a comma. -/
def compactItems : List Json → List Char
  | [] => []
  | item :: rest => ',' :: compactChars item ++ compactItems rest

/-- Further members of an object, each after a comma. -/
def compactMembers : List (String × Json) → List Char
  | [] => []
  | (name, value) :: rest =>
    ',' :: spellString name ++ ':' :: compactChars value ++ compactMembers rest

end

/-- A value on one line. -/
def compact (value : Json) : String := String.ofList (compactChars value)

end LogCalls.Json
