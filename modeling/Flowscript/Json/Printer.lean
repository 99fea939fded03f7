import Flowscript.Json

/-!
# JSON text

Writes JSON values, either without any space or with one entry a line, each level indented by two
more spaces. Strings escape quotation marks, backslashes and the characters below the space, and
nothing else; so no line break ever stands inside a compact text.
-/

namespace Flowscript.Json

/-- The lower-case hexadecimal digit of a number below sixteen. -/
def hexDigit (n : Nat) : Char := (Nat.digitChar n)

/-- One character inside a string. -/
def escapeChar (c : Char) : List Char :=
  if c = '\x22' || c = '\\' then ['\\', c]
  else if c = '\x08' then ['\\', 'b']
  else if c = '\x0c' then ['\\', 'f']
  else if c = '\n' then ['\\', 'n']
  else if c = '\r' then ['\\', 'r']
  else if c = '\t' then ['\\', 't']
  else if c.toNat < 0x20 then
    ['\\', 'u', '0', '0', hexDigit (c.toNat / 16), hexDigit (c.toNat % 16)]
  else [c]

/-- A string with its quotation marks. -/
def quote (text : String) : String :=
  String.ofList ('\x22' :: text.toList.flatMap escapeChar ++ ['\x22'])

/-- The texts one after the other, with commas between them. -/
def commaSeparated (separator : String) : List String → String
  | [] => ""
  | [text] => text
  | text :: rest => text ++ separator ++ commaSeparated separator rest

mutual

/-- The text of a value without any space. -/
def compact : Json → String
  | .null => "null"
  | .bool true => "true"
  | .bool false => "false"
  | .number n => n.text
  | .string s => quote s
  | .array items => "[" ++ commaSeparated "," (compactItems items) ++ "]"
  | .object fields => "\x7b" ++ commaSeparated "," (compactFields fields) ++ "\x7d"

/-- The texts of the members of an array. -/
def compactItems : List Json → List String
  | [] => []
  | item :: rest => item.compact :: compactItems rest

/-- The texts of the fields of an object. -/
def compactFields : List (String × Json) → List String
  | [] => []
  | (name, value) :: rest => (quote name ++ ":" ++ value.compact) :: compactFields rest

end

/-- A line break and the indentation of a level. -/
def lineBreak (level : Nat) : String := String.ofList ('\n' :: List.replicate (2 * level) ' ')

/-- Entries one a line, one level deeper than the brackets around them. -/
def block (start stop : String) (level : Nat) : List String → String
  | [] => start ++ stop
  | texts => start ++ lineBreak (level + 1) ++
      commaSeparated ("," ++ lineBreak (level + 1)) texts ++ lineBreak level ++ stop

mutual

/-- The indented text of a value that stands at `level`. -/
def prettyAt (level : Nat) : Json → String
  | .array items => block "[" "]" level (prettyItems (level + 1) items)
  | .object fields => block "\x7b" "\x7d" level (prettyFields (level + 1) fields)
  | .null => compact .null
  | .bool b => compact (.bool b)
  | .number n => compact (.number n)
  | .string s => compact (.string s)

/-- The indented texts of the members of an array. -/
def prettyItems (level : Nat) : List Json → List String
  | [] => []
  | item :: rest => item.prettyAt level :: prettyItems level rest

/-- The indented texts of the fields of an object. -/
def prettyFields (level : Nat) : List (String × Json) → List String
  | [] => []
  | (name, value) :: rest => (quote name ++ ": " ++ value.prettyAt level) :: prettyFields level rest

end

/-- The indented text of a value. -/
def pretty (value : Json) : String := value.prettyAt 0

end Flowscript.Json
