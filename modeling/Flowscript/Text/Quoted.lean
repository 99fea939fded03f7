import Flowscript.Text.LowerCase
import Flowscript.Text.EscapeTable

/-!
# Quoted text

A text between quotation marks, with escapes for what would not show: the form in which messages
repeat a text that they talk about.
-/

namespace Flowscript.Text

/-- A code point as `\u` with hexadecimal digits between braces. -/
def escapeNumber (c : Char) : List Char :=
  '\\' :: 'u' :: '\x7b' :: Nat.toDigits 16 c.toNat ++ ['\x7d']

/-- One character inside quotation marks. -/
def escapeQuoted (c : Char) : List Char :=
  if c = '\x00' then ['\\', '0']
  else if c = '\t' then ['\\', 't']
  else if c = '\n' then ['\\', 'n']
  else if c = '\r' then ['\\', 'r']
  else if c = '\x22' || c = '\\' then ['\\', c]
  else if inRanges escapedRanges c.toNat then escapeNumber c
  else [c]

/-- The text between quotation marks. -/
def quoted (text : String) : String :=
  String.ofList ('\x22' :: text.toList.flatMap escapeQuoted ++ ['\x22'])

/-- A list of quoted texts between brackets. -/
def quotedList (texts : List String) : String :=
  "[" ++ String.intercalate ", " (texts.map quoted) ++ "]"

end Flowscript.Text
