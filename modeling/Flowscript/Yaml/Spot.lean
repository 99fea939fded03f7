import Flowscript.Yaml.Fault

/-!
# Characters with their places

A YAML text is read as a list of characters that know their line, their column and the bytes in
front of them. The breaks of Windows, of old Macs and the next-line character all count as one line
feed, so a line break is one member of the list. Columns count characters.
-/

namespace Flowscript.Yaml

/-- A character at its place. -/
structure Spot where
  char : Char
  line : Nat
  column : Nat
  /-- The number of bytes in front, in UTF-8. -/
  offset : Nat

/-- Whether a character ends a line. -/
def isBreak (c : Char) : Bool :=
  c = '\n' || c = '\r' || c.toNat = 0x85 || c.toNat = 0x2028 || c.toNat = 0x2029

/-- Whether a character is a space or a tab. -/
def isBlank (c : Char) : Bool := c = ' ' || c = '\t'

/-- Whether a character may stand in a YAML text. -/
def isPrintable (c : Char) : Bool :=
  let n := c.toNat
  n = 0x09 || n = 0x0A || n = 0x0D || (0x20 ≤ n && n ≤ 0x7E) || n = 0x85 ||
    (0xA0 ≤ n && n ≤ 0xFFFD) || 0x10000 ≤ n

/-- The letters, digits and signs of names. -/
def isNameChar (c : Char) : Bool := c.isAlphanum || c = '_' || c = '-'

namespace Spot

/-- The places of the characters from a given place on. -/
def spread (line column offset : Nat) : List Char → List Spot
  | [] => []
  | '\r' :: '\n' :: rest => ⟨'\n', line, column, offset⟩ :: spread (line + 1) 0 (offset + 2) rest
  | c :: rest =>
    let next := offset + c.utf8Size
    if c = '\r' || c.toNat = 0x85 then ⟨'\n', line, column, offset⟩ :: spread (line + 1) 0 next rest
    else if isBreak c then ⟨c, line, column, offset⟩ :: spread (line + 1) 0 next rest
    else ⟨c, line, column, offset⟩ :: spread line (column + 1) next rest

/-- How many bytes of a text are taken in at a time. -/
def pieceSize : Nat := 16384

/-- Takes characters in piece by piece, up to the piece that holds one which may not stand in a YAML
text. `before` has the pieces so far and `piece` the last one, both backwards; `room` bytes fit into
that. Gives what is taken in, and whether it is all. -/
def takeIn (before piece : List Char) (room : Nat) : List Char → List Char × Bool
  | [] => ((piece ++ before).reverse, true)
  | c :: rest =>
    let (before, piece, room) :=
      if c.utf8Size ≤ room then (before, piece, room) else (piece ++ before, [], pieceSize)
    if isPrintable c then takeIn before (c :: piece) (room - c.utf8Size) rest
    else (before.reverse, false)

/-- The characters of a text at their places, and the fault that ends them early. -/
def ofText (text : String) : List Spot × Option Fault :=
  let (taken, all) := takeIn [] [] pieceSize text.toList
  (spread 0 0 0 taken, if all then none else some .controlCharacter)

end Spot

/-- Whether the text starts with the character. -/
def startsWith (c : Char) : List Spot → Bool
  | s :: _ => s.char = c
  | [] => false

/-- Whether a word ends here: at a blank, a line break or the end of the text. -/
def atGap : List Spot → Bool
  | s :: _ => isBlank s.char || isBreak s.char
  | [] => true

/-- Whether a marker of three equal characters stands here as a word at the start of a line. -/
def atMarker (c : Char) : List Spot → Bool
  | a :: b :: d :: rest =>
    a.column = 0 && a.char = c && b.char = c && d.char = c && atGap rest
  | _ => false

/-- Whether a document starts or ends here. -/
def atDocumentMarker (spots : List Spot) : Bool := atMarker '-' spots || atMarker '.' spots

/-- The text without the blanks in front. -/
def skipBlanks (spots : List Spot) : List Spot := spots.dropWhile fun s => isBlank s.char

/-- The rest of the text from the end of the line on. -/
def skipLine (spots : List Spot) : List Spot := spots.dropWhile fun s => !isBreak s.char

/-- Passes over blanks and a comment up to the end of the line, and over the line break. -/
def lineRest? (spots : List Spot) : Option (List Spot) :=
  let spots := skipBlanks spots
  let spots := if startsWith '#' spots then skipLine spots else spots
  match spots with
  | [] => some []
  | s :: rest => if isBreak s.char then some rest else none

end Flowscript.Yaml
