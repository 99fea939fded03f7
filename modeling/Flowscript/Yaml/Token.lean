import Flowscript.Text.Utf8
import Flowscript.Yaml.ScalarText

/-!
# Tokens

The tokens of a YAML text, and the words that a single token is read from: directives, anchors and
tags. A tag is kept as bytes, since its percent escapes may spell any.
-/

namespace Flowscript.Yaml

/-- A token. The indentation of block collections shows as tokens of its own. -/
inductive Token where
  | version (major minor : Nat)
  | tagShorthand (handle : String) (start : List UInt8)
  | documentStart
  | documentEnd
  | streamEnd
  | blockSequenceStart
  | blockMappingStart
  | blockEnd
  | flowSequenceStart
  | flowSequenceEnd
  | flowMappingStart
  | flowMappingEnd
  | blockEntry
  | flowEntry
  | key
  | value
  | alias (name : String)
  | anchor (name : String)
  | tag (handle : String) (suffix : List UInt8)
  | scalar (text : String) (plain : Bool)
  /-- The place behind which the text has no tokens. -/
  | broken (cause : Fault)
deriving DecidableEq

/-! ## Tags -/

/-- The characters that a tag is written with. Between angle brackets and in directives a tag may
hold three more. -/
def isTagChar (wide : Bool) (c : Char) : Bool :=
  isNameChar c || ";/?:@&=+$.%!~*\x27()".toList.contains c || (wide && ",[]".toList.contains c)

/-- How many bytes follow the first byte of an encoded character. -/
def bytesAfter? (first : Nat) : Option Nat :=
  if first < 0x80 then some 0
  else if first < 0xC0 then none
  else if first < 0xE0 then some 1
  else if first < 0xF0 then some 2
  else if first < 0xF8 then some 3
  else none

/-- The bytes of a tag. An escape is a percent sign and two hexadecimal digits; the escapes of one
character stand side by side, and `needed` more of them are to follow. -/
def tagBytes (wide : Bool) (needed : Nat) : List Spot → Except Fault (List UInt8 × List Spot)
  | [] => if needed = 0 then .ok ([], []) else .error .badTag
  | s :: rest =>
    if s.char = '%' then
      match rest with
      | high :: low :: more =>
        match hexValue? high.char, hexValue? low.char with
        | some high, some low => do
          let byte := high * 16 + low
          let needed ←
            match needed, bytesAfter? byte with
            | 0, some count => .ok count
            | 0, none => .error .badTag
            | needed + 1, _ =>
              if 0x80 ≤ byte && byte < 0xC0 then .ok needed else .error .badTag
          let (bytes, left) ← tagBytes wide needed more
          return (UInt8.ofNat byte :: bytes, left)
        | _, _ => .error .badTag
      | _ => .error .badTag
    else if needed ≠ 0 then .error .badTag
    else if isTagChar wide s.char then do
      let (bytes, left) ← tagBytes wide 0 rest
      return (UInt8.ofNat s.char.toNat :: bytes, left)
    else .ok ([], s :: rest)

/-- The bytes up to the first zero byte. -/
def beforeZero (bytes : List UInt8) : List UInt8 := bytes.takeWhile (· ≠ 0)

/-- The characters of a word as bytes; they are all ASCII. -/
def wordBytes (word : List Spot) : List UInt8 := word.map fun s => UInt8.ofNat s.char.toNat

/-- The text of a word. -/
def wordText (word : List Spot) : String := String.ofList (word.map Spot.char)

/-- The bytes of a tag, of which there must be one. -/
def someTagBytes (wide : Bool) (spots : List Spot) : Except Fault (List UInt8 × List Spot) := do
  let (bytes, rest) ← tagBytes wide 0 spots
  if bytes.isEmpty then .error .badTag else return (beforeZero bytes, rest)

/-- Reads a tag from behind its exclamation mark: `!<…>` is the tag itself, `!handle!…` has a
handle of its own, and any other has the handle `!`. The mark alone is the tag `!`. -/
def tagToken (spots : List Spot) : Except Fault (Token × List Spot) :=
  if startsWith '<' spots then do
    let (bytes, rest) ← someTagBytes true (spots.drop 1)
    if startsWith '>' rest then return (.tag "" bytes, rest.drop 1) else .error .badTag
  else
    let word := spots.takeWhile fun s => isNameChar s.char
    let rest := spots.drop word.length
    if startsWith '!' rest then do
      let (bytes, rest) ← someTagBytes false (rest.drop 1)
      return (.tag ("!" ++ wordText word ++ "!") bytes, rest)
    else do
      let (bytes, rest) ← tagBytes false 0 rest
      let bytes := beforeZero (wordBytes word ++ bytes)
      return (if bytes.isEmpty then .tag "" "!".toUTF8.toList else .tag "!" bytes, rest)

/-! ## Anchors -/

/-- Reads the name of an anchor or an alias from behind its sign. -/
def anchorName (spots : List Spot) : Except Fault (String × List Spot) :=
  let word := spots.takeWhile fun s => isNameChar s.char
  let rest := spots.drop word.length
  let ends := atGap rest || "?:,]\x7d%@\x60".toList.any (startsWith · rest)
  if word.isEmpty || !ends then .error .badAnchor else .ok (wordText word, rest)

/-! ## Directives -/

/-- Reads a part of a version, which has at most nine digits. -/
def versionPart (spots : List Spot) : Except Fault (Nat × List Spot) :=
  let digits := spots.takeWhile fun s => s.char.isDigit
  if digits.isEmpty || 9 < digits.length then .error .badDirective
  else
    .ok (digits.foldl (fun n s => 10 * n + (s.char.toNat - 0x30)) 0, spots.drop digits.length)

/-- Reads the value of a version directive. -/
def versionValue (spots : List Spot) : Except Fault (Token × List Spot) := do
  let (major, rest) ← versionPart (skipBlanks spots)
  if !startsWith '.' rest then .error .badDirective
  else
    let (minor, rest) ← versionPart (rest.drop 1)
    return (.version major minor, rest)

/-- Reads the value of a tag directive: a handle, and what it stands for. -/
def shorthandValue (spots : List Spot) : Except Fault (Token × List Spot) := do
  let spots := skipBlanks spots
  let word := (spots.drop 1).takeWhile fun s => isNameChar s.char
  let rest := spots.drop (1 + word.length)
  let closed := startsWith '!' rest
  if !startsWith '!' spots || (!closed && !word.isEmpty) then .error .badDirective
  else
    let rest := if closed then rest.drop 1 else rest
    let handle := "!" ++ wordText word ++ (if closed then "!" else "")
    if !rest.head?.any (fun s => isBlank s.char) then .error .badDirective
    else
      let (start, rest) ← someTagBytes true (skipBlanks rest)
      if atGap rest then return (.tagShorthand handle start, rest) else .error .badDirective

/-- Reads a directive from behind its percent sign to the end of its line. -/
def directiveToken (spots : List Spot) : Except Fault (Token × List Spot) := do
  let word := spots.takeWhile fun s => isNameChar s.char
  let rest := spots.drop word.length
  if !atGap rest then .error .badDirective
  else
    let (token, rest) ←
      if wordText word = "YAML" then versionValue rest
      else if wordText word = "TAG" then shorthandValue rest
      else .error .badDirective
    match lineRest? rest with
    | some rest => return (token, rest)
    | none => .error .badDirective

end Flowscript.Yaml
