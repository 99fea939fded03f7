import Flowscript.Yaml.Spot

/-!
# Text of scalars

Reads the five written forms of a scalar: plain, in single or double quotation marks, and as a
literal or folded block. In the first three a single line break between words counts as a space and
further ones are kept.
-/

namespace Flowscript.Yaml

/-! ## Gaps between words -/

/-- What stands between two words: blanks on one line, or line breaks, of which the first may be
one that was written to be ignored. -/
inductive Gap where
  | blanks (reversed : List Char)
  | breaks (first : Option Char) (reversed : List Char)

namespace Gap

/-- No gap. -/
def none : Gap := .blanks []

/-- Whether the gap contains a line break. -/
def crossesLine : Gap → Bool
  | .blanks _ => false
  | .breaks .. => true

/-- Whether there is anything between the words. -/
def isNone : Gap → Bool
  | .blanks [] => true
  | _ => false

/-- Blanks at the start of a line do not count. -/
def addBlank (c : Char) : Gap → Gap
  | .blanks cs => .blanks (c :: cs)
  | gap => gap

/-- Blanks at the end of a line do not count. -/
def addBreak (c : Char) : Gap → Gap
  | .blanks _ => .breaks (some c) []
  | .breaks first cs => .breaks first (c :: cs)

/-- The text that a gap stands for. -/
def text : Gap → List Char
  | .blanks cs => cs.reverse
  | .breaks (some '\n') [] => [' ']
  | .breaks (some '\n') cs => cs.reverse
  | .breaks first cs => first.toList ++ cs.reverse

/-- The reversed text before the gap with the gap's text behind it. -/
def joinTo (gap : Gap) (reversed : List Char) : List Char := gap.text.reverse ++ reversed

end Gap

/-! ## Plain scalars -/

/-- The indicators of flow collections. -/
def isFlowIndicator (c : Char) : Bool :=
  c = ',' || c = '[' || c = ']' || c = '\x7b' || c = '\x7d'

/-- Whether a plain scalar ends before a character, inside flow collections or outside. -/
def endsPlain (flow : Bool) (c : Char) (rest : List Spot) : Bool :=
  (c = ':' && atGap rest) || (flow && isFlowIndicator c)

/-- A scalar that was read: its text, whether a line break follows the last word, and the rest. -/
structure ScalarRead where
  text : List Char
  crossesLine : Bool
  rest : List Spot

/-- Reads words of a plain scalar. Outside flow collections each further line starts at `indent`
or beyond. -/
def plainFrom (flow : Bool) (indent : Int) (reversed : List Char) (gap : Gap) :
    List Spot → Except Fault ScalarRead
  | [] => .ok ⟨reversed.reverse, gap.crossesLine, []⟩
  | s :: rest =>
    if isBlank s.char then
      if gap.crossesLine && (s.column : Int) < indent && s.char = '\t' then .error .tabInIndentation
      else plainFrom flow indent reversed (gap.addBlank s.char) rest
    else if isBreak s.char then plainFrom flow indent reversed (gap.addBreak s.char) rest
    else
      let stop :=
        (!gap.isNone && ((!flow && (s.column : Int) < indent) || s.char = '#' ||
          atDocumentMarker (s :: rest))) || endsPlain flow s.char rest
      if flow && s.char = ':' && (rest.head?.any fun n => isFlowIndicator n.char || n.char = '?') &&
          !(!gap.isNone && atDocumentMarker (s :: rest)) then
        .error .colonInFlow
      else if stop then .ok ⟨reversed.reverse, gap.crossesLine, s :: rest⟩
      else plainFrom flow indent (s.char :: gap.joinTo reversed) .none rest

/-! ## Quoted scalars -/

/-- Reads a scalar in single quotation marks from behind the opening one. Two marks in a row stand
for one. -/
def singleQuotedFrom (reversed : List Char) (gap : Gap) : List Spot → Except Fault ScalarRead
  | [] => .error .endInsideScalar
  | s :: rest =>
    if isBlank s.char then singleQuotedFrom reversed (gap.addBlank s.char) rest
    else if isBreak s.char then singleQuotedFrom reversed (gap.addBreak s.char) rest
    else if atDocumentMarker (s :: rest) then .error .markerInsideScalar
    else if s.char = '\x27' then
      match rest with
      | next :: more =>
        if next.char = '\x27' then singleQuotedFrom ('\x27' :: gap.joinTo reversed) .none more
        else .ok ⟨(gap.joinTo reversed).reverse, false, next :: more⟩
      | [] => .ok ⟨(gap.joinTo reversed).reverse, false, []⟩
    else singleQuotedFrom (s.char :: gap.joinTo reversed) .none rest

/-- The character that an escape of one letter stands for. -/
def escapeChar? : Char → Option Char
  | '0' => some '\x00'
  | 'a' => some '\x07'
  | 'b' => some '\x08'
  | 't' | '\t' => some '\t'
  | 'n' => some '\n'
  | 'v' => some '\x0b'
  | 'f' => some '\x0c'
  | 'r' => some '\r'
  | 'e' => some '\x1b'
  | ' ' => some ' '
  | '\x22' => some '\x22'
  | '/' => some '/'
  | '\\' => some '\\'
  | 'N' => some (Char.ofNat 0x85)
  | '_' => some (Char.ofNat 0xA0)
  | 'L' => some (Char.ofNat 0x2028)
  | 'P' => some (Char.ofNat 0x2029)
  | _ => none

/-- How many hexadecimal digits follow the letter of an escape. -/
def escapeDigits? : Char → Option Nat
  | 'x' => some 2
  | 'u' => some 4
  | 'U' => some 8
  | _ => none

/-- The value of a hexadecimal digit. -/
def hexValue? (c : Char) : Option Nat :=
  if c.isDigit then some (c.toNat - 0x30)
  else if 'a' ≤ c && c ≤ 'f' then some (c.toNat - 0x61 + 10)
  else if 'A' ≤ c && c ≤ 'F' then some (c.toNat - 0x41 + 10)
  else none

/-- The character of a code point, unless it is a surrogate or too great. -/
def charOfCode? (n : Nat) : Option Char := if n.isValidChar then some (Char.ofNat n) else none

/-- Reads a scalar in double quotation marks from behind the opening one. `escape` holds the
digits that an escape still needs, less one, and the value of those that were read. -/
def doubleQuotedFrom (reversed : List Char) (gap : Gap) (escape : Option (Nat × Nat)) :
    List Spot → Except Fault ScalarRead
  | [] => .error .endInsideScalar
  | s :: rest =>
    match escape with
    | some (needed, value) =>
      match hexValue? s.char, needed with
      | none, _ => .error .badEscape
      | some digit, 0 =>
        match charOfCode? (value * 16 + digit) with
        | some c => doubleQuotedFrom (c :: reversed) .none none rest
        | none => .error .badEscape
      | some digit, needed + 1 =>
        doubleQuotedFrom reversed .none (some (needed, value * 16 + digit)) rest
    | none =>
      if isBlank s.char then doubleQuotedFrom reversed (gap.addBlank s.char) none rest
      else if isBreak s.char then doubleQuotedFrom reversed (gap.addBreak s.char) none rest
      else if atDocumentMarker (s :: rest) then .error .markerInsideScalar
      else if s.char = '\x22' then .ok ⟨(gap.joinTo reversed).reverse, false, rest⟩
      else if s.char = '\\' then
        match rest with
        | [] => .error .badEscape
        | next :: more =>
          if isBreak next.char then
            doubleQuotedFrom (gap.joinTo reversed) (.breaks none []) none more
          else
            match escapeChar? next.char, escapeDigits? next.char with
            | some c, _ => doubleQuotedFrom (c :: gap.joinTo reversed) .none none more
            | none, some digits =>
              doubleQuotedFrom (gap.joinTo reversed) .none (some (digits - 1, 0)) more
            | none, none => .error .badEscape
      else doubleQuotedFrom (s.char :: gap.joinTo reversed) .none none rest

/-! ## Block scalars -/

/-- What becomes of the line breaks at the end of a block scalar. -/
inductive Chomping where
  | strip | clip | keep

/-- The signs behind a block scalar's indicator: chomping, and the indentation if it is given. -/
def blockHeader (spots : List Spot) : Except Fault (Chomping × Nat × List Spot) :=
  let sign? (c : Char) : Option Chomping :=
    if c = '+' then some .keep else if c = '-' then some .strip else none
  let digit (c : Char) : Except Fault Nat :=
    if c = '0' then .error .badBlockHeader else .ok (c.toNat - 0x30)
  match spots with
  | [] => .ok (.clip, 0, [])
  | s :: rest =>
    match sign? s.char with
    | some chomping =>
      match rest with
      | d :: more =>
        if d.char.isDigit then do return (chomping, ← digit d.char, more)
        else .ok (chomping, 0, d :: more)
      | [] => .ok (chomping, 0, [])
    | none =>
      if s.char.isDigit then do
        let increment ← digit s.char
        match rest with
        | d :: more =>
          match sign? d.char with
          | some chomping => return (chomping, increment, more)
          | none => return (.clip, increment, d :: more)
        | [] => return (.clip, increment, [])
      else .ok (.clip, 0, s :: rest)

/-- Passes over indentation and empty lines. As long as the indentation is not known, which zero
stands for, the greatest column that is reached counts. -/
def blockBreaks (indent greatest : Nat) (reversed : List Char) :
    List Spot → Except Fault (List Char × Nat × List Spot)
  | [] => .ok (reversed.reverse, greatest, [])
  | s :: rest =>
    let open? := indent = 0 || s.column < indent
    if s.char = ' ' && open? then blockBreaks indent greatest reversed rest
    else if s.char = '\t' && open? then .error .tabInIndentation
    else if isBreak s.char then
      blockBreaks indent (max greatest s.column) (s.char :: reversed) rest
    else .ok (reversed.reverse, max greatest s.column, s :: rest)

/-- A line of a block scalar with the breaks behind it: its own, and those of empty lines. -/
structure BlockLine where
  text : List Char
  ending : List Char
  empties : List Char

/-- Whether a line starts with a blank and so keeps the breaks around it. -/
def BlockLine.isIndented (line : BlockLine) : Bool := line.text.head?.any isBlank

theorem length_of_blockBreaks {indent greatest : Nat} {reversed : List Char} {spots : List Spot}
    {breaks : List Char} {column : Nat} {left : List Spot}
    (h : blockBreaks indent greatest reversed spots = .ok (breaks, column, left)) :
    left.length ≤ spots.length := by
  fun_induction blockBreaks indent greatest reversed spots with
  | case1 => simp_all
  | case2 _ _ _ _ _ _ ih => exact Nat.le_succ_of_le (ih h)
  | case3 => simp at h
  | case4 _ _ _ _ _ _ _ _ ih => exact Nat.le_succ_of_le (ih h)
  | case5 => simp_all

/-- The lines at the given indentation. -/
def blockLines (indent : Nat) (spots : List Spot) : Except Fault (List BlockLine × List Spot) :=
  match spots with
  | [] => .ok ([], [])
  | s :: rest =>
    if s.column ≠ indent || isBreak s.char then .ok ([], s :: rest)
    else
      let text := s :: rest.takeWhile fun s => !isBreak s.char
      match behind : rest.dropWhile fun s => !isBreak s.char with
      | [] => .ok ([⟨text.map Spot.char, [], []⟩], [])
      | ending :: more =>
        match broken : blockBreaks indent 0 [] more with
        | .error cause => .error cause
        | .ok (empties, _, left) => do
          have : left.length < (s :: rest).length := by
            have inner := length_of_blockBreaks broken
            have outer := (List.dropWhile_sublist (l := rest) fun s => !isBreak s.char).length_le
            rw [behind] at outer
            simp only [List.length_cons] at outer ⊢
            omega
          let (lines, left) ← blockLines indent left
          return (⟨text.map Spot.char, [ending.char], empties⟩ :: lines, left)
termination_by spots.length
decreasing_by assumption

/-- The breaks between two lines. Folding turns a single line feed between lines that are not
indented further into a space, and drops it before empty lines. -/
def blockSeparator (folded : Bool) (line next : BlockLine) : List Char :=
  if folded && line.ending = ['\n'] && !line.isIndented && !next.isIndented then
    if line.empties.isEmpty then [' '] else line.empties
  else line.ending ++ line.empties

/-- The text of the lines, and what chomping leaves of the breaks behind the last one. -/
def blockText (folded : Bool) (chomping : Chomping) : List BlockLine → List Char
  | [] => []
  | [line] =>
    line.text ++
      match chomping with
      | .strip => []
      | .clip => line.ending
      | .keep => line.ending ++ line.empties
  | line :: next :: rest =>
    line.text ++ blockSeparator folded line next ++ blockText folded chomping (next :: rest)

/-- Reads a block scalar from behind its indicator. `parent` is the indentation around it. -/
def blockScalar (folded : Bool) (parent : Int) (spots : List Spot) : Except Fault ScalarRead := do
  let (chomping, increment, rest) ← blockHeader spots
  let some rest := lineRest? rest | .error .badBlockHeader
  let given := if increment = 0 then 0 else (max parent 0).toNat + increment
  let (empties, greatest, rest) ← blockBreaks given 0 [] rest
  let indent := if given = 0 then max (max greatest (parent + 1).toNat) 1 else given
  let (lines, rest) ← blockLines indent rest
  let text :=
    if lines.isEmpty then (match chomping with | .keep => empties | _ => [])
    else empties ++ blockText folded chomping lines
  return ⟨text, false, rest⟩

end Flowscript.Yaml
