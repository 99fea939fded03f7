import Flowscript.Yaml.Token

/-!
# Layout

Splits a YAML text into tokens. The indentation of the lines opens and closes block collections. A
simple key shows only by the colon behind it, so the places where one may start are remembered and
its tokens are put there when the colon comes. A key ends on the line where it starts and within
1024 bytes.
-/

namespace Flowscript.Yaml

/-- A place where a simple key may start. -/
structure PossibleKey where
  /-- Whether nothing but a key may stand there. -/
  required : Bool
  /-- The number of the token that would be the key's first. -/
  position : Nat
  spot : Spot

/-- Whether the colon of a key comes too late at `here`. -/
def PossibleKey.isStale (key : PossibleKey) (here : Spot) : Bool :=
  key.spot.line < here.line || key.spot.offset + 1024 < here.offset

/-- What is known of a text up to some place. -/
structure Layout where
  /-- The tokens so far, the latest first. -/
  reversed : List Token := []
  /-- How many tokens there are so far. -/
  count : Nat := 0
  /-- The column of the innermost block collection; -1 outside of all. -/
  indent : Int := -1
  /-- The columns of the collections around it. -/
  outer : List Int := []
  keyAllowed : Bool := true
  key : Option PossibleKey := none
  /-- The possible keys around each open flow collection. -/
  outerKeys : List (Option PossibleKey) := []

namespace Layout

/-- Whether a flow collection is open. -/
def inFlow (layout : Layout) : Bool := !layout.outerKeys.isEmpty

/-- Appends a token. -/
def emit (layout : Layout) (token : Token) : Layout :=
  { layout with reversed := token :: layout.reversed, count := layout.count + 1 }

/-- Puts a token in front of the one with the given index. -/
def emitAt (layout : Layout) (position : Nat) (token : Token) : Layout :=
  let later := layout.count - position
  { layout with
    reversed := layout.reversed.take later ++ token :: layout.reversed.drop later
    count := layout.count + 1 }

/-- Says whether a key may start behind what was read. -/
def allowKey (layout : Layout) (allowed : Bool) : Layout := { layout with keyAllowed := allowed }

/-! ## Possible keys -/

/-- Gives up the possible key of this level. -/
def dropKey (layout : Layout) : Except Fault Layout :=
  if layout.key.any PossibleKey.required then .error .keyWithoutColon
  else .ok { layout with key := none }

/-- Remembers that a key may start here, if it may. -/
def saveKey (layout : Layout) (here : Spot) : Except Fault Layout :=
  if layout.keyAllowed then do
    let layout ← layout.dropKey
    let required := !layout.inFlow && layout.indent = here.column
    return { layout with key := some ⟨required, layout.count, here⟩ }
  else .ok layout

/-- Gives up the keys whose colon comes too late. -/
def expireKeys (layout : Layout) (here : Spot) : Except Fault Layout :=
  let late (key : Option PossibleKey) : Bool := key.any (·.isStale here)
  let keys := layout.key :: layout.outerKeys
  if keys.any fun key => late key && key.any PossibleKey.required then .error .keyWithoutColon
  else
    let keep (key : Option PossibleKey) := if late key then none else key
    .ok { layout with key := keep layout.key, outerKeys := layout.outerKeys.map keep }

/-! ## Indentation -/

/-- Opens a block collection at a column beyond the current one; `position` is the place of its
token. -/
def indentTo (layout : Layout) (column : Nat) (position : Nat) (token : Token) : Layout :=
  if layout.inFlow || (column : Int) ≤ layout.indent then layout
  else
    { layout.emitAt position token with indent := column, outer := layout.indent :: layout.outer }

/-- Closes the block collections beyond a column: their number, and the columns that stay. -/
def closeBeyond (column indent : Int) : List Int → Nat × Int × List Int
  | [] => (0, indent, [])
  | next :: outer =>
    if column < indent then
      let (count, indent, outer) := closeBeyond column next outer
      (count + 1, indent, outer)
    else (0, indent, next :: outer)

/-- Closes the block collections beyond a column. -/
def unindentTo (layout : Layout) (column : Int) : Layout :=
  if layout.inFlow then layout
  else
    let (closed, indent, outer) := closeBeyond column layout.indent layout.outer
    { layout with
      reversed := List.replicate closed Token.blockEnd ++ layout.reversed
      count := layout.count + closed
      indent := indent
      outer := outer }

/-! ## Single tokens -/

/-- What is known behind a token, and the text behind it. -/
abbrev Step := Except Fault (Layout × List Spot)

/-- A directive or a document marker: it closes all that is open in the block context. -/
def boundary (layout : Layout) (read : Except Fault (Token × List Spot)) : Step := do
  let layout ← (layout.unindentTo (-1)).dropKey
  let (token, rest) ← read
  return ((layout.allowKey false).emit token, rest)

/-- The start of a flow collection, which may itself be a key. -/
def openFlow (layout : Layout) (token : Token) (here : Spot) (rest : List Spot) : Step := do
  let layout ← layout.saveKey here
  let layout := { layout with key := none, outerKeys := layout.key :: layout.outerKeys }
  return ((layout.allowKey true).emit token, rest)

/-- The end of a flow collection. -/
def closeFlow (layout : Layout) (token : Token) (rest : List Spot) : Step := do
  let layout ← layout.dropKey
  let layout :=
    match layout.outerKeys with
    | key :: outer => { layout with key := key, outerKeys := outer }
    | [] => layout
  return ((layout.allowKey false).emit token, rest)

/-- The comma of a flow collection. -/
def flowEntry (layout : Layout) (rest : List Spot) : Step := do
  let layout ← layout.dropKey
  return ((layout.allowKey true).emit .flowEntry, rest)

/-- The dash of a block sequence. -/
def blockEntry (layout : Layout) (here : Spot) (rest : List Spot) : Step :=
  if !layout.inFlow && !layout.keyAllowed then .error .sequenceNotAllowed
  else do
    let layout := layout.indentTo here.column layout.count .blockSequenceStart
    let layout ← layout.dropKey
    return ((layout.allowKey true).emit .blockEntry, rest)

/-- The question mark of an explicit key. -/
def explicitKey (layout : Layout) (here : Spot) (rest : List Spot) : Step :=
  if !layout.inFlow && !layout.keyAllowed then .error .keyNotAllowed
  else do
    let layout := layout.indentTo here.column layout.count .blockMappingStart
    let layout ← layout.dropKey
    return ((layout.allowKey (!layout.inFlow)).emit .key, rest)

/-- The colon of a value: the tokens of its key go where the key started. -/
def keyedValue (layout : Layout) (here : Spot) (rest : List Spot) : Step :=
  match layout.key with
  | some key =>
    let layout := { layout.emitAt key.position .key with key := none }
    let layout := layout.indentTo key.spot.column key.position .blockMappingStart
    .ok ((layout.allowKey false).emit .value, rest)
  | none =>
    if !layout.inFlow && !layout.keyAllowed then .error .valueNotAllowed
    else
      let layout := layout.indentTo here.column layout.count .blockMappingStart
      .ok ((layout.allowKey (!layout.inFlow)).emit .value, rest)

/-- An anchor, an alias or a tag, with which a key may start. -/
def word (layout : Layout) (here : Spot) (read : Except Fault (Token × List Spot)) : Step := do
  let layout ← layout.saveKey here
  let (token, rest) ← read
  return ((layout.allowKey false).emit token, rest)

/-- A scalar that may be a key; behind a line break another key may start. -/
def flowScalar (layout : Layout) (here : Spot) (plain : Bool) (read : Except Fault ScalarRead) :
    Step := do
  let layout ← layout.saveKey here
  let scalar ← read
  let token := Token.scalar (String.ofList scalar.text) plain
  return ((layout.allowKey scalar.crossesLine).emit token, scalar.rest)

/-- A literal or folded scalar. -/
def blockScalar (layout : Layout) (folded : Bool) (rest : List Spot) : Step := do
  let layout ← layout.dropKey
  let scalar ← Yaml.blockScalar folded layout.indent rest
  return ((layout.allowKey true).emit (.scalar (String.ofList scalar.text) false), scalar.rest)

/-- Reads a name behind a sign as a token. -/
def named (token : String → Token) (rest : List Spot) : Except Fault (Token × List Spot) :=
  (anchorName rest).map fun (name, rest) => (token name, rest)

/-- Reads a tag; a word must end behind it, or a comma follow in a flow collection. -/
def tagWord (layout : Layout) (rest : List Spot) : Except Fault (Token × List Spot) := do
  let (token, rest) ← tagToken rest
  if atGap rest || (layout.inFlow && startsWith ',' rest) then return (token, rest)
  else .error .badTag

/-- The characters with which no plain scalar starts, unless more is said. -/
def isIndicator (c : Char) : Bool := "-?:,[]\x7b\x7d#&*!|>\x27\x22%@\x60".toList.contains c

/-- Whether a plain scalar starts here. -/
def startsPlain (layout : Layout) (here : Spot) (rest : List Spot) : Bool :=
  !(isBlank here.char || isBreak here.char || isIndicator here.char) ||
    (here.char = '-' && !rest.head?.any fun s => isBlank s.char) ||
    (!layout.inFlow && (here.char = '?' || here.char = ':') && !atGap rest)

/-- Reads the token that starts at a character which is neither blank nor part of a comment. -/
def token (layout : Layout) (here : Spot) (rest : List Spot) : Step :=
  let flow := layout.inFlow
  let single := flow || atGap rest
  let c := here.char
  if here.column = 0 && c = '%' then layout.boundary (directiveToken rest)
  else if atMarker '-' (here :: rest) then layout.boundary (.ok (.documentStart, rest.drop 2))
  else if atMarker '.' (here :: rest) then layout.boundary (.ok (.documentEnd, rest.drop 2))
  else if c = '[' then layout.openFlow .flowSequenceStart here rest
  else if c = '\x7b' then layout.openFlow .flowMappingStart here rest
  else if c = ']' then layout.closeFlow .flowSequenceEnd rest
  else if c = '\x7d' then layout.closeFlow .flowMappingEnd rest
  else if c = ',' then layout.flowEntry rest
  else if c = '-' && atGap rest then layout.blockEntry here rest
  else if c = '?' && single then layout.explicitKey here rest
  else if c = ':' && single then layout.keyedValue here rest
  else if c = '*' then layout.word here (named .alias rest)
  else if c = '&' then layout.word here (named .anchor rest)
  else if c = '!' then layout.word here (layout.tagWord rest)
  else if c = '|' && !flow then layout.blockScalar false rest
  else if c = '>' && !flow then layout.blockScalar true rest
  else if c = '\x27' then layout.flowScalar here false (singleQuotedFrom [] .none rest)
  else if c = '\x22' then layout.flowScalar here false (doubleQuotedFrom [] .none none rest)
  else if layout.startsPlain here rest then
    layout.flowScalar here true (plainFrom flow (layout.indent + 1) [] .none (here :: rest))
  else .error .noToken

/-! ## The whole text -/

/-- Passes over blanks, comments, line breaks and byte order marks at the start of a line. A tab
does not count as a blank where a key may start. -/
def skipToToken (layout : Layout) (inComment : Bool) : List Spot → Layout × List Spot
  | [] => (layout, [])
  | s :: rest =>
    if isBreak s.char then
      (if layout.inFlow then layout else layout.allowKey true).skipToToken false rest
    else if inComment || s.char = '#' then layout.skipToToken true rest
    else if s.char = ' ' || (s.char = '\t' && (layout.inFlow || !layout.keyAllowed)) ||
        (s.char.toNat = 0xFEFF && s.column = 0) then
      layout.skipToToken false rest
    else (layout, s :: rest)

/-- The tokens that are certain at `here` although the text behind it is ill-formed. Where a key
may still start, tokens may still come in between. -/
def broken (layout : Layout) (here : Option Spot) (cause : Fault) : List Token :=
  let open? := (layout.key :: layout.outerKeys).filterMap fun key =>
    key.filter fun key => !here.any key.isStale
  let certain := (open?.map PossibleKey.position).foldl min layout.count
  layout.reversed.reverse.take certain ++ [.broken cause]

/-- The tokens of a text behind what is known already; `fault` says why it ends early, if it does.
Each of the steps passes over a character at least, so there are no more steps than characters. -/
def tokensWithin (fault : Option Fault) : (steps : Nat) → Layout → List Spot → List Token
  | 0, layout, spots => layout.broken spots.head? .noToken
  | steps + 1, layout, spots =>
    match layout.skipToToken false spots with
    | (next, []) =>
      match fault, (next.unindentTo (-1)).dropKey with
      | none, .ok last => (Token.streamEnd :: last.reversed).reverse
      | some cause, _ | none, .error cause => layout.broken spots.head? cause
    | (next, here :: rest) =>
      let step : Step := do
        let next ← next.expireKeys here
        (next.unindentTo here.column).token here rest
      match step with
      | .error cause => layout.broken spots.head? cause
      | .ok (after, left) => tokensWithin fault steps after left

end Layout

/-- The tokens of a text, ending with `streamEnd` or with `broken`. -/
def tokens (text : String) : List Token :=
  let (spots, fault) := Spot.ofText text
  Layout.tokensWithin fault (spots.length + 1) {} spots

end Flowscript.Yaml
