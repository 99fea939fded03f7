import Flowscript.Entries
import Flowscript.Yaml.Layout
import Flowscript.Yaml.Tree

/-!
# Documents from tokens

Reads the documents of a token list as trees. Each reader returns the tokens that it leaves, with
the proof that they are fewer, so the readers end.
-/

namespace Flowscript.Yaml

/-- Tokens that a reader leaves, all of them at most. -/
abbrev Left (ts : List Token) := { rest : List Token // rest.length ≤ ts.length }

/-- Tokens that a reader leaves which passes over one at least. -/
abbrev Fewer (ts : List Token) := { rest : List Token // rest.length < ts.length }

/-- The handles of tags, and what they stand for. -/
abbrev TagHandles := Entries String (List UInt8)

/-- The cause for which a text has no tokens here. -/
def breakAt? : List Token → Option Fault
  | .broken cause :: _ => some cause
  | _ => none

/-- What is wrong where none of the expected tokens stands. -/
def unexpected (cause : Fault) (ts : List Token) : Fault := (breakAt? ts).getD cause

/-- A tag in full. -/
def expandTag (handles : TagHandles) (handle : String) (suffix : List UInt8) :
    Except Fault (List UInt8) :=
  if handle.isEmpty then .ok suffix
  else
    match handles.get? handle with
    | some start => .ok (start ++ suffix)
    | none => .error .unknownHandle

/-- Reads an anchor and a tag, in either order and each at most once. -/
def nodeHead (handles : TagHandles) :
    (ts : List Token) → Except Fault (NodeHead String × Left ts)
  | .anchor name :: .tag handle suffix :: rest => do
    let tag ← expandTag handles handle suffix
    return (⟨some name, some tag⟩, ⟨rest, by simp only [List.length_cons]; omega⟩)
  | .tag handle suffix :: .anchor name :: rest => do
    let tag ← expandTag handles handle suffix
    return (⟨some name, some tag⟩, ⟨rest, by simp only [List.length_cons]; omega⟩)
  | .anchor name :: rest =>
    .ok (⟨some name, none⟩, ⟨rest, by simp only [List.length_cons]; omega⟩)
  | .tag handle suffix :: rest => do
    let tag ← expandTag handles handle suffix
    return (⟨none, some tag⟩, ⟨rest, by simp only [List.length_cons]; omega⟩)
  | ts => .ok ({}, ⟨ts, Nat.le_refl _⟩)

/-- The ends of a member of an indented block sequence. -/
def endsIndentedItem (token : Token) : Bool := token = .blockEntry || token = .blockEnd

/-- The ends of a key or a value in a block mapping. -/
def endsBlockKey (token : Token) : Bool := token = .key || token = .value || token = .blockEnd

/-- The ends of a member of a block sequence that is indented no further than the mapping around
it. -/
def endsItem (token : Token) : Bool := token = .blockEntry || endsBlockKey token

/-- The ends of a member of a flow collection with the closing bracket `close`. -/
def endsFlowItem (close token : Token) : Bool := token = .flowEntry || token = close

/-- The ends of an explicit key in a flow collection. -/
def endsFlowKey (close token : Token) : Bool := token = .value || endsFlowItem close token

section

variable (handles : TagHandles)

mutual

/-- Reads a node. In block context it may be a block collection, and if `dashes` also a sequence
whose dashes stand no further in than the mapping around it. -/
def node (block dashes : Bool) (ts : List Token) : Except Fault (Tree String × Fewer ts) := do
  let (head, ⟨mid, _⟩) ← nodeHead handles ts
  match _h : mid with
  | .scalar text plain :: rest => return (.scalar head text plain, ⟨rest, by grind⟩)
  | .flowSequenceStart :: rest =>
    let (items, ⟨left, _⟩) ← flowItems rest
    return (.sequence head items, ⟨left, by grind⟩)
  | .flowMappingStart :: rest =>
    let (entries, ⟨left, _⟩) ← flowEntries rest
    return (.mapping head entries, ⟨left, by grind⟩)
  | .blockSequenceStart :: rest =>
    if block then
      let (items, ⟨left, _⟩) ← blockItems rest
      return (.sequence head items, ⟨left, by grind⟩)
    else .error .expectedNode
  | .blockMappingStart :: rest =>
    if block then
      let (entries, ⟨left, _⟩) ← blockEntries rest
      return (.mapping head entries, ⟨left, by grind⟩)
    else .error .expectedNode
  | token :: rest =>
    if dashes && token = .blockEntry then
      let (items, ⟨left, _⟩) ← dashedItems rest
      return (.sequence head items, ⟨left, by grind⟩)
    else if written : mid.length < ts.length then
      return (.scalar head "" true, ⟨mid, written⟩)
    else
      match token with
      | .alias name => return (.alias name, ⟨rest, by grind⟩)
      | _ => .error (unexpected .expectedNode mid)
  | [] => .error .expectedNode
termination_by (ts.length, 1)

/-- Reads a node, or nothing where a token stands that ends the place of the node. -/
def optionalNode (ends : Token → Bool) (block dashes : Bool) (ts : List Token) :
    Except Fault (Tree String × Left ts) := do
  if ts.head?.any ends then return (.empty, ⟨ts, Nat.le_refl _⟩)
  else
    let (tree, ⟨left, _⟩) ← node block dashes ts
    return (tree, ⟨left, by grind⟩)
termination_by (ts.length, 2)

/-- Reads the members of an indented block sequence. -/
def blockItems (ts : List Token) : Except Fault (List (Tree String) × Left ts) := do
  match _h : ts with
  | .blockEntry :: rest =>
    let (item, ⟨mid, _⟩) ← optionalNode endsIndentedItem true false rest
    let (items, ⟨left, _⟩) ← blockItems mid
    return (item :: items, ⟨left, by grind⟩)
  | .blockEnd :: rest => return ([], ⟨rest, by grind⟩)
  | _ => .error (unexpected .expectedEntry ts)
termination_by (ts.length, 3)

/-- Reads the members of a block sequence that is not indented, from behind its first dash. -/
def dashedItems (ts : List Token) : Except Fault (List (Tree String) × Left ts) := do
  let (item, ⟨mid, _⟩) ← optionalNode endsItem true false ts
  match _h : mid with
  | .blockEntry :: rest =>
    let (items, ⟨left, _⟩) ← dashedItems rest
    return (item :: items, ⟨left, by grind⟩)
  | _ => return ([item], ⟨mid, by grind⟩)
termination_by (ts.length, 3)

/-- Reads the entries of a block mapping. -/
def blockEntries (ts : List Token) :
    Except Fault (List (Tree String × Tree String) × Left ts) := do
  match _h : ts with
  | .key :: rest =>
    let (key, ⟨mid, _⟩) ← optionalNode endsBlockKey true true rest
    let (value, ⟨mid, _⟩) ← blockValue mid
    let (entries, ⟨left, _⟩) ← blockEntries mid
    return ((key, value) :: entries, ⟨left, by grind⟩)
  | .blockEnd :: rest => return ([], ⟨rest, by grind⟩)
  | _ => .error (unexpected .expectedKey ts)
termination_by (ts.length, 3)

/-- Reads the value of an entry in a block mapping. -/
def blockValue (ts : List Token) : Except Fault (Tree String × Left ts) := do
  match _h : ts with
  | .value :: rest =>
    let (value, ⟨left, _⟩) ← optionalNode endsBlockKey true true rest
    return (value, ⟨left, by grind⟩)
  | _ => return (.empty, ⟨ts, Nat.le_refl _⟩)
termination_by (ts.length, 3)

/-- Reads the members of a flow sequence up to its closing bracket. -/
def flowItems (ts : List Token) : Except Fault (List (Tree String) × Left ts) := do
  match _h : ts with
  | .flowSequenceEnd :: rest => return ([], ⟨rest, by grind⟩)
  | .key :: rest =>
    let (item, ⟨mid, _⟩) ← flowPair rest
    let (items, ⟨left, _⟩) ← moreFlowItems mid
    return (item :: items, ⟨left, by grind⟩)
  | _ =>
    let (item, ⟨mid, _⟩) ← node false false ts
    let (items, ⟨left, _⟩) ← moreFlowItems mid
    return (item :: items, ⟨left, by grind⟩)
termination_by (ts.length, 4)
decreasing_by all_goals grind

/-- Reads the members of a flow sequence behind a member. -/
def moreFlowItems (ts : List Token) : Except Fault (List (Tree String) × Left ts) := do
  match _h : ts with
  | .flowSequenceEnd :: rest => return ([], ⟨rest, by grind⟩)
  | .flowEntry :: rest =>
    let (items, ⟨left, _⟩) ← flowItems rest
    return (items, ⟨left, by grind⟩)
  | _ => .error (unexpected .expectedSeparator ts)
termination_by (ts.length, 4)
decreasing_by all_goals grind

/-- Reads a member of a flow sequence that is an entry without brackets of its own. Where no key is
written, the token behind the question mark is passed over. -/
def flowPair (ts : List Token) : Except Fault (Tree String × Left ts) := do
  match _h : ts with
  | [] => .error .expectedNode
  | token :: rest =>
    if endsFlowKey .flowSequenceEnd token then
      let (value, ⟨left, _⟩) ← flowValue .flowSequenceEnd rest
      return (.mapping {} [(.empty, value)], ⟨left, by grind⟩)
    else
      let (key, ⟨mid, _⟩) ← node false false ts
      let (value, ⟨left, _⟩) ← flowValue .flowSequenceEnd mid
      return (.mapping {} [(key, value)], ⟨left, by grind⟩)
termination_by (ts.length, 4)
decreasing_by all_goals grind

/-- Reads the value of an entry in a flow collection. -/
def flowValue (close : Token) (ts : List Token) : Except Fault (Tree String × Left ts) := do
  match _h : ts with
  | .value :: rest =>
    let (value, ⟨left, _⟩) ← optionalNode (endsFlowItem close) false false rest
    return (value, ⟨left, by grind⟩)
  | _ => return (.empty, ⟨ts, Nat.le_refl _⟩)
termination_by (ts.length, 3)

/-- Reads the entries of a flow mapping up to its closing bracket. -/
def flowEntries (ts : List Token) :
    Except Fault (List (Tree String × Tree String) × Left ts) := do
  match _h : ts with
  | .flowMappingEnd :: rest => return ([], ⟨rest, by grind⟩)
  | .key :: rest =>
    let (key, ⟨mid, _⟩) ← optionalNode (endsFlowKey .flowMappingEnd) false false rest
    let (value, ⟨mid, _⟩) ← flowValue .flowMappingEnd mid
    let (entries, ⟨left, _⟩) ← moreFlowEntries mid
    return ((key, value) :: entries, ⟨left, by grind⟩)
  | _ =>
    let (key, ⟨mid, _⟩) ← node false false ts
    let (entries, ⟨left, _⟩) ← moreFlowEntries mid
    return ((key, .empty) :: entries, ⟨left, by grind⟩)
termination_by (ts.length, 4)
decreasing_by all_goals grind

/-- Reads the entries of a flow mapping behind an entry. -/
def moreFlowEntries (ts : List Token) :
    Except Fault (List (Tree String × Tree String) × Left ts) := do
  match _h : ts with
  | .flowMappingEnd :: rest => return ([], ⟨rest, by grind⟩)
  | .flowEntry :: rest =>
    let (entries, ⟨left, _⟩) ← flowEntries rest
    return (entries, ⟨left, by grind⟩)
  | _ => .error (unexpected .expectedSeparator ts)
termination_by (ts.length, 4)
decreasing_by all_goals grind

end

end

/-! ## Documents -/

/-- Whether a token belongs to what stands between documents. -/
def isBoundary : Token → Bool
  | .version .. | .tagShorthand .. | .documentStart | .documentEnd | .streamEnd => true
  | _ => false

/-- The handles that need no directive. -/
def defaultHandles : TagHandles :=
  [("!", "!".toUTF8.toList), ("!!", "tag:yaml.org,2002:".toUTF8.toList)]

/-- Reads the directives of a document: one version at most, and each handle once. -/
def directives (versioned : Bool) (handles : TagHandles) :
    (ts : List Token) → Except Fault (TagHandles × Left ts)
  | .version major minor :: rest => do
    if versioned then .error .repeatedDirective
    else if major ≠ 1 || (minor ≠ 1 && minor ≠ 2) then .error .badVersion
    else
      let (handles, ⟨left, _⟩) ← directives true handles rest
      return (handles, ⟨left, by grind⟩)
  | .tagShorthand handle start :: rest => do
    if handles.has handle then .error .repeatedDirective
    else
      let (handles, ⟨left, _⟩) ← directives versioned (handles.insert handle start) rest
      return (handles, ⟨left, by grind⟩)
  | ts => .ok (handles ++ defaultHandles, ⟨ts, Nat.le_refl _⟩)

/-- Reads one document, not counting the marker at its end. The first document of a text needs no
marker at its start. -/
def document (first : Bool) (ts : List Token) : Except Fault (Tree String × Fewer ts) := do
  if first && !ts.head?.any isBoundary then node defaultHandles true false ts
  else
    let (handles, ⟨mid, _⟩) ← directives false [] ts
    match _h : mid with
    | .documentStart :: rest =>
      let (tree, ⟨left, _⟩) ← optionalNode handles isBoundary true false rest
      return (tree, ⟨left, by grind⟩)
    | _ => .error (unexpected .expectedDocumentStart mid)

/-- The documents from a place between documents on, up to the first that is ill-formed. A document
is known to be whole only when the token behind it is. -/
def documentsFrom (first : Bool) (ts : List Token) : List (Except Fault (Tree String)) :=
  match ts with
  | [] => [.error .expectedDocumentStart]
  | .streamEnd :: _ => []
  | .documentEnd :: rest =>
    if first then [.error .expectedNode] else documentsFrom false rest
  | ts =>
    match document first ts with
    | .error cause => [.error cause]
    | .ok (tree, ⟨left, _⟩) =>
      match breakAt? left with
      | some cause => [.error cause]
      | none => .ok tree :: documentsFrom false left
termination_by ts.length

end Flowscript.Yaml
