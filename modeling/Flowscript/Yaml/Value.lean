import Flowscript.Text.Quoted
import Flowscript.Yaml.Content
import Flowscript.Yaml.Scalar

/-!
# Values

A YAML document as data: scalars, sequences, mappings whose keys may be anything but are distinct,
and values that carry a tag of their own. The tags of the core schema leave no trace.
-/

namespace Flowscript.Yaml

/-- A value. The text of a tag stands without its exclamation mark. -/
inductive Value where
  | scalar (value : Scalar)
  | sequence (items : List Value)
  | mapping (entries : List (Value × Value))
  | tagged (tag : String) (payload : Value)

namespace Value

/-- Whether a value is null, with or without tags around it. -/
def isNull : Value → Bool
  | .scalar .null => true
  | .tagged _ payload => payload.isNull
  | _ => false

/-! ## Equality -/

mutual

/-- Equality of values. The order of a mapping's entries does not count. -/
def same : Value → Value → Bool
  | .scalar (.number p), .scalar (.number q) => p.same q
  | .scalar a, .scalar b => a = b
  | .sequence xs, .sequence ys => sameItems xs ys
  | .mapping xs, .mapping ys => xs.length = ys.length && within xs ys
  | .tagged s x, .tagged t y => s = t && x.same y
  | _, _ => false

/-- Equality of sequences. -/
def sameItems : List Value → List Value → Bool
  | [], [] => true
  | x :: xs, y :: ys => x.same y && sameItems xs ys
  | _, _ => false

/-- Whether a mapping has all the given entries. -/
def within : List (Value × Value) → List (Value × Value) → Bool
  | [], _ => true
  | (key, value) :: rest, entries =>
    (entries.any fun entry => key.same entry.1 && value.same entry.2) && within rest entries

end

/-- Whether a list holds a value twice. -/
def hasRepeat : List Value → Bool
  | [] => false
  | value :: rest => rest.any value.same || hasRepeat rest

/-! ## From contents -/

/-- A text without its first exclamation mark, unless nothing else is left. -/
def withoutMark (text : String) : String :=
  match text.toList with
  | '!' :: c :: rest => String.ofList (c :: rest)
  | _ => text

/-- The name of a tag with an exclamation mark in front, if it is a text at all. -/
def tagName? (tag : List UInt8) : Option String :=
  match tag with
  | [] => none
  | mark :: rest =>
    if mark = UInt8.ofNat '!'.toNat then
      match Text.Utf8.decode (if rest.isEmpty then tag else rest) with
      | .ok name => some (withoutMark name)
      | .error _ => none
    else none

/-- The value with a tag around it, if the tag has a name. -/
def underTag (tag : Option (List UInt8)) (value : Value) : Value :=
  match tag.bind tagName? with
  | some name => .tagged name value
  | none => value

mutual

/-- The value of a document's contents. -/
def ofContent : Content → Except Fault Value
  | .scalar tag text plain => do
    let core := if (tag.bind tagName?).isSome then none else tag
    return underTag tag (.scalar (← Scalar.read core text plain))
  | .sequence tag items => do
    return underTag tag (.sequence (← ofItems items))
  | .mapping tag entries => do
    let entries ← ofEntries entries
    if hasRepeat (entries.map Prod.fst) then throw .repeatedKey
    else return underTag tag (.mapping entries)

/-- The values of a sequence's members. -/
def ofItems : List Content → Except Fault (List Value)
  | [] => return []
  | item :: rest => do
    let item ← ofContent item
    return item :: (← ofItems rest)

/-- The values of a mapping's entries. -/
def ofEntries : List (Content × Content) → Except Fault (List (Value × Value))
  | [] => return []
  | (key, value) :: rest => do
    let key ← ofContent key
    let value ← ofContent value
    return (key, value) :: (← ofEntries rest)

end

/-! ## Description -/

mutual

/-- A value as messages show it. -/
def description : Value → String
  | .scalar .null => "Null"
  | .scalar (.bool b) => "Bool(" ++ toString b ++ ")"
  | .scalar (.number q) => "Number(" ++ q.text ++ ")"
  | .scalar (.text s) => "String(" ++ Text.quoted s ++ ")"
  | .sequence items => "Sequence [" ++ String.intercalate ", " (descriptions items) ++ "]"
  | .mapping entries =>
    "Mapping \x7b" ++ String.intercalate ", " (entryDescriptions entries) ++ "\x7d"
  | .tagged tag payload =>
    "TaggedValue \x7b tag: !" ++ tag ++ ", value: " ++ payload.description ++ " \x7d"

/-- A key as messages show it: scalars except null stand bare. -/
def keyDescription : Value → String
  | .scalar (.bool b) => toString b
  | .scalar (.number q) => q.text
  | .scalar (.text s) => Text.quoted s
  | .scalar .null => description (.scalar .null)
  | .sequence items => description (.sequence items)
  | .mapping entries => description (.mapping entries)
  | .tagged tag payload => description (.tagged tag payload)

/-- The members of a sequence as messages show them. -/
def descriptions : List Value → List String
  | [] => []
  | item :: rest => item.description :: descriptions rest

/-- The entries of a mapping as messages show them. -/
def entryDescriptions : List (Value × Value) → List String
  | [] => []
  | (key, value) :: rest =>
    (key.keyDescription ++ ": " ++ value.description) :: entryDescriptions rest

end

end Value

/-- The documents of a text, up to the first that is ill-formed. A text without any has one, which
is empty. -/
def documents (text : String) : List (Except Fault Value) :=
  match contents text with
  | [] => [.ok (.scalar .null)]
  | found => found.map fun content => content.bind Value.ofContent

/-- The value of a text with one document. -/
def document? (text : String) : Except Fault Value :=
  match documents text with
  | [document] => document
  | _ => .error .manyDocuments

end Flowscript.Yaml
