import Flowscript.Json
import Flowscript.Yaml.Value

/-!
# Tables

Reads a YAML text as a table of JSON data: a single mapping whose keys are scalars, taken as they
are written. What is no finite number becomes null, and of equal keys the last counts.
-/

namespace Flowscript.Yaml

/-- A key as it is written. -/
def keyText : Content → Except Fault String
  | .scalar _ text _ => .ok text
  | _ => .error .notATable

/-- A scalar as JSON. -/
def Scalar.toJson : Scalar → Json
  | .null => .null
  | .bool b => .bool b
  | .number (.number n) => .number n
  | .number _ => .null
  | .text s => .string s

/-- Refuses the tags that are not of the core schema. -/
def refuseTag (tag : Option (List UInt8)) : Except Fault Unit :=
  if (tag.bind Value.tagName?).isSome then .error .tagInTable else .ok ()

mutual

/-- The contents of a document as JSON. -/
def Content.toJson : Content → Except Fault Json
  | .scalar tag text plain => do
    refuseTag tag
    return (← Scalar.read tag text plain).toJson
  | .sequence tag items => do
    refuseTag tag
    return .array (← itemsToJson items)
  | .mapping tag entries => do
    refuseTag tag
    return .object (← entriesToJson [] entries)

/-- The members of a sequence as JSON. -/
def itemsToJson : List Content → Except Fault (List Json)
  | [] => return []
  | item :: rest => do
    let item ← item.toJson
    return item :: (← itemsToJson rest)

/-- Adds the entries of a mapping to those that are known so far. -/
def entriesToJson (known : Entries String Json) :
    List (Content × Content) → Except Fault (Entries String Json)
  | [] => return known
  | (key, value) :: rest => do
    let key ← keyText key
    let value ← value.toJson
    entriesToJson (known.insert key value) rest

end

/-- The table that a text holds. A text without contents is an empty table. -/
def table (text : String) : Except Fault (Entries String Json) :=
  match contents text with
  | [] => .ok []
  | [.error cause] => .error cause
  | [.ok (.mapping _ entries)] => entriesToJson [] entries
  | [.ok (.scalar _ "" true)] => .ok []
  | [.ok _] => .error .notATable
  | _ => .error .manyDocuments

end Flowscript.Yaml
