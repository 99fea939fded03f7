import Flowscript.SyntaxError
import Flowscript.Yaml.Value

/-!
# Nodes from YAML

Reads a YAML value as a node. Numbers must be finite. The keys of a mapping are scalars and become
their text; of two keys with one text the later value counts, at the place of the earlier.
-/

namespace Flowscript.Node

open Yaml (Value Quantity)

/-- The text of a mapping's key. -/
def keyOfYaml : Value → Except SyntaxError String
  | .scalar .null => .ok "null"
  | .scalar (.bool b) => .ok (toString b)
  | .scalar (.number q) => .ok q.text
  | .scalar (.text s) => .ok s
  | key => .error (.compoundKey key.description)

/-- A scalar as a node. -/
def ofScalar : Yaml.Scalar → Except SyntaxError Node
  | .null => .ok .null
  | .bool b => .ok (.bool b)
  | .number (.number n) => .ok (.number n)
  | .number q => .error (.notFinite q.text)
  | .text s => .ok (.string s)

mutual

/-- A YAML value as a node. A tag loses all its exclamation marks. -/
def ofYaml : Value → Except SyntaxError Node
  | .scalar value => ofScalar value
  | .sequence items => do return .sequence (← ofYamlItems items)
  | .mapping entries => do return .mapping (← ofYamlEntries [] entries)
  | .tagged tag payload => do
    let name := String.ofList (tag.toList.dropWhile (· = '!'))
    return .tagged name (← ofYaml payload)

/-- The members of a sequence as nodes. -/
def ofYamlItems : List Value → Except SyntaxError (List Node)
  | [] => return []
  | item :: rest => do
    let item ← ofYaml item
    return item :: (← ofYamlItems rest)

/-- Adds the entries of a mapping to those that are known so far. -/
def ofYamlEntries (known : Entries String Node) :
    List (Value × Value) → Except SyntaxError (Entries String Node)
  | [] => return known
  | (key, value) :: rest => do
    let key ← keyOfYaml key
    let value ← ofYaml value
    ofYamlEntries (known.insert key value) rest

end

end Flowscript.Node
