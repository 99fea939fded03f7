import Flowscript.Yaml.Token

/-!
# Trees

The structure of a document: scalars, sequences and mappings, and aliases that point to anchored
nodes. `ι` is the type of the anchors: names as they are written, or numbers once every alias is
known to have a target.
-/

namespace Flowscript.Yaml

/-- What is written in front of a node. -/
structure NodeHead (ι : Type) where
  anchor : Option ι := none
  tag : Option (List UInt8) := none

/-- A node of a document. -/
inductive Tree (ι : Type) where
  | alias (target : ι)
  | scalar (head : NodeHead ι) (text : String) (plain : Bool)
  | sequence (head : NodeHead ι) (items : List (Tree ι))
  | mapping (head : NodeHead ι) (entries : List (Tree ι × Tree ι))

namespace Tree

variable {ι : Type}

/-- The node where nothing is written. -/
def empty : Tree ι := .scalar {} "" true

mutual

/-- The size of a node: one for an alias or a scalar, and two more than its contents for a
collection. -/
def size : Tree ι → Nat
  | .alias _ | .scalar .. => 1
  | .sequence _ items => 2 + itemsSize items
  | .mapping _ entries => 2 + entriesSize entries

/-- The size of the members of a sequence. -/
def itemsSize : List (Tree ι) → Nat
  | [] => 0
  | item :: rest => item.size + itemsSize rest

/-- The size of the entries of a mapping. -/
def entriesSize : List (Tree ι × Tree ι) → Nat
  | [] => 0
  | (key, value) :: rest => key.size + value.size + entriesSize rest

end

mutual

/-- The anchored nodes in the order of the text. -/
def anchored : Tree ι → List (ι × Tree ι)
  | .alias _ => []
  | .scalar head text plain => head.anchor.toList.map fun a => (a, .scalar head text plain)
  | .sequence head items =>
    (head.anchor.toList.map fun a => (a, .sequence head items)) ++ anchoredItems items
  | .mapping head entries =>
    (head.anchor.toList.map fun a => (a, .mapping head entries)) ++ anchoredEntries entries

/-- The anchored nodes in the members of a sequence. -/
def anchoredItems : List (Tree ι) → List (ι × Tree ι)
  | [] => []
  | item :: rest => item.anchored ++ anchoredItems rest

/-- The anchored nodes in the entries of a mapping. -/
def anchoredEntries : List (Tree ι × Tree ι) → List (ι × Tree ι)
  | [] => []
  | (key, value) :: rest => key.anchored ++ value.anchored ++ anchoredEntries rest

end

end Tree
end Flowscript.Yaml
