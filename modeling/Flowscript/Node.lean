import Flowscript.Json

/-!
# Nodes of a document

What a document of the notation says, before it is compiled: JSON data in which any node may carry
a tag. A node without tags is data and the other way round: `ofJson` and `toJson` are inverse.
-/

namespace Flowscript

/-- A node of a document. The tag of a tagged node is stored without its exclamation mark. -/
inductive Node where
  | null
  | bool (value : Bool)
  | number (value : Number)
  | string (value : String)
  | sequence (items : List Node)
  | mapping (entries : List (String × Node))
  | tagged (tag : String) (payload : Node)

/-- The shapes that messages tell apart. -/
inductive Shape where
  | null | boolean | number | string | sequence | mapping | tagged
deriving DecidableEq

/-- The word for a shape. -/
def Shape.name : Shape → String
  | .null => "null"
  | .boolean => "boolean"
  | .number => "number"
  | .string => "string"
  | .sequence => "sequence"
  | .mapping => "mapping"
  | .tagged => "tagged node"

namespace Node

instance : Inhabited Node := ⟨.null⟩

/-- The shape of a node. -/
def shape : Node → Shape
  | .null => .null
  | .bool _ => .boolean
  | .number _ => .number
  | .string _ => .string
  | .sequence _ => .sequence
  | .mapping _ => .mapping
  | .tagged .. => .tagged

/-- Whether a node is null; a tag around null is not. -/
def isNull : Node → Bool
  | .null => true
  | _ => false

/-- The text of a string. -/
def string? : Node → Option String
  | .string s => some s
  | _ => none

/-- Whether a node is a machine already, which is a mapping with an entry `StartAt`. -/
def isMachine : Node → Bool
  | .mapping entries => Entries.has "StartAt" entries
  | _ => false

/-- The arguments that a payload spreads into: the members of a sequence, nothing for null, and the
node itself otherwise. -/
def arguments : Node → List Node
  | .sequence items => items
  | .null => []
  | node => [node]

/-! ## Height -/

mutual

/-- How many nodes stand above each other. -/
def height : Node → Nat
  | .sequence items => itemsHeight items + 1
  | .mapping entries => entriesHeight entries + 1
  | .tagged _ payload => payload.height + 1
  | _ => 0

/-- The height of the highest member of a sequence. -/
def itemsHeight : List Node → Nat
  | [] => 0
  | item :: rest => max item.height (itemsHeight rest)

/-- The height of the highest value of a mapping. -/
def entriesHeight : List (String × Node) → Nat
  | [] => 0
  | (_, node) :: rest => max node.height (entriesHeight rest)

end

theorem height_le_itemsHeight {node : Node} {items : List Node} (h : node ∈ items) :
    node.height ≤ itemsHeight items := by
  induction items with
  | nil => simp at h
  | cons item rest ih =>
    rcases List.mem_cons.1 h with rfl | h
    · exact Nat.le_max_left ..
    · exact Nat.le_trans (ih h) (Nat.le_max_right ..)

theorem height_le_entriesHeight {key : String} {node : Node} {entries : List (String × Node)}
    (h : (key, node) ∈ entries) : node.height ≤ entriesHeight entries := by
  induction entries with
  | nil => simp at h
  | cons entry rest ih =>
    rcases List.mem_cons.1 h with rfl | h
    · exact Nat.le_max_left ..
    · exact Nat.le_trans (ih h) (Nat.le_max_right ..)

theorem itemsHeight_arguments_le (node : Node) : itemsHeight node.arguments ≤ node.height := by
  cases node <;> simp [arguments, itemsHeight, height]

/-- The argument at a place; null stands for one that is not given. -/
def argument (index : Nat) (node : Node) : Node := node.arguments.getD index .null

theorem height_argument_le (index : Nat) (node : Node) :
    (node.argument index).height ≤ node.height := by
  simp only [argument, List.getD_eq_getElem?_getD]
  cases h : node.arguments[index]? with
  | none => simp [height]
  | some item =>
    exact Nat.le_trans (height_le_itemsHeight (List.mem_of_getElem? h))
      (itemsHeight_arguments_le node)

/-! ## JSON -/

mutual

/-- JSON data as a node. -/
def ofJson : Json → Node
  | .null => .null
  | .bool b => .bool b
  | .number n => .number n
  | .string s => .string s
  | .array items => .sequence (ofJsonItems items)
  | .object fields => .mapping (ofJsonFields fields)

/-- The members of an array as nodes. -/
def ofJsonItems : List Json → List Node
  | [] => []
  | item :: rest => ofJson item :: ofJsonItems rest

/-- The fields of an object as entries. -/
def ofJsonFields : List (String × Json) → List (String × Node)
  | [] => []
  | (name, value) :: rest => (name, ofJson value) :: ofJsonFields rest

end

mutual

/-- A node as JSON data; if there is a tag anywhere, the first one in the order of the text. -/
def toJson : Node → Except String Json
  | .null => .ok .null
  | .bool b => .ok (.bool b)
  | .number n => .ok (.number n)
  | .string s => .ok (.string s)
  | .sequence items => (toJsonItems items).map .array
  | .mapping entries => (toJsonEntries entries).map .object
  | .tagged tag _ => .error tag

/-- The members of a sequence as JSON data. -/
def toJsonItems : List Node → Except String (List Json)
  | [] => .ok []
  | item :: rest => do
    let value ← item.toJson
    let values ← toJsonItems rest
    return value :: values

/-- The entries of a mapping as fields. -/
def toJsonEntries : List (String × Node) → Except String (List (String × Json))
  | [] => .ok []
  | (name, node) :: rest => do
    let value ← node.toJson
    let fields ← toJsonEntries rest
    return (name, value) :: fields

end

end Node
end Flowscript
