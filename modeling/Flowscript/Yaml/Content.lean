import Flowscript.Yaml.Tree.Grammar

/-!
# Contents of documents

What a document holds once every alias is replaced by the node that it stands for. Collections may
stand 128 deep, and the number of aliases that are followed is bounded, so that a short text cannot
stand for an endless or an enormous one.
-/

namespace Flowscript.Yaml

/-- A node without anchors and aliases. -/
inductive Content where
  | scalar (tag : Option (List UInt8)) (text : String) (plain : Bool)
  | sequence (tag : Option (List UInt8)) (items : List Content)
  | mapping (tag : Option (List UInt8)) (entries : List (Content × Content))

/-! ## Numbered anchors -/

/-- The numbers of the anchors so far, by name. -/
abbrev AnchorNumbers := Entries String Nat

/-- Numbers anchors, or fails at an alias without one. -/
abbrev Numbering := StateT AnchorNumbers (Except Fault)

/-- An anchor's number is how many names there are before it. -/
def NodeHead.numbered (head : NodeHead String) : Numbering (NodeHead Nat) := do
  match head.anchor with
  | none => return ⟨none, head.tag⟩
  | some name =>
    let numbers ← get
    set (Entries.insert name numbers.length numbers : AnchorNumbers)
    return ⟨some numbers.length, head.tag⟩

namespace Tree

mutual

/-- The tree with numbers for its anchors, in the order of the text. -/
def numbered : Tree String → Numbering (Tree Nat)
  | .alias name => do
    match (← get).get? name with
    | some number => return .alias number
    | none => throw .unknownAnchor
  | .scalar head text plain => do return .scalar (← head.numbered) text plain
  | .sequence head items => do
    let head ← head.numbered
    return .sequence head (← numberedItems items)
  | .mapping head entries => do
    let head ← head.numbered
    return .mapping head (← numberedEntries entries)

/-- The members of a sequence with numbers for their anchors. -/
def numberedItems : List (Tree String) → Numbering (List (Tree Nat))
  | [] => return []
  | item :: rest => do
    let item ← item.numbered
    return item :: (← numberedItems rest)

/-- The entries of a mapping with numbers for their anchors. -/
def numberedEntries : List (Tree String × Tree String) → Numbering (List (Tree Nat × Tree Nat))
  | [] => return []
  | (key, value) :: rest => do
    let key ← key.numbered
    let value ← value.numbered
    return (key, value) :: (← numberedEntries rest)

end

/-! ## Aliases replaced -/

/-- Follows aliases, of which some number may still come. -/
abbrev Following := StateT Nat (Except Fault)

/-- How deep collections may stand. -/
def maxDepth : Nat := 128

/-- How many aliases may be followed for each unit of a document's size. -/
def aliasesPerUnit : Nat := 100

/-- Counts an alias. -/
def follow : Following Unit := do
  match ← get with
  | 0 => throw .tooManyAliases
  | left + 1 => set left

/-- The contents of a node that is no alias, given those of the nodes in it, if there may be any. -/
def contentWith (inner? : Option (Tree Nat → Following Content)) : Tree Nat → Following Content
  | .alias _ => throw .unknownAnchor
  | .scalar head text plain => return .scalar head.tag text plain
  | .sequence head items =>
    match inner? with
    | none => throw .tooDeep
    | some inner => return .sequence head.tag (← items.mapM inner)
  | .mapping head entries =>
    match inner? with
    | none => throw .tooDeep
    | some inner =>
      return .mapping head.tag (← entries.mapM fun (key, value) => do
        let key ← inner key
        return (key, ← inner value))

/-- The contents of a node with at most `depth` levels of collections. An alias stands for the first
node in `targets` with its number. -/
def contentWithin (targets : List (Nat × Tree Nat)) : (depth : Nat) → Tree Nat → Following Content
  | depth, tree => do
    let inner? :=
      match depth with
      | 0 => none
      | depth + 1 => some (contentWithin targets depth)
    match tree with
    | .alias number =>
      follow
      match Entries.get? number targets with
      | some target => contentWith inner? target
      | none => throw .unknownAnchor
    | _ => contentWith inner? tree

/-- The contents of a document. Of several nodes with one number the last is meant. -/
def content (tree : Tree String) : Except Fault Content := do
  let (tree, _) ← tree.numbered.run []
  let targets := tree.anchored.reverse
  let (content, _) ← (contentWithin targets maxDepth tree).run (aliasesPerUnit * tree.size)
  return content

end Tree

/-- The contents of the documents of a text, up to the first that is ill-formed. -/
def contents (text : String) : List (Except Fault Content) :=
  (documentsFrom true (tokens text)).map fun document => document.bind Tree.content

end Flowscript.Yaml
