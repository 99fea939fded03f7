import Flowscript.Compile

/-!
# Readers and resolvers

What the compiler is set up with: the readers, which say what the tags of a document mean, and a
resolver, which says what its references stand for.
-/

namespace Flowscript

/-- The meaning of a tag. -/
inductive Reader where
  /-- A state of a given type. -/
  | terminal (type : StateType)
  /-- The state that the payload is without the tag. -/
  | state
  /-- A task with a name that is generated. -/
  | dupe
  /-- A state with a branch for each member of the payload. -/
  | parallel
  /-- A choice between two states. -/
  | choice
  /-- A state with a target for failures. -/
  | guard
  /-- A state that is tried again. -/
  | retry
  /-- A state that goes on with a given one. -/
  | next
  /-- A state that ends the machine. -/
  | finish
  /-- A state that reshapes its input. -/
  | parameters
  /-- A meaning that is added from outside: what compiling a payload does. -/
  | custom (compile : Node → Compile State)

/-- The readers of tags. -/
abbrev ReaderTable := Entries String Reader

namespace ReaderTable

/-- A tag without the exclamation marks in front. -/
def bareTag (tag : String) : String := String.ofList (tag.toList.dropWhile (· = '!'))

/-- Gives a tag a reader, in place of the one that it may have. -/
def register (tag : String) (reader : Reader) (readers : ReaderTable) : ReaderTable :=
  readers.insert (bareTag tag) reader

/-- The tags in the order of their characters. -/
def tags (readers : ReaderTable) : List String := readers.keys.mergeSort

/-- The readers that are there from the start. -/
def standard : ReaderTable := [
  ("pass", .terminal .pass), ("fail", .terminal .fail), ("succeed", .terminal .succeed),
  ("state", .state), ("dupe", .dupe), ("^", .dupe), ("parallel", .parallel), ("if", .choice),
  ("try", .guard), ("retry", .retry), ("next", .next), ("end", .finish),
  ("params", .parameters), ("@", .parameters)]

end ReaderTable

/-- What a reference stands for, if anything; or the reason why that cannot be told. -/
abbrev Resolver := String → Except String (Option Json)

namespace Resolver

/-- Every reference stands for itself. -/
def identity : Resolver := fun _ => .ok none

/-- References stand for what a table says. -/
def ofTable (table : Entries String Json) : Resolver := fun reference => .ok (table.get? reference)

end Resolver

/-- What a compiler is set up with. -/
structure Setting where
  resolver : Resolver := Resolver.identity
  readers : ReaderTable := ReaderTable.standard

end Flowscript
