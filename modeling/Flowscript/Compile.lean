import Flowscript.Notice
import Flowscript.Symbols

/-!
# Compilation steps

A step of compilation may fail, and changes what the compiler remembers: the counters of generated
names, the names of references, and its journal. What a step remembered before it failed stays.
-/

namespace Flowscript

/-- What the compiler remembers from one step to the next. -/
structure Memory where
  symbols : Symbols := {}
  /-- The names of the namespaced references that were met. -/
  names : Entries String String := []
  /-- The notices so far, the latest first. -/
  journal : List Notice := []

instance : Inhabited Memory := ⟨{}⟩

/-- A step of compilation. -/
abbrev Compile (α : Type) := ExceptT CompileError (StateM Memory) α

namespace Compile

variable {α : Type}

/-- The outcome of a step, and what the compiler remembers behind it. -/
def outcome (step : Compile α) (memory : Memory) : Except CompileError α × Memory :=
  (ExceptT.run step).run memory

/-- Fails because the document has no meaning. -/
def refuse (cause : SyntaxError) : Compile α := throw (.refused cause)

/-- A part of a step that only looks at the document. -/
def ofExcept : Except SyntaxError α → Compile α
  | .ok value => pure value
  | .error cause => refuse cause

/-- Enters a notice into the journal. -/
def note (notice : Notice) : Compile Unit :=
  modify fun memory => { memory with journal := notice :: memory.journal }

/-- Generates a name from a stem. -/
def generateName (stem : String) : Compile String := do
  let memory ← get
  let (name, symbols) := memory.symbols.next stem
  set { memory with symbols := symbols }
  note (.symbolAllocated name)
  return name

/-- The text behind the last colon. -/
def lastSegment (reference : String) : String :=
  String.ofList (reference.toList.reverse.takeWhile (· ≠ ':')).reverse

/-- The name of the state for a reference: its last segment, or a name generated from that if
`fresh`. A reference without a colon is its own name, so a target that is written ahead of its
state still has the state's name. -/
def shortName (fresh : Bool) (reference : String) : Compile String := do
  let segment := lastSegment reference
  if fresh then generateName segment
  else if ':' ∉ reference.toList then return reference
  else
    match (← get).names.get? reference with
    | some name => return name
    | none =>
      note (.referenceNamed reference segment)
      modify fun memory => { memory with names := memory.names.insert reference segment }
      return segment

end Compile
end Flowscript
