import Flowscript.Compile
import Flowscript.Property.StateFields

/-!
# Defaults

Adds what a state needs and its author left out: a task takes its own name as its resource, a state
without a name gets a generated one, and a state of no given type is a task if it has a name and
passes its input on if not. What is written is never replaced.
-/

namespace Flowscript.Properties

/-- The text of a property, unless it is absent or null. -/
def text? (p : Property) (properties : Properties) : Except SyntaxError (Option String) :=
  match properties.get? p with
  | none | some .null => .ok none
  | some node => (p.readText node).map some

/-- The type that is written, unless it is absent or null. -/
def type? (properties : Properties) : Except SyntaxError (Option StateType) :=
  match properties.get? .type with
  | none | some .null => .ok none
  | some node => (Property.readType node).map some

/-- What properties say of a state's type, its name, and whether it has a resource. -/
structure Outline where
  written : Option StateType
  name : Option String
  hasResource : Bool

/-- The type as far as the name depends on it. -/
def Outline.type (outline : Outline) : StateType := outline.written.getD .task

/-- The type that the state gets. -/
def Outline.finalType (outline : Outline) : StateType :=
  if !outline.hasResource && outline.written.isNone then .pass else outline.type

/-- The resource that the name stands for. -/
def Outline.resource? (outline : Outline) : Option String :=
  if outline.type = .task then outline.name else none

/-- Looks at the type and the name of properties, and at the resource unless the name decides about
it. -/
def outline (properties : Properties) : Except SyntaxError Outline := do
  let written ← properties.type?
  let name ← properties.text? .name
  let hasResource ←
    if written.getD .task = .task then pure name.isSome
    else do pure (← properties.text? .resource).isSome
  return ⟨written, name, hasResource⟩

/-- Properties with the given name and with what their outline adds. -/
def complete (outline : Outline) (name : String) (properties : Properties) : Properties :=
  let typed :=
    (Entries.insert .name (.string name) properties).insert .type
      (.string outline.finalType.name)
  match outline.resource? with
  | some resource =>
    if typed.has .resource then typed else typed.insert .resource (.string resource)
  | none => typed

/-- The name that an outline tells, or a generated one. -/
def Outline.naming (outline : Outline) : Compile String :=
  match outline.name with
  | some name => return name
  | none => Compile.generateName outline.type.stem

/-! ## In place -/

/-- A step of compilation that changes properties in place. What it changed before it failed stays
changed. -/
abbrev InPlace (α : Type) := ExceptT CompileError (StateT Properties (StateM Memory)) α

namespace InPlace

variable {α : Type}

/-- The outcome of a step, the properties behind it, and what the compiler remembers behind it. -/
def outcome (step : InPlace α) (properties : Properties) (memory : Memory) :
    Except CompileError α × Properties × Memory :=
  let ((result, properties), memory) := ((ExceptT.run step).run properties).run memory
  (result, properties, memory)

/-- A step that leaves the properties alone. -/
def ofCompile (step : Compile α) : InPlace α := ExceptT.mk (StateT.lift (ExceptT.run step))

end InPlace

/-- Adds the defaults to properties. Whatever can fail comes before the first change. -/
def applyDefaults : InPlace Unit := do
  let outline ← InPlace.ofCompile (Compile.ofExcept (← get).outline)
  let name ← InPlace.ofCompile outline.naming
  modify (complete outline name)

/-- Properties with their defaults. Those for which they fail are given up. -/
def withDefaults (properties : Properties) : Compile Properties :=
  ExceptT.mk do
    let (result, completed) ← (ExceptT.run applyDefaults).run properties
    return result.map fun _ => completed

end Flowscript.Properties
